import BleSim.ServerScript

/-!
# What calls on values do to the server

A call on a value changes what one characteristic shows (`Effect`), and nothing else the server
knows of. `setValue` is the hard one: which values are turned down, and how, is decided item by
item (`refusal`).
-/

namespace BleSim

open Outcomes WriteOnce Refinement

/-! ## How values are turned down -/

/-- How a converter turns down a value of the given kind. -/
def LuaValue.turnedDown (v : LuaValue) {α : Type} : LuaExit (Option α) :=
  if v.raises then .raise else .ret none

theorem LuaValue.turnedDown_cases (v : LuaValue) :
    (∀ {α : Type}, v.turnedDown = (.raise : LuaExit (Option α))) ∨
      ∀ {α : Type}, v.turnedDown = (.ret none : LuaExit (Option α)) := by
  cases hraises : v.raises with
  | true => exact Or.inl fun {α} => by simp [turnedDown, hraises]
  | false => exact Or.inr fun {α} => by simp [turnedDown, hraises]

section Refusals

variable {buffers buffers' : Heap Bytes} {exit : LuaExit (Option Converted)}

/-- A boolean, a number or a string that is not converted. -/
theorem luaiLuaDataArgToBleDataType_refused {type : UInt32} {v : LuaValue}
    (htable : ∀ items, v ≠ .table items)
    (hnone : ∀ T, BleDataType.ofCode type = some T → convertedScalar T v = none)
    (h : luaiLuaDataArgToBleDataType v type buffers = .ok (exit, buffers')) :
    exit = v.turnedDown := by
  have hnumber : ∀ w : LuaValue, w.isNumber = true → (∀ T, BleDataType.ofCode type = some T →
      convertedScalar T w = none) → luaiLuaNumberToOpcUaDataType w type buffers =
      .ok (exit, buffers') → exit = .raise := by
    intro w hw hnone h
    cases hcode : BleDataType.ofCode type with
    | none =>
      simp only [luaiLuaNumberToOpcUaDataType, hcode] at h
      cases h
      rfl
    | some T =>
      have hrefused := hnone T hcode
      rw [convertedScalar_number T hw] at hrefused
      cases T with
      | bool | string =>
        simp only [luaiLuaNumberToOpcUaDataType, hcode] at h
        cases h
        rfl
      | _ => simp [BleDataType.isNumeric] at hrefused
  cases v with
  | boolean b =>
    simp only [luaiLuaDataArgToBleDataType, ite_eq_ok] at h
    rcases h with ⟨-, h⟩ | ⟨htype, -⟩
    · cases h
      rfl
    · -- a boolean is taken as one
      have hbool := hnone .bool (by rw [not_not.mp htype, BleDataType.ofCode_code])
      cases hbool
  | integer i => exact hnumber _ rfl hnone h
  | float bits => exact hnumber _ rfl hnone h
  | string s =>
    cases h
    rfl
  | table items => exact absurd rfl (htable items)
  | nil => cases h; rfl
  | other => cases h; rfl

/-- In a table the first item that is not taken decides. -/
theorem luaiGetArrayItems_refused {T : BleDataType} (hstring : T ≠ .string)
    {typeSize capacity : ℕ} (hsize : bleDataTypeSize[T.code.toNat]? = some typeSize)
    {buf : Ptr Bytes} {v : LuaValue} (items : List LuaValue) :
    ∀ {count : ℕ} {stored : Bytes} {buffers buffers' : Heap Bytes}
      {exit : LuaExit (Option (ℕ × Bytes))}, buffers.NeverFails →
      (items.takeWhile LuaValue.isSome).find? (fun v => !acceptsScalar T v) = some v →
      luaiGetArrayItems T.code typeSize capacity buf items count stored buffers =
        .ok (exit, buffers') → exit = v.turnedDown := by
  induction items with
  | nil =>
    intro count stored buffers buffers' exit _ hfind _
    cases hfind
  | cons item rest ih =>
    intro count stored buffers buffers' exit hf hfind hrun
    have hsome : item.isSome = true := by
      by_contra hnil
      rw [List.takeWhile_cons_of_neg hnil] at hfind
      cases hfind
    rw [List.takeWhile_cons_of_pos hsome] at hfind
    by_cases htable : ∃ items, item = .table items
    · -- a table inside a table raises an error
      obtain ⟨items, rfl⟩ := htable
      cases hrun
      obtain rfl : LuaValue.table items = v := Option.some.inj hfind
      rfl
    rw [luaiGetArrayItems_cons hsome (not_exists.mp htable)] at hrun
    obtain ⟨⟨exit₁, buffers₁⟩, hitem, hrun⟩ := bind_eq_ok.mp hrun
    have hok := luaiLuaDataArgToBleDataType_ok hitem
    cases haccepts : acceptsScalar T item with
    | false =>
      have hrefused : exit₁ = item.turnedDown := by
        refine luaiLuaDataArgToBleDataType_refused (not_exists.mp htable) (fun T' hT' => ?_) hitem
        rw [BleDataType.ofCode_code] at hT'
        obtain rfl := Option.some.inj hT'
        simp [convertedScalar, haccepts]
      rw [List.find?_cons_of_pos (by simp [haccepts])] at hfind
      obtain rfl := Option.some.inj hfind
      subst hrefused
      rcases item.turnedDown_cases with hdown | hdown
      · rw [hdown] at hrun ⊢
        cases hrun
        rfl
      · rw [hdown] at hrun ⊢
        cases hrun
        rfl
    | true =>
      have hconverted : convertedScalar T item = some (encodeScalar T item) := by
        simp [convertedScalar, haccepts, hstring]
      have hconverts :=
        (luaiLuaDataArgToBleDataType_yields hitem).converts hf hok hitem
      rw [hconverted] at hconverts
      obtain ⟨d, buffers₂, hrun', -, hnew, hlength⟩ := hconverts
      obtain ⟨rfl, rfl⟩ : exit₁ = .ret (some d) ∧ buffers₁ = buffers₂ := by
        simpa using hitem.symm.trans hrun'
      have hitemsize := length_encodeScalar haccepts hstring hsize
      simp only [hlength.trans hitemsize, ne_eq, not_true_eq_false, ↓reduceIte, ite_eq_ok] at hrun
      rw [List.find?_cons_of_neg (by simp [haccepts])] at hfind
      obtain ⟨-, hrun⟩ | ⟨-, hrun⟩ := hrun
      · refine ih ?_ hfind hrun
        unfold Heap.NeverFails
        rw [Heap.free_fails, hok.extend.fails]
        exact hf
      · cases hrun

theorem refusal_cases (type : UInt32) (v : LuaValue) :
    refusal type v = .raise ∨ refusal type v = .ret false := by
  unfold refusal
  split
  · split
    · exact Or.inr rfl
    · exact Or.inr rfl
    · exact Or.inl rfl
    · split_ifs
      · exact Or.inl rfl
      · exact Or.inr rfl
  · split_ifs
    · exact Or.inl rfl
    · exact Or.inr rfl

/-- A value that is not converted is turned down as `refusal` says. -/
theorem luaiConvert_refused {type : UInt32} {v : LuaValue} (hf : buffers.NeverFails)
    (hsafe : overruns type v = false) (hnone : convertedBytes type v = none)
    (h : luaiConvert v type buffers = .ok (exit, buffers')) :
    exit = match refusal type v with
      | .raise => .raise
      | .ret _ => .ret none := by
  have hscalar : (∀ items, v ≠ .table items) → exit = v.turnedDown := by
    intro htable
    have hrun : luaiLuaDataArgToBleDataType v type buffers = .ok (exit, buffers') := by
      cases v with
      | table items => exact absurd rfl (htable items)
      | _ => exact h
    refine luaiLuaDataArgToBleDataType_refused htable (fun T hT => ?_) hrun
    simp only [convertedBytes, hT] at hnone
    cases v with
    | table items => exact absurd rfl (htable items)
    | _ => exact hnone
  cases v with
  | table items =>
    cases items with
    | nil =>
      cases h
      rfl
    | cons item rest =>
      cases hcode : BleDataType.ofCode type with
      | none => simp [overruns, hcode] at hsafe
      | some T =>
        have htype := BleDataType.eq_code_of_ofCode hcode
        subst htype
        by_cases hstring : T = .string
        · subst hstring
          simp only [luaiConvert, luaiGetArray, List.length_cons, Nat.succ_ne_zero,
            ↓reduceIte] at h
          cases h
          simp [refusal, hcode]
        obtain ⟨typeSize, hsize⟩ : ∃ typeSize, bleDataTypeSize[T.code.toNat]? = some typeSize := by
          cases T <;> exact ⟨_, rfl⟩
        have hnew := Heap.tryAlloc_new hf []
        simp only [luaiConvert, luaiGetArray, List.length_cons, Nat.succ_ne_zero, ↓reduceIte,
          BleDataType.code_injective.ne hstring, hsize, hnew.ne_null] at h
        obtain ⟨⟨exit₁, buffers₁⟩, hloop, h⟩ := bind_eq_ok.mp h
        -- some item before the first nil is not taken
        have hall : ((item :: rest).takeWhile LuaValue.isSome).all (acceptsScalar T) = false := by
          simpa [convertedBytes, hcode, acceptsValue, hstring] using hnone
        obtain ⟨v, hfind⟩ : ∃ v, ((item :: rest).takeWhile LuaValue.isSome).find?
            (fun v => !acceptsScalar T v) = some v := by
          rw [← Option.isSome_iff_exists, List.find?_isSome]
          rw [List.all_eq_false] at hall
          simpa using hall
        have hrefused := luaiGetArrayItems_refused hstring hsize (item :: rest)
          ((Heap.Extends.tryAlloc buffers []).neverFails hf) hfind hloop
        have hrefusal : refusal T.code (.table (item :: rest)) =
            if v.raises then .raise else .ret false := by
          simp only [refusal, hcode]
          cases T with
          | string => exact absurd rfl hstring
          | _ => simp [hfind]
        rw [hrefusal]
        rw [hrefused] at h
        unfold LuaValue.turnedDown at h
        split_ifs at h ⊢
        · cases h
          rfl
        · cases h
          rfl
  | _ =>
    rw [hscalar (by simp), LuaValue.turnedDown]
    simp only [refusal]
    split_ifs <;> rfl

end Refusals

/-! ## Steps on values -/

namespace Represents

variable {σ σ' : State} {g : Server} (h : Represents σ g)

include h

/-- What exists shows its cell. -/
theorem exists_cell {c : ℕ} {x : Characteristic} (hx : σ.characteristic c = .ok x) :
    ∃ cell, g.cells[c]? = some cell := by
  have hlt := (List.getElem?_eq_some_iff.mp (State.characteristic_eq_ok.mp hx).2).1
  rw [h.length] at hlt
  exact ⟨_, List.getElem?_eq_getElem hlt⟩

theorem no_characteristic {c : ℕ} (hnone : g.cells[c]? = none) :
    σ.characteristic c = .error .noObject := by
  have hlt := List.getElem?_eq_none_iff.mp hnone
  rw [← h.length] at hlt
  simp [State.characteristic, State.access, State.fetch, List.getElem?_eq_none hlt,
    h.standing.notMem_finalised]

/-- A step that only touches values leaves all else alone. -/
theorem valued {op : Op} {r : Reply} (hexec : exec op σ = .ok (r, σ')) (hop : op.NoFini)
    (hadd : ∀ kind accepts p c, op ≠ .add kind accepts p c)
    (hregister : ∀ env d, op ≠ .registerDevice env d) (hframe : ValueFrame σ σ')
    (hfails : σ'.buffers.fails = σ.buffers.fails) {cells : List Cell}
    (hcells : ∀ (c : ℕ) (cell : Cell), cells[c]? = some cell → Shows σ' c cell)
    (hlength : cells.length = g.cells.length) : Represents σ' { g with cells } where
  standing := h.standing.step hop hexec hadd hregister
  attributes kind := by
    rw [hframe.nodes]
    exact h.attributes kind
  devices := (hframe.deviceFrame.map_eq _ fun _ => rfl).trans h.devices
  cells := hcells
  length := by
    have hshape := congrArg List.length hframe.shape
    rw [List.length_map, List.length_map] at hshape
    exact hshape.trans (h.length.trans hlength.symm)
  registered := hframe.registered.trans h.registered
  controllers := hframe.deviceFrame.controllerCount.trans h.controllers
  fails := by
    unfold Heap.NeverFails
    rw [hfails]
    exact h.fails
  memory := hframe.outOfMemory.trans h.memory

/-- A step with an effect on one value sets one cell. -/
theorem effect {op : Op} {r : Reply} (hexec : exec op σ = .ok (r, σ')) (hop : op.NoFini)
    (hadd : ∀ kind accepts p c, op ≠ .add kind accepts p c)
    (hregister : ∀ env d, op ≠ .registerDevice env d) {c : ℕ} {cell : Cell}
    {logged : List Message} (heffect : Effect σ σ' c cell logged) :
    Represents σ' (g.setCell c cell) := by
  refine h.valued hexec hop hadd hregister heffect.frame heffect.fails (fun e cell' he => ?_)
    List.length_set
  rw [List.getElem?_set] at he
  split_ifs at he with hce hlt
  · obtain rfl := Option.some.inj he
    subst hce
    exact heffect.shows
  · exact heffect.others e cell' (Ne.symm hce) (h.cells e cell' he)

omit h in
/-- Setting a cell to what it shows already. -/
theorem setCell_self {c : ℕ} {cell : Cell} (hc : g.cells[c]? = some cell) :
    g.setCell c cell = g := by
  obtain ⟨hlt, hget⟩ := List.getElem?_eq_some_iff.mp hc
  have hcells : g.cells.set c cell = g.cells := by
    rw [← hget]
    exact List.set_getElem_self hlt
  rw [Server.setCell, hcells]

theorem setNotifying (c : ℕ) (notifying : Bool) :
    Matches (.setNotifying c notifying) σ (Server.step (.setNotifying c notifying) g) := by
  simp only [Server.step, Server.notify]
  cases hc : g.cells[c]? with
  | none =>
    refine ⟨.noObject, ?_⟩
    rw [exec, characteristicSetNotifying, h.no_characteristic hc, error_bind, error_bind]
  | some cell =>
    have hshows := h.cells c cell hc
    obtain ⟨x, hx, -⟩ := hshows.notifying
    have hset : characteristicSetNotifying c notifying σ = .ok { σ with
        characteristics := σ.characteristics.modify c fun x => { x with notifying } } := by
      rw [characteristicSetNotifying, hx, ok_bind]
    have hexec : exec (.setNotifying c notifying) σ = .ok (.none, _) :=
      bind_eq_ok.mpr ⟨_, hset, rfl⟩
    have hnofini : Op.NoFini (.setNotifying c notifying) := trivial
    exact ⟨_, hexec, (List.append_nil _).symm,
      h.effect hexec hnofini (by simp) (by simp) (.setNotifying hshows notifying hset)⟩

/-! ### `setValue` -/

/-- A signal can be sent if the characteristic has a place and the bytes fit. -/
theorem sendable_iff {c : ℕ} {x : Characteristic} (hx : σ.characteristic c = .ok x)
    (bytes : Bytes) : Sendable σ.strings x bytes ↔
      (g.place .characteristic c).isSome = true ∧ bytes.length ≤ dbusMaximumArrayLength := by
  have hn := State.node_of_characteristic hx
  have hget := (State.node_eq_ok.mp hn).2
  obtain ⟨⟨uuid, place⟩, ha, htexts⟩ := h.exists_attribute hget
  have hpath : (∃ path, σ.strings.PointsTo x.node.objectPath path ∧ isObjectPath path = true) ↔
      place.isSome = true := by
    constructor
    · rintro ⟨path, hpoints, -⟩
      refine (h.place_isSome_iff hget htexts).mpr fun hnull => ?_
      obtain ⟨id, -, hblock⟩ := hpoints
      rw [h.standing.paths.unlisted _ c _ hget hnull] at hblock
      cases hblock
    · intro hplace
      obtain ⟨place, rfl⟩ := Option.isSome_iff_exists.mp hplace
      obtain ⟨hpublished, htaken, -, hread⟩ := h.read_place hn htexts rfl
      obtain ⟨path, hpoints⟩ := hpublished.objectPath
      rw [hpoints.read] at hread
      exact ⟨path, hpoints, hread ▸ htaken.path⟩
  rw [Sendable, hpath, Server.place, ha, Option.bind_some]

/-- The path a signal is sent from. -/
theorem read_characteristicPath {c : ℕ} {x : Characteristic} (hx : σ.characteristic c = .ok x)
    {place : Place} (hplace : g.place .characteristic c = some place) :
    σ.strings.read x.node.objectPath = place.path := by
  obtain ⟨hfin, hget⟩ := State.characteristic_eq_ok.mp hx
  have hnode : (σ.nodes .characteristic)[c]? = some x.node := by
    rw [State.nodes, List.getElem?_map, hget]
    rfl
  obtain ⟨a, ha, htexts⟩ := h.exists_attribute hnode
  rw [Server.place, ha, Option.bind_some] at hplace
  have hok : σ.node .characteristic c = .ok x.node := State.node_eq_ok.mpr ⟨hfin, hnode⟩
  exact (h.read_place hok htexts hplace).2.2.2

/-- A value the data type takes is stored. -/
theorem store {c : ℕ} {v t : LuaValue} {type : UInt32}
    (ht : luaiCheckTypeBleDataType t = .ret type) (hsafe : overruns type v = false) {bytes : Bytes}
    (hbytes : convertedBytes type v = some bytes) :
    Matches (.setValue c v t) σ (g.store c (narrowed bytes)) := by
  have hnofini : Op.NoFini (.setValue c v t) := trivial
  unfold Server.store
  cases hc : g.cells[c]? with
  | none =>
    -- the conversion is made before the characteristic is looked at
    have hconverts := luaiConvert_converts h.fails hsafe
    rw [hbytes] at hconverts
    obtain ⟨d, buffers, hrun, -⟩ := hconverts
    have hnone : ({ σ with buffers } : State).characteristic c = .error .noObject :=
      h.no_characteristic hc
    refine ⟨.noObject, ?_⟩
    simp only [exec, luaiCharacteristicSetValue, ht, hrun, ok_bind, characteristicUpdateValue,
      hnone, error_bind]
  | some cell =>
    have hshows := h.cells c cell hc
    obtain ⟨x, hx, -⟩ := hshows.notifying
    -- what becomes of it if the subscribers can be told
    have hstored : (cell.notifying = true → narrowed bytes ≠ cell.bytes →
        Sendable σ.strings x (narrowed bytes)) →
        ∃ σ', exec (.setValue c v t) σ = .ok (.lua (.ret true), σ') ∧
        σ'.bus.sent = σ.bus.sent ++
          cell.signals (σ.strings.read x.node.objectPath) (narrowed bytes) ∧
        Represents σ' (g.setCell c { cell with bytes := narrowed bytes }) := by
      intro hsend
      obtain ⟨σ', hrun, heffect⟩ := luaiCharacteristicSetValue_stored h.fails ht hsafe hshows
        h.standing.values h.memory hx hbytes hsend
      have hexec : exec (.setValue c v t) σ = .ok (.lua (.ret true), σ') :=
        bind_eq_ok.mpr ⟨_, hrun, rfl⟩
      exact ⟨σ', hexec, heffect.sent, h.effect hexec hnofini (by simp) (by simp) heffect⟩
    simp only [Option.bind_eq_bind, Option.bind_some]
    by_cases hsame : narrowed bytes = cell.bytes
    · obtain ⟨σ', hexec, hsent, hrepresents⟩ := hstored fun _ hne => absurd hsame hne
      rw [if_pos hsame]
      have hself : { cell with bytes := narrowed bytes } = cell := by rw [hsame]
      rw [hself, setCell_self hc] at hrepresents
      refine ⟨σ', hexec, ?_, hrepresents⟩
      simpa [Cell.signals, hsame] using hsent
    rw [if_neg hsame]
    by_cases hnotifying : cell.notifying = true
    swap
    · obtain ⟨σ', hexec, hsent, hrepresents⟩ := hstored fun hn => absurd hn hnotifying
      rw [if_neg hnotifying]
      refine ⟨σ', hexec, ?_, hrepresents⟩
      simpa [Cell.signals, hnotifying] using hsent
    · rw [if_pos hnotifying]
      have hsendable := h.sendable_iff hx (narrowed bytes)
      have hfails : ¬ Sendable σ.strings x (narrowed bytes) →
          ∃ e, exec (.setValue c v t) σ = .error e := by
        intro hsend
        obtain ⟨e, he⟩ := luaiCharacteristicSetValue_fails h.fails ht hsafe hshows
          h.standing.values h.memory hx hbytes hnotifying hsame hsend
        exact ⟨e, by rw [exec, he, error_bind]⟩
      cases hplace : g.place .characteristic c with
      | none =>
        refine hfails fun hsend => ?_
        have hsome := (hsendable.mp hsend).1
        rw [hplace] at hsome
        cases hsome
      | some place =>
        simp only [Option.bind_some]
        by_cases hlength : (narrowed bytes).length ≤ dbusMaximumArrayLength
        · rw [if_pos hlength]
          obtain ⟨σ', hexec, hsent, hrepresents⟩ := hstored fun _ _ =>
            hsendable.mpr ⟨by rw [hplace]; rfl, hlength⟩
          refine ⟨σ', hexec, ?_, hrepresents⟩
          rw [hsent, Cell.signals, if_pos ⟨hnotifying, hsame⟩, h.read_characteristicPath hx hplace]
        · rw [if_neg hlength]
          exact hfails fun hsend => hlength (hsendable.mp hsend).2

theorem setValue (c : ℕ) (v t : LuaValue) :
    Matches (.setValue c v t) σ (Server.step (.setValue c v t) g) := by
  have hnofini : Op.NoFini (.setValue c v t) := trivial
  simp only [Server.step, Server.setValue]
  cases ht : luaiCheckTypeBleDataType t with
  | raise =>
    exact ⟨σ, bind_eq_ok.mpr ⟨_, luaiCharacteristicSetValue_raise ht, rfl⟩,
      (List.append_nil _).symm, h⟩
  | ret type =>
    dsimp only
    cases hover : overruns type v with
    | true =>
      rw [if_pos rfl]
      refine ⟨.outOfBlock, ?_⟩
      rw [exec, luaiCharacteristicSetValue_overruns h.fails ht hover, error_bind]
    | false =>
      rw [if_neg Bool.false_ne_true]
      cases hbytes : convertedBytes type v with
      | some bytes => exact h.store ht hover hbytes
      | none =>
        have hconverts := luaiConvert_converts h.fails hover
        rw [hbytes] at hconverts
        obtain ⟨exit, buffers, hrun, hext, -⟩ := hconverts
        have hexit := luaiConvert_refused h.fails hover hbytes hrun
        have hset : luaiCharacteristicSetValue c v t σ =
            .ok (refusal type v, { σ with buffers }) := by
          simp only [luaiCharacteristicSetValue, ht, hrun, ok_bind, hexit]
          rcases refusal_cases type v with hraise | hfalse
          · simp only [hraise]
          · simp only [hfalse]
        have hexec : exec (.setValue c v t) σ = .ok (.lua (refusal type v), { σ with buffers }) :=
          bind_eq_ok.mpr ⟨_, hset, rfl⟩
        -- the blocks of the conversion stay, and no value was in them
        refine ⟨_, hexec, (List.append_nil _).symm, h.valued hexec hnofini (by simp) (by simp)
          (.extend hext) hext.fails (fun e cell he => ?_) rfl⟩
        exact (Effect.buffers (h.cells e cell he) (.extend hext) hext.fails
          fun _ id _ _ hid => hext.live id hid).shows

end Represents

end BleSim
