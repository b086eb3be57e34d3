import BleSim.Calls
import BleSim.Requests

/-!
# What `setValue` lets through

The three checks of a value on its way into a buffer: the data type is narrowed to 8 bits
before it is compared with the last enumerator, every copy is made into a block of a size
worked out elsewhere, and the items of a table are converted one by one.
-/

namespace BleSim

open Outcomes WriteOnce DBusValue

/-! ## Data types -/

/-- The value of a number when that is an integer. -/
def LuaValue.integral? : LuaValue → Option ℤ
  | .integer i => some i.toInt
  | .float bits => Binary64.toInt? bits
  | _ => none

/-- A number is the enumerator of a data type. -/
def LuaValue.IsEnumerator (t : LuaValue) (type : BleDataType) : Prop :=
  t.integral? = some (type.code.toNat : ℤ)

/-- The part of a number that `luai_check_type_ble_data_type` compares. -/
def LuaValue.lowByte (t : LuaValue) : UInt8 := (luaToInteger t).toUInt64.toUInt8

/-- A number gets through as a data type only if it is one: otherwise the call raises an error
and changes nothing, whatever the value; and a type that gets through has a place in the table
of sizes and is the one the script gave. -/
structure OnlyRealCodes (t : LuaValue) : Prop where
  refused : (∀ type, ¬ t.IsEnumerator type) →
    ∀ c v σ, luaiCharacteristicSetValue c v t σ = .ok (.raise, σ)
  seen : ∀ type, luaiCheckTypeBleDataType t = .ret type →
    type.toNat < bleDataTypeSize.length ∧ ∃ T, t.IsEnumerator T ∧ type = T.code

/-- A number that fits is converted to itself. -/
theorem luaToInteger_eq {t : LuaValue} {z : ℤ} (h : t.integral? = some z) (hlow : -2 ^ 63 ≤ z)
    (hhigh : z < 2 ^ 63) : luaToInteger t = Int64.ofInt z := by
  cases t with
  | integer i =>
    simp only [LuaValue.integral?, Option.some.injEq] at h
    rw [← h, Int64.ofInt_toInt]
    rfl
  | float bits =>
    simp only [LuaValue.integral?] at h
    simp only [luaToInteger, h]
    rw [if_pos ⟨hlow, hhigh⟩]
  | _ => cases h

/-- An enumerator passes the check as itself. -/
theorem luaiCheckTypeBleDataType_enumerator {t : LuaValue} {T : BleDataType}
    (h : t.IsEnumerator T) : luaiCheckTypeBleDataType t = .ret T.code := by
  have hcode : T.code.toNat < 12 := by cases T <;> decide
  have hinteger : luaToInteger t = Int64.ofInt (T.code.toNat : ℤ) := by
    apply luaToInteger_eq h
    · omega
    · omega
  have hcheck : (Int64.ofInt (T.code.toNat : ℤ)).toUInt64.toUInt8.toUInt32
        ≤ BleDataType.string.code ∧
      (Int64.ofInt (T.code.toNat : ℤ)).toUInt64.toUInt32 = T.code := by
    cases T <;> decide
  unfold luaiCheckTypeBleDataType
  cases t with
  | integer i =>
    dsimp only
    rw [hinteger, if_pos hcheck.1, hcheck.2]
  | float bits =>
    dsimp only
    rw [hinteger, if_pos hcheck.1, hcheck.2]
  | _ => cases h

/-- A number passes the check exactly when its low byte does. -/
theorem luaiCheckTypeBleDataType_number {t : LuaValue} (ht : t.isNumber = true) :
    luaiCheckTypeBleDataType t =
      if t.lowByte.toNat ≤ BleDataType.string.code.toNat
      then .ret (luaToInteger t).toUInt64.toUInt32 else .raise := by
  have hle : t.lowByte.toUInt32 ≤ BleDataType.string.code ↔
      t.lowByte.toNat ≤ BleDataType.string.code.toNat := by
    rw [UInt32.le_iff_toNat_le, UInt8.toNat_toUInt32]
  cases t with
  | integer i => exact if_congr hle rfl rfl
  | float bits => exact if_congr hle rfl rfl
  | _ => cases ht

/-- Nothing is converted from nil, so that `setValue` returns false for it. -/
theorem luaiCharacteristicSetValue_nil {t : LuaValue} {type : UInt32}
    (ht : luaiCheckTypeBleDataType t = .ret type) (c : ℕ) (σ : State) :
    luaiCharacteristicSetValue c .nil t σ = .ok (.ret false, σ) := by
  unfold luaiCharacteristicSetValue
  rw [ht]
  rfl

/-- A number is let through only as the data type it is exactly when it is an enumerator, or its
low byte is none. -/
theorem onlyRealCodes_iff {t : LuaValue} (ht : t.isNumber = true) :
    OnlyRealCodes t ↔
      (∃ T, t.IsEnumerator T) ∨ BleDataType.string.code.toNat < t.lowByte.toNat := by
  constructor
  · intro h
    by_contra hnot
    obtain ⟨hnone, hlow⟩ := not_or.mp hnot
    have hcheck := luaiCheckTypeBleDataType_number ht
    rw [if_pos (Nat.not_lt.mp hlow)] at hcheck
    -- a number that is no data type gets through with nil for a value
    have hraise := h.refused (not_exists.mp hnone) 0 .nil State.empty
    rw [luaiCharacteristicSetValue_nil hcheck] at hraise
    cases hraise
  · intro h
    rcases h with ⟨T, hT⟩ | hlow
    · refine ⟨fun hnone => absurd hT (hnone T), ?_⟩
      intro type htype
      rw [luaiCheckTypeBleDataType_enumerator hT] at htype
      cases htype
      refine ⟨?_, T, hT, rfl⟩
      cases T <;> decide
    · have hcheck := luaiCheckTypeBleDataType_number ht
      rw [if_neg (Nat.not_le.mpr hlow)] at hcheck
      refine ⟨fun _ c v σ => luaiCharacteristicSetValue_raise hcheck, ?_⟩
      intro type htype
      rw [hcheck] at htype
      cases htype

/-- The theorem for `UINT8`, and for 300, which is turned away. -/
theorem onlyRealCodes_iff_uint8 :
    OnlyRealCodes (.integer 2) ∧ OnlyRealCodes (.integer 300) :=
  ⟨(onlyRealCodes_iff (t := .integer 2) rfl).mpr (Or.inl ⟨.uint8, by
      show some ((2 : Int64).toInt) = some ((BleDataType.uint8.code.toNat : ℤ))
      decide⟩),
    (onlyRealCodes_iff (t := .integer 300) rfl).mpr (Or.inr (by decide))⟩

/-- 256 is no data type, but passes for one: the table of sizes is read far beyond its end. -/
theorem not_onlyRealCodes_256 : ¬ ∀ t : LuaValue, t.isNumber = true → OnlyRealCodes t := by
  intro h
  have hnone : ∀ type, ¬ (LuaValue.integer 256).IsEnumerator type := by
    intro type henum
    have hvalue : some ((256 : Int64).toInt) = some (type.code.toNat : ℤ) := henum
    revert hvalue
    cases type <;> decide
  have hraise := (h (.integer 256) rfl).refused hnone 0 (.table [.integer 1]) State.empty
  have hread : luaiConvert (.table [.integer 1]) 256 State.empty.buffers = .error .outOfBlock := rfl
  have hcheck : luaiCheckTypeBleDataType (.integer 256) = .ret 256 := by decide
  simp only [luaiCharacteristicSetValue, hcheck, hread] at hraise
  cases hraise

/-! ## Copies -/

/-! ### What is handed out -/

/-- What `setValue` goes on with is what the value stands for, whichever requests for memory
fail. -/
theorem luaiConvert_some {v : LuaValue} {type : UInt32} {d : Converted}
    {buffers buffers' : Heap Bytes}
    (h : luaiConvert v type buffers = .ok (.ret (some d), buffers')) :
    convertedBytes type v = some (buffers'.read d.data) := by
  obtain ⟨-, -, bytes, hconverted, hnew, -⟩ := luaiConvert_yields h
  rw [hconverted, hnew.read]

/-! ### Inside the blocks -/

/-- Code that writes into a message and never copies from outside a block. -/
def Inside (get : Iter → Writer → Outcome Writer) : Prop :=
  ∀ iter w, get iter w ≠ .error .outOfBlock

theorem appendBasic_inside (v : DBusValue) : Inside fun iter w => w.appendBasic iter v := by
  intro iter w
  beta_reduce
  unfold Writer.appendBasic Writer.append
  split
  · split <;> simp
  · simp

theorem openContainer_ne_outOfBlock (w : Writer) (iter : Iter) (c : Container) :
    w.openContainer iter c ≠ .error .outOfBlock := by
  unfold Writer.openContainer
  split_ifs <;> simp

theorem closeContainer_ne_outOfBlock (w : Writer) (iter sub : Iter) :
    w.closeContainer iter sub ≠ .error .outOfBlock := by
  unfold Writer.closeContainer
  split
  · split_ifs
    · split <;> simp
    · simp
  · simp

namespace Inside

variable {get get' : Iter → Writer → Outcome Writer}

theorem seq (h : Inside get) (h' : Inside get') :
    Inside fun iter w => get iter w >>= get' iter :=
  fun iter w => bind_ne_error (h iter w) fun w' _ => h' iter w'

theorem container (h : Inside get) (c : Container) : Inside (inContainer c get) := fun iter w =>
  bind_ne_error (openContainer_ne_outOfBlock w iter c) fun _ _ =>
    bind_ne_error (h _ _) fun _ _ => closeContainer_ne_outOfBlock _ _ _

/-- A row of a table. -/
theorem property {p : Property} (h : Inside p.get) : Inside (appendProperty p) := by
  rw [appendProperty_eq]
  exact ((appendBasic_inside _).seq (h.container _)).container _

/-- A table of one row. -/
theorem table {p : Property} (h : Inside p.get) : Inside (dbusutilsGetObjectPropertyData [p]) := by
  have hrow : Inside fun iter w => [p].foldlM (fun w q => appendProperty q iter w) w := by
    intro iter w
    beta_reduce
    rw [List.foldlM_cons]
    exact bind_ne_error (h.property iter w) fun _ _ => by simp
  exact hrow.container _

/-- A signal about one property. -/
theorem signal {p : Property} (h : Inside p.get) (strings : Heap CStr) (path : Ptr CStr)
    (iface : CStr) (bus : Connection) :
    dbusutilsSendObjectPropertiesChangedSignal strings path iface [p] bus
      ≠ .error .outOfBlock := by
  have hpath : libraryPath strings path ≠ .error .outOfBlock := by
    refine bind_ne_error ?_ fun text _ => by split <;> simp
    unfold libraryString
    split
    · simp
    · simp
    · split <;> simp
  refine bind_ne_error hpath fun text _ => ?_
  split_ifs
  · simp
  · refine bind_ne_error (appendBasic_inside _ _ _) fun w _ => ?_
    refine bind_ne_error (h.table _ _) fun w _ => ?_
    refine bind_ne_error (openContainer_ne_outOfBlock _ _ _) fun _ _ => ?_
    exact bind_ne_error (closeContainer_ne_outOfBlock _ _ _) fun _ _ => by simp

end Inside

/-- What a characteristic holds can be read in full. -/
theorem characteristicGetValue_inside {σ : State} {c : ℕ} {bytes : Bytes} (h : Holds σ c bytes)
    {x : Characteristic} (hx : σ.characteristic c = .ok x) :
    Inside (characteristicGetValue σ x) := by
  obtain ⟨hsize, htake⟩ := ValuesInv.read_take hx h
  have hdata : x.valueSize.toNat ≤ (σ.buffers.read x.value).length := by
    have hlength := congrArg List.length htake
    rw [List.length_take] at hlength
    omega
  have happend : Inside fun array w =>
      w.appendFixedArray array (σ.buffers.read x.value) x.valueSize.toInt32.toInt := by
    intro array w
    beta_reduce
    unfold Writer.appendFixedArray
    -- a size that is negative as an `int` is refused before anything is read
    split
    · rename_i hbounds
      have hlt : x.valueSize.toNat < 2 ^ 31 := by
        by_contra hge
        have := toInt_toInt32_neg (Nat.not_lt.mp hge)
        omega
      rw [toInt_toInt32_of_lt hlt, Int.toNat_natCast, if_pos hdata]
      simp
    · simp
  exact happend.container _

/-- A signal about a value is sent, or the library does not take it: nothing is read beyond the
value. -/
theorem characteristicUpdateValue_inside {σ : State} (hinv : ValuesInv σ) {c : ℕ}
    {x : Characteristic} (hx : σ.characteristic c = .ok x) {newValue : Bytes} {dataSize : ℕ}
    (hfits : dataSize ≤ newValue.length) :
    characteristicUpdateValue c newValue dataSize σ ≠ .error .outOfBlock := by
  have hsize : (UInt32.ofNat dataSize).toNat ≤ newValue.length := toNat_ofNat_le hfits
  obtain ⟨σ₁, hset, -⟩ := characteristicSetValue_isOk hx hsize
  have hframe := characteristicSetValue_frame hset
  obtain ⟨x₁, hx₁, -⟩ := hframe.characteristic hx
  obtain ⟨bytes, hholds⟩ := (hframe.values hinv).holds hx₁
  -- whatever became of the allocation, the value that is there now can be read in full
  have hsignal : dbusutilsSendObjectPropertiesChangedSignal σ₁.strings x₁.node.objectPath
      bluezGattCharacteristicInterface
      [⟨blePropertyValue, ['a', 'y'], characteristicGetValue σ₁ x₁⟩] σ₁.bus
        ≠ .error .outOfBlock :=
    Inside.signal (characteristicGetValue_inside hholds hx₁) _ _ _ _
  unfold characteristicUpdateValue
  simp only [hx, hset, hx₁, ok_bind]
  split_ifs
  · simp
  · exact bind_ne_error hsignal fun bus _ => by simp
  · simp

/-- Storing a value of a data type copies only inside blocks: the conversion stays inside, on every
heap and whichever requests fail; the block it hands out has at least as many bytes as it reports;
and so does the whole call, in every state a run can reach. -/
structure CopiesInside (type : BleDataType) (v : LuaValue) : Prop where
  conversion : ∀ buffers, luaiConvert v type.code buffers ≠ .error .outOfBlock
  reported : ∀ buffers d buffers', luaiConvert v type.code buffers = .ok (.ret (some d), buffers') →
    d.dataSize ≤ (buffers'.read d.data).length
  call : ∀ σ c x t, Reachable σ → σ.characteristic c = .ok x →
    luaiCheckTypeBleDataType t = .ret type.code →
    luaiCharacteristicSetValue c v t σ ≠ .error .outOfBlock

/-- All copies are made inside blocks exactly when no number is converted to `INT32`. -/
theorem copiesInside_iff (type : BleDataType) (v : LuaValue) :
    CopiesInside type v ↔ convertsInt32 type v = false := by
  constructor
  · intro h
    rw [← Bool.not_eq_true]
    intro hover
    apply h.conversion State.empty.buffers
    exact luaiConvert_overruns (fun _ => rfl) ((overruns_code type v).trans hover)
  · intro hsafe
    refine ⟨?_, ?_, ?_⟩
    · intro buffers herror
      obtain ⟨r, hrun⟩ := luaiConvert_isOk ((overruns_code type v).trans hsafe) buffers
      cases hrun.symm.trans herror
    · -- the size that is passed on is the one of the block
      intro buffers d buffers' hrun
      obtain ⟨bytes, hnew, hlength⟩ := (luaiConvert_ok hrun).data d rfl
      rw [hnew.read, hlength]
    · intro σ c x t hreach hx ht
      have hinv := ValuesInv.of_reachable hreach
      obtain ⟨⟨exit, buffers⟩, hrun⟩ :=
        luaiConvert_isOk ((overruns_code type v).trans hsafe) σ.buffers
      have hok := luaiConvert_ok hrun
      unfold luaiCharacteristicSetValue
      simp only [ht, hrun, ok_bind]
      cases exit with
      | raise => simp
      | ret d =>
        cases d with
        | none => simp
        | some d =>
          obtain ⟨bytes, hnew, hlength⟩ := hok.data d rfl
          have hupdate := characteristicUpdateValue_inside (hinv.extend hok.extend)
            (show ({ σ with buffers } : State).characteristic c = .ok x from hx)
            (Nat.le_of_eq (hlength.trans (congrArg List.length hnew.read).symm))
          exact bind_ne_error hupdate fun σ₁ _ => by simp

/-- A number for `INT32` is copied beyond the single byte allocated for it. -/
theorem not_copiesInside_int32 : ¬ ∀ (type : BleDataType) (v : LuaValue), CopiesInside type v := by
  intro h
  apply (h .int32 (.integer 7)).conversion State.empty.buffers
  rfl

/-! ## Tables -/

/-- The items of a table before the first nil. -/
def itemsBeforeNil (items : List LuaValue) : List LuaValue := items.takeWhile LuaValue.isSome

/-- Taken alone, a value is converted to these bytes, as long as memory does not run out. -/
def ConvertsAlone (type : BleDataType) (v : LuaValue) (bytes : Bytes) : Prop :=
  ∀ buffers : Heap Bytes, buffers.NeverFails →
    Converts buffers (luaiLuaDataArgToBleDataType v type.code buffers) (some bytes)

/-- Taken alone, a value is accepted. -/
def AcceptedAlone (type : BleDataType) (v : LuaValue) : Prop := ∃ bytes, ConvertsAlone type v bytes

/-- A converter comes to one thing. -/
theorem Converts.unique {buffers : Heap Bytes} {run : Conversion} {r r' : Option Bytes}
    (h : Converts buffers run r) (h' : Converts buffers run r') : r = r' := by
  cases r with
  | none =>
    obtain ⟨exit, buffers₁, hrun, -, hexit⟩ := h
    cases r' with
    | none => rfl
    | some bytes' =>
      obtain ⟨d, buffers₂, hrun', -⟩ := h'
      cases hrun.symm.trans hrun'
      simp at hexit
  | some bytes =>
    obtain ⟨d, buffers₁, hrun, -, hnew, -⟩ := h
    cases r' with
    | none =>
      obtain ⟨exit, buffers₂, hrun', -, hexit⟩ := h'
      cases hrun.symm.trans hrun'
      simp at hexit
    | some bytes' =>
      obtain ⟨d', buffers₂, hrun', -, hnew', -⟩ := h'
      cases hrun.symm.trans hrun'
      rw [← hnew.read, hnew'.read]

/-- What a value that is no number for `INT32` is converted to. -/
theorem convertsAlone_iff {type : BleDataType} {v : LuaValue} {bytes : Bytes}
    (hint32 : type = .int32 → v.isNumber = false) :
    ConvertsAlone type v bytes ↔ convertedScalar type v = some bytes := by
  constructor
  · intro h
    have hf : State.empty.buffers.NeverFails := fun _ => rfl
    exact (luaiLuaDataArgToBleDataType_converts hf hint32).unique (h _ hf)
  · intro h buffers hf
    rw [← h]
    exact luaiLuaDataArgToBleDataType_converts hf hint32

/-- Apart from numbers for `INT32`, what is accepted alone is what the data type takes. -/
theorem acceptedAlone_iff {type : BleDataType} (hstring : type ≠ .string) {v : LuaValue}
    (hint32 : type = .int32 → v.isNumber = false) :
    AcceptedAlone type v ↔ acceptsScalar type v = true := by
  unfold AcceptedAlone
  simp only [convertsAlone_iff hint32, convertedScalar]
  by_cases h : acceptsScalar type v = true
  · simp [h, hstring]
  · simp [h]

section Safe

variable {type : BleDataType} {items : List LuaValue}
  (hsafe : convertsInt32 type (.table items) = false)
include hsafe

/-- The first item of a table that is converted safely to `INT32` is no number. -/
theorem itemsBeforeNil_int32 (htype : type = .int32) :
    itemsBeforeNil items = [] ∨ ∃ v rest, itemsBeforeNil items = v :: rest ∧
      v.isNumber = false ∧ acceptsScalar type v = false := by
  subst htype
  unfold itemsBeforeNil
  cases items with
  | nil => exact Or.inl rfl
  | cons v rest =>
    have hfirst : v.isNumber = false := by
      simpa [convertsInt32, LuaValue.isNumber, LuaValue.firstIsNumber] using hsafe
    by_cases hv : v.isSome = true
    · refine Or.inr ⟨v, _, List.takeWhile_cons_of_pos hv, hfirst, ?_⟩
      cases v <;> first | rfl | cases hfirst
    · exact Or.inl (List.takeWhile_cons_of_neg hv)

/-- Taken one by one, the items are accepted exactly when the data type takes them all. -/
theorem forall_acceptedAlone_iff (hstring : type ≠ .string) :
    (∀ v ∈ itemsBeforeNil items, AcceptedAlone type v) ↔
      (itemsBeforeNil items).all (acceptsScalar type) = true := by
  by_cases htype : type = .int32
  · rcases itemsBeforeNil_int32 hsafe htype with hnil | ⟨v, rest, hcons, hnumber, hnot⟩
    · simp [hnil]
    · have haccepted := acceptedAlone_iff hstring (v := v) fun _ => hnumber
      rw [hnot] at haccepted
      simp only [hcons, List.forall_mem_cons, haccepted, List.all_cons, hnot]
      simp
  · rw [List.all_eq_true]
    refine forall₂_congr fun v _ => ?_
    exact acceptedAlone_iff hstring fun h => absurd h htype

/-- The items of a table that is taken are converted one by one. -/
theorem forall₂_convertsAlone (hstring : type ≠ .string)
    (hall : (itemsBeforeNil items).all (acceptsScalar type) = true) :
    List.Forall₂ (ConvertsAlone type) (itemsBeforeNil items)
      ((itemsBeforeNil items).map (encodeScalar type)) := by
  have hitem : ∀ v ∈ itemsBeforeNil items, ConvertsAlone type v (encodeScalar type v) := by
    intro v hv
    have haccepts := List.all_eq_true.mp hall v hv
    apply (convertsAlone_iff fun htype => ?_).mpr
    · simp [convertedScalar, haccepts, hstring]
    · rcases itemsBeforeNil_int32 hsafe htype with hnil | ⟨w, rest, hcons, -, hnot⟩
      · rw [hnil] at hv
        cases hv
      · rw [hcons, List.all_cons, hnot] at hall
        cases hall
  rw [List.forall₂_map_right_iff]
  exact List.forall₂_same.mpr hitem

end Safe

/-- `setValue` encodes a table as its scalar converter encodes the items, all or nothing. -/
def TableMeets (σ : State) (c : ℕ) (items : List LuaValue) (t : LuaValue) (type : BleDataType) :
    Prop :=
  ∃ exit σ', luaiCharacteristicSetValue c (.table items) t σ = .ok (exit, σ') ∧
    ((∀ v ∈ itemsBeforeNil items, AcceptedAlone type v) → exit = .ret true ∧
      ∃ encodings, List.Forall₂ (ConvertsAlone type) (itemsBeforeNil items) encodings ∧
        Holds σ' c encodings.flatten ∧
        ∃ typeSize, bleDataTypeSize[type.code.toNat]? = some typeSize ∧
          encodings.flatten.length = (itemsBeforeNil items).length * typeSize) ∧
    ((∃ v ∈ itemsBeforeNil items, ¬ AcceptedAlone type v) →
      (exit = .ret false ∨ exit = .raise) ∧ σ'.characteristics = σ.characteristics ∧
      (∀ bytes, Holds σ c bytes → Holds σ' c bytes) ∧
      σ'.bus.sent = σ.bus.sent)

section Table

variable {σ : State} {c : ℕ} {x : Characteristic} {items : List LuaValue} {t : LuaValue}
  {type : BleDataType} (hinv : ValuesInv σ) (hf : σ.buffers.NeverFails)
  (hmemory : σ.bus.outOfMemory = false) (hx : σ.characteristic c = .ok x)
  (hitems : 0 < items.length) (ht : luaiCheckTypeBleDataType t = .ret type.code)
  (hstring : type ≠ .string)
  (hsmall : ∀ typeSize, bleDataTypeSize[type.code.toNat]? = some typeSize →
    (itemsBeforeNil items).length * typeSize < 2 ^ 31)
  (hsafe : convertsInt32 type (.table items) = false)

include hitems hstring in
/-- A table that is not empty is taken when its items before the first nil are. -/
theorem acceptsValue_table : acceptsValue type (.table items) =
    (itemsBeforeNil items).all (acceptsScalar type) := by
  have hempty : items.isEmpty = false := by
    cases items with
    | nil => cases hitems
    | cons v rest => rfl
  simp [acceptsValue, hempty, hstring, itemsBeforeNil]

include hstring hsmall in
/-- The encoding of a table has the size of its items, which is not narrowed. -/
theorem encodeValue_table (hall : (itemsBeforeNil items).all (acceptsScalar type) = true) :
    ∃ typeSize, bleDataTypeSize[type.code.toNat]? = some typeSize ∧
      (encodeValue type (.table items)).length = (itemsBeforeNil items).length * typeSize ∧
      narrowed (encodeValue type (.table items)) = encodeValue type (.table items) := by
  obtain ⟨typeSize, hsize⟩ : ∃ typeSize, bleDataTypeSize[type.code.toNat]? = some typeSize := by
    cases type <;> exact ⟨_, rfl⟩
  have hlength : (encodeValue type (.table items)).length
      = (itemsBeforeNil items).length * typeSize :=
    length_flatMap_encodeScalar hstring hsize hall
  refine ⟨typeSize, hsize, hlength, ?_⟩
  apply narrowed_of_lt
  have := hsmall typeSize hsize
  omega

include hinv hf hx hitems ht hstring hsafe in
/-- A table with an item that is not taken is refused, and nothing changes. -/
theorem tableMeets_refused (hall : (itemsBeforeNil items).all (acceptsScalar type) = false) :
    TableMeets σ c items t type := by
  obtain ⟨old, hold⟩ := hinv.holds hx
  have hshows := hold.shows hx
  have haccepted := forall_acceptedAlone_iff hsafe hstring
  rw [hall] at haccepted
  have hnone : convertedBytes type.code (.table items) = none := by
    rw [convertedBytes_code, acceptsValue_table hitems hstring, hall]
    simp
  obtain ⟨exit, σ', hrun, hexit, hsame, heffect⟩ := luaiCharacteristicSetValue_refused hf ht
    ((overruns_code type _).trans hsafe) hshows hnone
  refine ⟨exit, σ', hrun, ?_, ?_⟩
  · intro h
    cases haccepted.mp h
  · intro _
    refine ⟨hexit.symm, hsame, fun bytes hbytes => ?_, ?_⟩
    · rw [hbytes.unique hold]
      exact heffect.shows.holds
    · rw [heffect.sent, List.append_nil]

include hinv hf hmemory hx hitems ht hstring hsmall hsafe in
/-- A table that is taken is stored in full if its encoding can be told. -/
theorem tableMeets_stored (hall : (itemsBeforeNil items).all (acceptsScalar type) = true)
    (hsend : x.notifying = true → ¬ Holds σ c (encodeValue type (.table items)) →
      Sendable σ.strings x (encodeValue type (.table items))) :
    TableMeets σ c items t type := by
  obtain ⟨old, hold⟩ := hinv.holds hx
  have hshows := hold.shows hx
  have haccepted := forall_acceptedAlone_iff hsafe hstring
  rw [hall] at haccepted
  obtain ⟨typeSize, hsize, hlength, hnarrowed⟩ := encodeValue_table hstring hsmall hall
  have hsome := convertedBytes_of_accepted (fun h => hstring h.1)
    ((acceptsValue_table hitems hstring).trans hall)
  obtain ⟨σ', hrun, heffect⟩ := luaiCharacteristicSetValue_stored hf ht
    ((overruns_code type _).trans hsafe) hshows hinv hmemory hx hsome fun hnotifying hne => by
      rw [hnarrowed] at hne ⊢
      exact hsend hnotifying fun h => hne (h.unique hold)
  rw [hnarrowed] at heffect
  refine ⟨.ret true, σ', hrun, fun _ => ⟨rfl, ?_⟩, ?_⟩
  · refine ⟨_, forall₂_convertsAlone hsafe hstring hall, ?_, typeSize, hsize, ?_⟩
    · rw [← List.flatMap_def]
      exact heffect.shows.holds
    · rw [← List.flatMap_def]
      exact hlength
  · intro ⟨v, hv, hnot⟩
    exact absurd (haccepted.mpr rfl v hv) hnot

include hinv hf hmemory hx hitems ht hstring hsmall hsafe in
/-- A table that is taken, changes the value and is told, can be told if the call has an outcome. -/
theorem sendable_of_tableMeets (h : TableMeets σ c items t type)
    (hall : (itemsBeforeNil items).all (acceptsScalar type) = true)
    (hnotifying : x.notifying = true)
    (hne : ¬ Holds σ c (encodeValue type (.table items))) :
    Sendable σ.strings x (encodeValue type (.table items)) := by
  obtain ⟨exit, σ', hrun, -⟩ := h
  obtain ⟨old, hold⟩ := hinv.holds hx
  have hshows := hold.shows hx
  obtain ⟨typeSize, -, -, hnarrowed⟩ := encodeValue_table hstring hsmall hall
  have hsome := convertedBytes_of_accepted (fun h => hstring h.1)
    ((acceptsValue_table hitems hstring).trans hall)
  by_contra hsend
  have hchanged : narrowed (encodeValue type (.table items)) ≠ old := by
    rw [hnarrowed]
    intro heq
    exact hne (heq ▸ hold)
  obtain ⟨e, he⟩ := luaiCharacteristicSetValue_fails hf ht ((overruns_code type _).trans hsafe)
    hshows hinv hmemory hx hsome hnotifying hchanged (by rwa [hnarrowed])
  rw [he] at hrun
  cases hrun

end Table

/-- A table is encoded item by item, all or nothing, exactly when its first item is no number for
`INT32` and, if it is taken, changes the value and is told to subscribers, it can be told. -/
theorem tableMeets_iff {σ : State} (hreach : Reachable σ) (hf : σ.buffers.NeverFails)
    (hmemory : σ.bus.outOfMemory = false) {c : ℕ} {x : Characteristic}
    (hx : σ.characteristic c = .ok x) {items : List LuaValue} (hitems : 0 < items.length)
    {t : LuaValue} {type : BleDataType} (ht : luaiCheckTypeBleDataType t = .ret type.code)
    (hstring : type ≠ .string)
    (hsmall : ∀ typeSize, bleDataTypeSize[type.code.toNat]? = some typeSize →
      (itemsBeforeNil items).length * typeSize < 2 ^ 31) :
    TableMeets σ c items t type ↔
      convertsInt32 type (.table items) = false ∧
        ((itemsBeforeNil items).all (acceptsScalar type) = true → x.notifying = true →
          ¬ Holds σ c (encodeValue type (.table items)) →
            Sendable σ.strings x (encodeValue type (.table items))) := by
  have hinv := ValuesInv.of_reachable hreach
  constructor
  · intro h
    cases hsafe : convertsInt32 type (.table items) with
    | true =>
      -- the conversion of the first item leaves its block, and the call has no outcome
      obtain ⟨exit, σ', hrun, -⟩ := h
      rw [luaiCharacteristicSetValue_overruns hf ht ((overruns_code type _).trans hsafe)] at hrun
      cases hrun
    | false =>
      exact ⟨rfl, sendable_of_tableMeets hinv hf hmemory hx hitems ht hstring hsmall hsafe h⟩
  · intro ⟨hsafe, hsend⟩
    cases hall : (itemsBeforeNil items).all (acceptsScalar type) with
    | false => exact tableMeets_refused hinv hf hx hitems ht hstring hsafe hall
    | true =>
      exact tableMeets_stored hinv hf hmemory hx hitems ht hstring hsmall hsafe hall (hsend hall)

/-- The theorem where two numbers are stored as `UINT16`. -/
theorem tableMeets_iff_uint16 :
    TableMeets (State.after [.createCharacteristic "2A19".toList]) 0 [.integer 1, .integer 2]
      (.integer 4) .uint16 :=
  (tableMeets_iff (σ := State.after [.createCharacteristic "2A19".toList])
    (State.reachable_after (by decide) fun _ _ => trivial) (fun _ => rfl) rfl (c := 0) rfl
    (by decide) (by decide) (by decide) (fun typeSize hsize => by cases hsize; decide)).mpr
      ⟨by decide, fun _ hnotifying => by cases hnotifying⟩

/-- A table with one number is not stored as `INT32`. -/
theorem not_tableMeets_int32 : ¬ ∀ (σ : State) (c : ℕ) (x : Characteristic)
    (items : List LuaValue) (t : LuaValue) (type : BleDataType), Reachable σ →
      σ.buffers.NeverFails → σ.bus.outOfMemory = false → σ.characteristic c = .ok x →
      0 < items.length → luaiCheckTypeBleDataType t = .ret type.code → type ≠ .string →
      (∀ typeSize, bleDataTypeSize[type.code.toNat]? = some typeSize →
        (itemsBeforeNil items).length * typeSize < 2 ^ 31) → TableMeets σ c items t type := by
  intro h
  obtain ⟨exit, σ', hrun, -⟩ := h (State.after [.createCharacteristic "2A19".toList]) 0 _
    [.integer 7] (.integer 5) .int32 (State.reachable_after (by decide) fun _ _ => trivial)
    (fun _ => rfl) rfl rfl (by decide) (by decide) (by decide)
    (fun typeSize hsize => by cases hsize; decide)
  have hover : luaiCharacteristicSetValue 0 (.table [.integer 7]) (.integer 5)
      (State.after [.createCharacteristic "2A19".toList]) = .error .outOfBlock := rfl
  rw [hover] at hrun
  cases hrun

end BleSim
