import BleSim.Requests
import BleSim.ValueTheorems

/-!
# Blocks that `setValue` loses

A conversion that returns true hands out one block, and `setValue` releases it. On the other exits
the copy of a string and the buffer of an array are lost: a string is copied and then turned away,
and a table or a number the data type does not take raises an error out of the loop over a table.
Where this does not happen, the values of the characteristics are all that stays allocated.
-/

namespace BleSim

open Outcomes WriteOnce DBusValue

/-! ## When a block is lost -/

/-- How many requests have to be granted for an item that is not taken to lose a block, if it can:
a string loses its own copy, a table or a number the buffer of the array. -/
def lossAt : LuaValue → Option ℕ
  | .string _ => some 1
  | .table _ => some 0
  | .integer _ => some 0
  | .float _ => some 0
  | _ => none

/-- How many requests have to be granted for the loop over a table to lose a block, if it can:
this is up to the first item that is not taken. -/
def itemsToLeak (type : BleDataType) (items : List LuaValue) : Option ℕ :=
  let taken := (items.takeWhile (acceptsScalar type)).length
  ((items.find? fun item => !acceptsScalar type item).bind lossAt).map (taken + ·)

/-- How many requests have to be granted for a conversion to lose a block, if it can. -/
def requestsToLeak (type : UInt32) : LuaValue → Option ℕ
  | .string _ => some 1
  | .table items =>
    match BleDataType.ofCode type with
    | none => none
    | some .string => none
    | some type => (itemsToLeak type items).map (1 + ·)
  | _ => none

/-- The requests needed to lose a block are granted. -/
def Loses (buffers : Heap Bytes) (requests : Option ℕ) : Prop :=
  ∃ n, requests = some n ∧ buffers.Grants n

/-- The blocks a conversion leaves in use: the one it hands out, or nothing, or, if it loses one, a
new one. -/
def Accounts {α : Type} (h : Heap Bytes) (loses : Prop) (handed : α → Ptr Bytes) :
    LuaExit (Option α) → Heap Bytes → Prop
  | .ret (some a), h' => ¬ loses ∧ Heap.Leaves h h' (handed a)
  | _, h' => (loses → ∃ id ∈ h'.live, h.size ≤ id) ∧ (¬ loses → Heap.Leaves h h' .null)

/-! ## Conversions -/

section Scalars

variable {buffers buffers' : Heap Bytes} {exit : LuaExit (Option Converted)}

theorem not_loses_none : ¬ Loses buffers none := by
  rintro ⟨n, hn, -⟩
  cases hn

theorem loses_some {n : ℕ} : Loses buffers (some n) ↔ buffers.Grants n := by
  simp [Loses]

theorem mallocAndCopy_leaves {allocated : ℕ} {val : Bytes}
    (h : mallocAndCopy allocated val buffers = .ok (exit, buffers')) :
    (∃ d, exit = .ret (some d) ∧ Heap.Leaves buffers buffers' d.data) ∨
      exit = .ret none ∧ Heap.Leaves buffers buffers' .null := by
  have hleaves := Heap.tryAlloc_leaves buffers val
  by_cases hnull : (buffers.tryAlloc val).1 = .null
  · simp only [mallocAndCopy, hnull, ↓reduceIte] at h
    cases h
    rw [hnull] at hleaves
    exact Or.inr ⟨rfl, hleaves⟩
  · simp only [mallocAndCopy, hnull, ↓reduceIte, ite_eq_ok] at h
    obtain ⟨-, h⟩ | ⟨-, h⟩ := h
    · cases h
      exact Or.inl ⟨_, rfl, hleaves⟩
    · cases h

theorem luaiLuaNumberToOpcUaDataType_taken {type : BleDataType} {v : LuaValue}
    (hnumeric : type.isNumeric = true)
    (h : luaiLuaNumberToOpcUaDataType v type.code buffers = .ok (exit, buffers')) :
    (∃ d, exit = .ret (some d) ∧ Heap.Leaves buffers buffers' d.data) ∨
      exit = .ret none ∧ Heap.Leaves buffers buffers' .null := by
  unfold luaiLuaNumberToOpcUaDataType at h
  rw [BleDataType.ofCode_code] at h
  cases type with
  | bool => cases hnumeric
  | string => cases hnumeric
  | _ => exact mallocAndCopy_leaves h

/-- A boolean or a number that is taken is handed out in its block, or there was no memory. -/
theorem luaiLuaDataArgToBleDataType_taken {type : BleDataType} {v : LuaValue}
    (haccepts : acceptsScalar type v = true) (hstring : type ≠ .string)
    (h : luaiLuaDataArgToBleDataType v type.code buffers = .ok (exit, buffers')) :
    (∃ d, exit = .ret (some d) ∧ Heap.Leaves buffers buffers' d.data) ∨
      exit = .ret none ∧ Heap.Leaves buffers buffers' .null := by
  cases v with
  | boolean b =>
    simp only [luaiLuaDataArgToBleDataType, ite_eq_ok] at h
    obtain ⟨hcode, -⟩ | ⟨-, h⟩ := h
    · have htype : type = .bool := by simpa [acceptsScalar] using haccepts
      exact absurd (congrArg BleDataType.code htype) hcode
    · exact mallocAndCopy_leaves h
  | integer i => exact luaiLuaNumberToOpcUaDataType_taken haccepts h
  | float bits => exact luaiLuaNumberToOpcUaDataType_taken haccepts h
  | string s =>
    have htype : type = .string := by simpa [acceptsScalar] using haccepts
    exact absurd htype hstring
  | nil => cases haccepts
  | table items => cases haccepts
  | other => cases haccepts

/-- The copy of a string is lost when there is memory for it. -/
theorem luaiLuaDataArgToBleDataType_string (type : UInt32) {s : Bytes}
    (h : luaiLuaDataArgToBleDataType (.string s) type buffers = .ok (exit, buffers')) :
    exit = .ret none ∧ (buffers.Grants 1 → ∃ id ∈ buffers'.live, buffers.size ≤ id) ∧
      (¬ buffers.Grants 1 → Heap.Leaves buffers buffers' .null) := by
  cases h
  refine ⟨rfl, fun hgrants => ?_, fun hdenied => ?_⟩
  · have hnull : (buffers.tryAlloc (s.takeWhile (· ≠ 0))).1 ≠ .null := by
      intro hnull
      exact Heap.tryAlloc_eq_null.mp hnull hgrants
    obtain ⟨id, hid, hge, -⟩ := (Heap.tryAlloc_cases buffers _).resolve_left hnull
    exact ⟨id, hid, hge⟩
  · have hleaves := Heap.tryAlloc_leaves buffers (s.takeWhile (· ≠ 0))
    rwa [Heap.tryAlloc_eq_null.mpr hdenied] at hleaves

/-- A conversion without loss. -/
theorem Accounts.of_leaves {loses : Prop} (hnot : ¬ loses)
    (h : (∃ d, exit = .ret (some d) ∧ Heap.Leaves buffers buffers' d.data) ∨
      exit = .ret none ∧ Heap.Leaves buffers buffers' .null) :
    Accounts buffers loses Converted.data exit buffers' := by
  rcases h with ⟨d, rfl, hleaves⟩ | ⟨rfl, hleaves⟩
  · exact ⟨hnot, hleaves⟩
  · exact ⟨fun hloses => absurd hloses hnot, fun _ => hleaves⟩

/-- Numbers by themselves lose nothing. -/
theorem luaiLuaNumberToOpcUaDataType_accounts {v : LuaValue} {type : UInt32} {loses : Prop}
    (hnot : ¬ loses) (h : luaiLuaNumberToOpcUaDataType v type buffers = .ok (exit, buffers')) :
    Accounts buffers loses Converted.data exit buffers' := by
  unfold luaiLuaNumberToOpcUaDataType at h
  dsimp only at h
  split at h
  case h_11 =>
    cases h
    exact ⟨fun hloses => absurd hloses hnot, fun _ => .refl _ _⟩
  all_goals exact .of_leaves hnot (mallocAndCopy_leaves h)

/-- A number that is not taken raises an error before anything is allocated. -/
theorem luaiLuaNumberToOpcUaDataType_refused {type : BleDataType} {v : LuaValue}
    (hnumeric : type.isNumeric = false) :
    luaiLuaNumberToOpcUaDataType v type.code buffers = .ok (.raise, buffers) := by
  unfold luaiLuaNumberToOpcUaDataType
  rw [BleDataType.ofCode_code]
  cases type with
  | bool => rfl
  | string => rfl
  | _ => cases hnumeric

end Scalars

/-- The first item that is not taken comes after one that is. -/
theorem itemsToLeak_cons {type : BleDataType} {item : LuaValue}
    (haccepts : acceptsScalar type item = true) (rest : List LuaValue) :
    itemsToLeak type (item :: rest) = (itemsToLeak type rest).map (1 + ·) := by
  have hfind : (item :: rest).find? (fun item => !acceptsScalar type item) =
      rest.find? fun item => !acceptsScalar type item :=
    List.find?_cons_of_neg (by simp [haccepts])
  simp only [itemsToLeak, hfind, List.takeWhile_cons_of_pos haccepts, List.length_cons]
  cases (rest.find? fun item => !acceptsScalar type item).bind lossAt with
  | none => rfl
  | some n =>
    simp only [Option.map_some]
    congr 1
    omega

/-- Items that are taken use up one request each. -/
theorem loses_cons {buffers buffers' : Heap Bytes} {requests : Option ℕ}
    (hgrants : buffers.Grants 1) (hfails : buffers'.fails = buffers.fails)
    (hrequests : buffers'.requests = buffers.requests + 1) :
    Loses buffers (requests.map (1 + ·)) ↔ Loses buffers' requests := by
  cases requests with
  | none => exact iff_of_false not_loses_none not_loses_none
  | some n =>
    rw [Option.map_some, loses_some, loses_some, Heap.grants_add hfails hrequests]
    exact and_iff_right hgrants

section Items

variable {type : BleDataType} {item : LuaValue} {typeSize capacity : ℕ} {buf : Ptr Bytes}
  {a : Bytes} {h buffers buffers' : Heap Bytes} {exit : LuaExit (Option (ℕ × Bytes))}

/-- An item that is not taken ends the loop, and may lose its own copy or the buffer. -/
theorem luaiGetArrayItems_accounts_refused (hbuf : Heap.New h buffers buf a)
    (hsize : h.size ≤ buffers.size) (hleaves : Heap.Leaves h buffers buf)
    (hrefuses : acceptsScalar type item = false) {rest : List LuaValue} {count : ℕ}
    {stored : Bytes}
    (hrun : luaiGetArrayItems type.code typeSize capacity buf (item :: rest) count stored buffers =
      .ok (exit, buffers')) :
    Accounts h (Loses buffers (itemsToLeak type (item :: rest))) (fun _ => buf) exit buffers' := by
  have hrequests : itemsToLeak type (item :: rest) = lossAt item := by
    unfold itemsToLeak
    rw [List.takeWhile_cons_of_neg (by simp [hrefuses]),
      List.find?_cons_of_pos (by simp [hrefuses])]
    simp
  rw [hrequests]
  -- nothing has to be granted for the buffer to be lost
  have hlost : Loses buffers (some 0) ∧ ∃ id ∈ buffers.live, h.size ≤ id := by
    obtain ⟨id, hid, hge, -⟩ := hbuf
    exact ⟨loses_some.mpr fun i hi => absurd hi (Nat.not_lt_zero i), id, hid, hge⟩
  have hraised : Accounts h (Loses buffers (some 0)) (fun _ : ℕ × Bytes => buf) .raise buffers :=
    ⟨fun _ => hlost.2, fun hnot => absurd hlost.1 hnot⟩
  have hfreed : Accounts h (Loses buffers none) (fun _ : ℕ × Bytes => buf) (.ret none)
      (buffers.free buf) :=
    ⟨fun hloses => absurd hloses not_loses_none, fun _ => hleaves.free⟩
  cases item with
  | nil =>
    cases hrun
    exact ⟨not_loses_none, hleaves⟩
  | table items =>
    cases hrun
    exact hraised
  | boolean b =>
    have htype : type ≠ .bool := by simpa [acceptsScalar] using hrefuses
    have hcode := BleDataType.code_injective.ne htype
    simp only [luaiGetArrayItems, luaiLuaDataArgToBleDataType, hcode, ne_eq, not_false_eq_true,
      ↓reduceIte, ok_bind] at hrun
    cases hrun
    exact hfreed
  | integer i =>
    simp only [luaiGetArrayItems, luaiLuaDataArgToBleDataType,
      luaiLuaNumberToOpcUaDataType_refused hrefuses, ok_bind] at hrun
    cases hrun
    exact hraised
  | float bits =>
    simp only [luaiGetArrayItems, luaiLuaDataArgToBleDataType,
      luaiLuaNumberToOpcUaDataType_refused hrefuses, ok_bind] at hrun
    cases hrun
    exact hraised
  | other =>
    cases hrun
    exact hfreed
  | string s =>
    obtain ⟨⟨exit₁, buffers₁⟩, hitem, hrun⟩ := bind_eq_ok.mp hrun
    obtain ⟨rfl, hstays, hnothing⟩ := luaiLuaDataArgToBleDataType_string _ hitem
    have hok := luaiLuaDataArgToBleDataType_ok hitem
    cases hrun
    -- the buffer is released, and the copy of the string is not
    have hloses : Loses buffers (lossAt (.string s)) ↔ buffers.Grants 1 := loses_some
    constructor
    · intro hlost
      have hgrants := hloses.mp hlost
      obtain ⟨id, hid, hge⟩ := hstays hgrants
      refine ⟨id, Heap.mem_live_free hid fun heq => ?_, Nat.le_trans hsize hge⟩
      obtain ⟨i, hi, -, rfl⟩ := hbuf
      obtain rfl : i = id := Option.some.inj heq
      exact absurd (buffers.live_lt i hi) (Nat.not_lt.mpr hge)
    · intro hnot
      exact (hleaves.trans (hnothing (mt hloses.mpr hnot))).free

/-- The loop over a table loses a block exactly at an item that is not taken. -/
theorem luaiGetArrayItems_accounts (hstring : type ≠ .string)
    (hsize : bleDataTypeSize[type.code.toNat]? = some typeSize) (items : List LuaValue) :
    ∀ {count : ℕ} {stored : Bytes} {buffers : Heap Bytes}, h.Extends buffers →
      Heap.New h buffers buf a → Heap.Leaves h buffers buf →
      luaiGetArrayItems type.code typeSize capacity buf items count stored buffers =
        .ok (exit, buffers') →
      Accounts h (Loses buffers (itemsToLeak type items)) (fun _ => buf) exit buffers' := by
  induction items with
  | nil =>
    intro count stored buffers _ _ hleaves hrun
    cases hrun
    exact ⟨not_loses_none, hleaves⟩
  | cons item rest ih =>
    intro count stored buffers hext hbuf hleaves hrun
    cases haccepts : acceptsScalar type item with
    | false => exact luaiGetArrayItems_accounts_refused hbuf hext.size hleaves haccepts hrun
    | true =>
      have hsome : item.isSome = true ∧ ∀ items, item ≠ .table items := by
        cases item with
        | nil => cases haccepts
        | table items => cases haccepts
        | _ => exact ⟨rfl, by simp⟩
      rw [luaiGetArrayItems_cons hsome.1 hsome.2] at hrun
      obtain ⟨⟨exit₁, buffers₁⟩, hitem, hrun⟩ := bind_eq_ok.mp hrun
      have hok := luaiLuaDataArgToBleDataType_ok hitem
      have hyields := luaiLuaDataArgToBleDataType_yields hitem
      rw [itemsToLeak_cons haccepts]
      obtain ⟨d, rfl, hitemLeaves⟩ | ⟨rfl, hitemLeaves⟩ :=
        luaiLuaDataArgToBleDataType_taken haccepts hstring hitem
      · obtain ⟨hgrants, hrequests, bytes, hconverted, hnew, hlength⟩ := hyields
        have hfails : (buffers₁.free d.data).fails = buffers.fails :=
          (Heap.free_fails _ _).trans hok.extend.fails
        rw [loses_cons hgrants hfails ((Heap.free_requests _ _).trans hrequests)]
        simp only [ite_eq_ok] at hrun
        rcases hrun with ⟨hother, -⟩ | ⟨-, ⟨-, hrun⟩ | ⟨-, hrun⟩⟩
        · -- all values of a data type are equally long
          obtain ⟨-, -, rfl⟩ := acceptsScalar_of_converted hconverted
          exact absurd (hlength.trans (length_encodeScalar haccepts hstring hsize)) hother
        · have hext₁ := hext.trans hok.extend
          have hgrown := hok.extend.free hnew
          exact ih (hext.trans hgrown) (hgrown.keep hbuf) (hleaves.trans hitemLeaves.free) hrun
        · cases hrun
      · cases hrun
        -- there was no memory for the item, nor is there for those after it
        have hdenied : ¬ buffers.Grants 1 := by
          refine hyields.resolve_left ?_
          simp [convertedScalar, haccepts, hstring]
        refine ⟨fun hloses => ?_, fun _ => (hleaves.trans hitemLeaves).free⟩
        obtain ⟨n, hn, hgrants⟩ := hloses
        obtain ⟨m, -, rfl⟩ := Option.map_eq_some_iff.mp hn
        exact absurd (fun i hi => hgrants i (by omega)) hdenied

end Items

section Convert

variable {buffers buffers' : Heap Bytes} {exit : LuaExit (Option Converted)}

theorem luaiGetArray_accounts {type : BleDataType} (hstring : type ≠ .string)
    {items : List LuaValue} (h : luaiGetArray items type.code buffers = .ok (exit, buffers')) :
    Accounts buffers (Loses buffers ((itemsToLeak type items).map (1 + ·))) Converted.data exit
      buffers' := by
  by_cases hempty : items.length = 0
  · -- an empty table is refused at once
    rw [luaiGetArray, if_pos hempty] at h
    cases h
    rw [List.length_eq_zero_iff.mp hempty]
    exact ⟨fun hloses => absurd hloses not_loses_none, fun _ => .refl _ _⟩
  have hcode := BleDataType.code_injective.ne hstring
  obtain ⟨typeSize, hsize⟩ : ∃ typeSize, bleDataTypeSize[type.code.toNat]? = some typeSize := by
    cases type <;> exact ⟨_, rfl⟩
  have hleaves := Heap.tryAlloc_leaves buffers []
  by_cases hnull : (buffers.tryAlloc []).1 = .null
  · -- without the buffer nothing else is allocated
    simp only [luaiGetArray, hempty, ↓reduceIte, hcode, hsize, hnull] at h
    cases h
    rw [hnull] at hleaves
    refine ⟨fun hloses => ?_, fun _ => hleaves⟩
    obtain ⟨n, hn, hgrants⟩ := hloses
    obtain ⟨m, -, rfl⟩ := Option.map_eq_some_iff.mp hn
    exact absurd (fun i hi => hgrants i (by omega)) (Heap.tryAlloc_eq_null.mp hnull)
  have hgrants : buffers.Grants 1 := not_not.mp (mt Heap.tryAlloc_eq_null.mpr hnull)
  simp only [luaiGetArray, hempty, ↓reduceIte, hcode, hsize, hnull] at h
  obtain ⟨⟨exit₁, buffers₁⟩, hloop, h⟩ := bind_eq_ok.mp h
  have haccounts := luaiGetArrayItems_accounts hstring hsize items (.tryAlloc buffers [])
    ((Heap.tryAlloc_cases buffers []).resolve_left hnull) hleaves hloop
  rw [loses_cons hgrants (Heap.Extends.tryAlloc buffers []).fails
    (Heap.tryAlloc_requests buffers [])]
  cases exit₁ with
  | raise =>
    cases h
    exact haccounts
  | ret result =>
    cases result with
    | none =>
      cases h
      exact haccounts
    | some r =>
      cases h
      refine ⟨haccounts.1, fun id hid => ?_⟩
      -- filling the buffer does not move it
      have hfill : ((buffers.tryAlloc []).1.fill r.2).id? = (buffers.tryAlloc []).1.id? := by
        cases (buffers.tryAlloc []).1 <;> rfl
      rw [hfill]
      exact haccounts.2 id hid

/-- A conversion leaves the block it hands out, or nothing, unless it loses one. -/
theorem luaiConvert_accounts {type : UInt32} {v : LuaValue}
    (h : luaiConvert v type buffers = .ok (exit, buffers')) :
    Accounts buffers (Loses buffers (requestsToLeak type v)) Converted.data exit buffers' := by
  cases v with
  | nil =>
    cases h
    exact .of_leaves not_loses_none (Or.inr ⟨rfl, .refl _ _⟩)
  | other =>
    cases h
    exact .of_leaves not_loses_none (Or.inr ⟨rfl, .refl _ _⟩)
  | string s =>
    obtain ⟨rfl, hstays, hleaves⟩ := luaiLuaDataArgToBleDataType_string type h
    have hloses : Loses buffers (requestsToLeak type (.string s)) ↔ buffers.Grants 1 := loses_some
    exact ⟨fun hlost => hstays (hloses.mp hlost), fun hnot => hleaves (mt hloses.mpr hnot)⟩
  | boolean b =>
    simp only [luaiConvert, luaiLuaDataArgToBleDataType, ite_eq_ok] at h
    obtain ⟨-, h⟩ | ⟨-, h⟩ := h
    · cases h
      exact .of_leaves not_loses_none (Or.inr ⟨rfl, .refl _ _⟩)
    · exact .of_leaves not_loses_none (mallocAndCopy_leaves h)
  | integer i => exact luaiLuaNumberToOpcUaDataType_accounts not_loses_none h
  | float bits => exact luaiLuaNumberToOpcUaDataType_accounts not_loses_none h
  | table items =>
    have hrequests : requestsToLeak type (.table items) =
        match BleDataType.ofCode type with
        | none => none
        | some .string => none
        | some type => (itemsToLeak type items).map (1 + ·) := rfl
    rw [hrequests]
    cases hcode : BleDataType.ofCode type with
    | none =>
      -- only an empty table has an outcome here
      have htype := BleDataType.ne_code_of_ofCode hcode .string
      simp only [luaiConvert, luaiGetArray, htype, bleDataTypeSize_eq_none hcode, ite_eq_ok,
        ↓reduceIte, reduceCtorEq, and_false, or_false] at h
      obtain ⟨-, h⟩ := h
      cases h
      exact .of_leaves not_loses_none (Or.inr ⟨rfl, .refl _ _⟩)
    | some T =>
      obtain rfl := BleDataType.eq_code_of_ofCode hcode
      by_cases hstring : T = .string
      · -- arrays of strings raise an error before the buffer is allocated
        subst hstring
        simp only [luaiConvert, luaiGetArray, ↓reduceIte, ite_eq_ok] at h
        obtain ⟨-, h⟩ | ⟨-, h⟩ := h
        · cases h
          exact .of_leaves not_loses_none (Or.inr ⟨rfl, .refl _ _⟩)
        · cases h
          exact ⟨fun hloses => absurd hloses not_loses_none, fun _ => .refl _ _⟩
      · have haccounts := luaiGetArray_accounts hstring h
        cases T with
        | string => exact absurd rfl hstring
        | _ => exact haccounts

end Convert

/-! ## The blocks of values -/

/-- The object is still there, and `id` is the block of its value. -/
def ValueBlock (σ : State) (o : Obj) (id : ℕ) : Prop :=
  o ∉ σ.finalised ∧ ∃ bytes, σ.valueSlot o = .block id bytes

/-- The values of the objects that are still there are all that is allocated. -/
def OnlyValues (σ : State) : Prop := ∀ id ∈ σ.buffers.live, ∃ o, ValueBlock σ o id

/-- Every block that is allocated after a step is that of the value of `c`, or was allocated before
without being the value of `c`, and every block was released at most once. -/
structure NoLeak (σ σ' : State) (c : ℕ) : Prop where
  live : ∀ id ∈ σ'.buffers.live, ValueBlock σ' (.characteristic c) id ∨
    id ∈ σ.buffers.live ∧ ¬ ValueBlock σ (.characteristic c) id
  frees : σ'.buffers.invalidFrees = σ.buffers.invalidFrees

/-- A call of `setValue` with a data type that passes the check loses a block. -/
def Leaks (buffers : Heap Bytes) (v t : LuaValue) : Prop :=
  ∃ type, luaiCheckTypeBleDataType t = .ret type ∧ Loses buffers (requestsToLeak type v)

/-- The values of the objects other than `c` stay where they are. -/
structure Replaces (σ σ' : State) (c : ℕ) : Prop where
  noLeak : NoLeak σ σ' c
  finalised : σ'.finalised = σ.finalised
  others : ∀ o, o ≠ .characteristic c → σ'.valueSlot o = σ.valueSlot o

section Values

variable {σ σ' : State} {c : ℕ}

theorem ValueBlock.unique {o : Obj} {id : ℕ} (h : ValueBlock σ o id) :
    (σ.valueSlot o).id? = some id := by
  obtain ⟨-, bytes, hslot⟩ := h
  rw [hslot]
  rfl

theorem ValueBlock.lt {o : Obj} {id : ℕ} (hinv : ValuesInv σ) (h : ValueBlock σ o id) :
    id < σ.buffers.size := by
  obtain ⟨-, bytes, hslot⟩ := h
  exact hinv.owns.bounded o id bytes hslot

theorem ValueBlock.congr {o : Obj} {id : ℕ} (hslot : σ'.valueSlot o = σ.valueSlot o)
    (hfin : σ'.finalised = σ.finalised) (h : ValueBlock σ o id) : ValueBlock σ' o id := by
  rw [ValueBlock, hslot, hfin]
  exact h

/-- Nothing has become of the value, and all that is allocated was allocated before. -/
theorem NoLeak.of_kept (hslot : σ'.valueSlot (.characteristic c) = σ.valueSlot (.characteristic c))
    (hfin : σ'.finalised = σ.finalised) (hlive : ∀ id ∈ σ'.buffers.live, id ∈ σ.buffers.live)
    (hfrees : σ'.buffers.invalidFrees = σ.buffers.invalidFrees) : NoLeak σ σ' c := by
  refine ⟨fun id hid => ?_, hfrees⟩
  by_cases hblock : ValueBlock σ (.characteristic c) id
  · exact Or.inl (hblock.congr hslot hfin)
  · exact Or.inr ⟨hlive id hid, hblock⟩

/-- Where only the values are allocated, they still are after a value has been replaced. -/
theorem Replaces.onlyValues (h : Replaces σ σ' c) (honly : OnlyValues σ) : OnlyValues σ' := by
  intro id hid
  rcases h.noLeak.live id hid with hblock | ⟨hold, hnot⟩
  · exact ⟨_, hblock⟩
  · obtain ⟨o, hblock⟩ := honly id hold
    have hne : o ≠ .characteristic c := by
      rintro rfl
      exact hnot hblock
    exact ⟨o, hblock.congr (h.others o hne) h.finalised⟩

/-- Where the slots stay and nothing new is allocated, only the values still are. -/
theorem OnlyValues.congr (honly : OnlyValues σ) (hslot : σ'.valueSlot = σ.valueSlot)
    (hfin : σ'.finalised = σ.finalised) (hlive : σ'.buffers.live = σ.buffers.live) :
    OnlyValues σ' := by
  intro id hid
  rw [hlive] at hid
  obtain ⟨o, hblock⟩ := honly id hid
  exact ⟨o, hblock.congr (congrFun hslot o) hfin⟩

/-- A finalised object takes its value with it. -/
theorem OnlyValues.finalised (honly : OnlyValues σ) {o : Obj} (hslot : σ'.valueSlot = σ.valueSlot)
    (hfin : σ'.finalised = o :: σ.finalised)
    (hlive : σ'.buffers.live = (σ.buffers.free (σ.valueSlot o)).live) : OnlyValues σ' := by
  intro id hid
  rw [hlive] at hid
  have hne := Heap.ne_of_mem_live_free hid
  obtain ⟨o', hblock⟩ := honly id (Heap.live_free_subset _ _ id hid)
  refine ⟨o', ?_, ?_⟩
  · rw [hfin, List.mem_cons, not_or]
    refine ⟨?_, hblock.1⟩
    rintro rfl
    exact hne hblock.unique
  · rw [hslot]
    exact hblock.2

/-! ## Storing a value -/

/-- Storing a value releases the block of the old one. -/
theorem characteristicSetValue_replaces (hinv : ValuesInv σ) {data : Bytes} {size : UInt32}
    (h : characteristicSetValue c (some data) size σ = .ok σ') : Replaces σ σ' c := by
  have hstores := characteristicSetValue_stores h
  obtain ⟨x, hx, h⟩ := bind_eq_ok.mp h
  obtain ⟨hfin, hget⟩ := State.characteristic_eq_ok.mp hx
  have hslot := State.valueSlot_characteristic hget
  have hleaves := Heap.tryAlloc_leaves (σ.buffers.free x.value) (data.take size.toNat)
  have hfrees := (hstores.values hinv).frees.trans hinv.frees.symm
  -- what is in use is the new block, or was in use before and has not been released
  have hlive : ∀ id ∈ ((σ.buffers.free x.value).tryAlloc (data.take size.toNat)).2.live,
      ((σ.buffers.free x.value).tryAlloc (data.take size.toNat)).1.id? = some id ∨
        id ∈ σ.buffers.live ∧ ¬ ValueBlock σ (.characteristic c) id := by
    intro id hid
    rcases hleaves id hid with hid | hnew
    · refine Or.inr ⟨Heap.live_free_subset _ _ id hid, fun hblock => ?_⟩
      exact Heap.ne_of_mem_live_free hid (hslot ▸ hblock.unique)
    · exact Or.inl hnew
  simp only [ite_eq_ok] at h
  rcases h with ⟨hnull, h⟩ | ⟨-, ⟨-, h⟩ | ⟨-, h⟩⟩
  · cases h
    refine ⟨⟨fun id hid => ?_, hfrees⟩, rfl, fun o ho => ?_⟩
    · rcases hlive id hid with hnew | hold
      · rw [hnull] at hnew
        cases hnew
      · exact Or.inr hold
    · rw [valueSlot_modify hget, Function.update_of_ne ho]
  · cases h
    refine ⟨⟨fun id hid => ?_, hfrees⟩, rfl, fun o ho => ?_⟩
    · rcases hlive id hid with hnew | hold
      · refine Or.inl ⟨hfin, ?_⟩
        rw [valueSlot_modify hget, Function.update_self]
        cases hp : ((σ.buffers.free x.value).tryAlloc (data.take size.toNat)).1 with
        | null => rw [hp] at hnew; cases hnew
        | indeterminate => rw [hp] at hnew; cases hnew
        | block i a =>
          rw [hp] at hnew
          obtain rfl : i = id := Option.some.inj hnew
          exact ⟨a, rfl⟩
      · exact Or.inr hold
    · rw [valueSlot_modify hget, Function.update_of_ne ho]
  · cases h

theorem characteristicUpdateValue_replaces (hinv : ValuesInv σ) {newValue : Bytes} {dataSize : ℕ}
    (h : characteristicUpdateValue c newValue dataSize σ = .ok σ') : Replaces σ σ' c := by
  rcases characteristicUpdateValue_cases h with rfl | ⟨σ₁, sent, hset, rfl⟩
  · exact ⟨.of_kept rfl rfl (fun _ hid => hid) rfl, rfl, fun _ _ => rfl⟩
  · obtain ⟨⟨hlive, hfrees⟩, hfin, hothers⟩ := characteristicSetValue_replaces hinv hset
    exact ⟨⟨hlive, hfrees⟩, hfin, hothers⟩

/-! ## `setValue` -/

/-- A conversion that hands out nothing leaves the state as it was, up to what it loses. -/
theorem noLeak_iff_of_refused (hinv : ValuesInv σ) {buffers : Heap Bytes} {loses : Prop}
    (hext : σ.buffers.Extends buffers)
    (hlost : loses → ∃ id ∈ buffers.live, σ.buffers.size ≤ id)
    (hkept : ¬ loses → Heap.Leaves σ.buffers buffers .null) :
    NoLeak σ { σ with buffers } c ↔ ¬ loses := by
  constructor
  · intro h hloses
    obtain ⟨id, hid, hge⟩ := hlost hloses
    rcases h.live id hid with hblock | ⟨hold, -⟩
    · have hbefore : ValueBlock σ (.characteristic c) id := hblock
      exact absurd (hbefore.lt hinv) (Nat.not_lt.mpr hge)
    · exact absurd (σ.buffers.live_lt id hold) (Nat.not_lt.mpr hge)
  · intro hnot
    refine .of_kept rfl rfl (fun id hid => ?_) hext.invalidFrees
    exact (hkept hnot id hid).resolve_right (by simp [Ptr.id?])

/-- The converted block is released after the update. -/
theorem luaiCharacteristicSetValue_replaces (hinv : ValuesInv σ) {buffers : Heap Bytes}
    {p : Ptr Bytes} {bytes newValue : Bytes} (hext : σ.buffers.Extends buffers)
    (hnew : Heap.New σ.buffers buffers p bytes) (hleaves : Heap.Leaves σ.buffers buffers p)
    {dataSize : ℕ} {σ₁ : State}
    (hupdate : characteristicUpdateValue c newValue dataSize { σ with buffers } = .ok σ₁) :
    Replaces σ { σ₁ with buffers := σ₁.buffers.free p } c := by
  obtain ⟨hnoLeak, hfin, hothers⟩ := characteristicUpdateValue_replaces (hinv.extend hext) hupdate
  refine ⟨⟨fun id hid => ?_, ?_⟩, hfin, hothers⟩
  · have hne := Heap.ne_of_mem_live_free hid
    rcases hnoLeak.live id (Heap.live_free_subset _ _ id hid) with hblock | ⟨hold, hnot⟩
    · exact Or.inl hblock
    · exact Or.inr ⟨(hleaves id hold).resolve_right hne, hnot⟩
  · have hfreed := (Heap.invalidFrees_free_iff _ _).mpr (freeable_of_new hinv hnew hupdate)
    exact (hfreed.trans hnoLeak.frees).trans hext.invalidFrees

/-- `setValue` keeps nothing but the value exactly when the conversion loses no block. -/
theorem luaiCharacteristicSetValue_noLeak (hinv : ValuesInv σ) {v t : LuaValue}
    {exit : LuaExit Bool} (hrun : luaiCharacteristicSetValue c v t σ = .ok (exit, σ')) :
    (NoLeak σ σ' c ↔ ¬ Leaks σ.buffers v t) ∧ (¬ Leaks σ.buffers v t → Replaces σ σ' c) := by
  cases ht : luaiCheckTypeBleDataType t with
  | raise =>
    -- nothing is allocated before the data type has been checked
    rw [luaiCharacteristicSetValue_raise ht] at hrun
    cases hrun
    have hnot : ¬ Leaks σ.buffers v t := by
      rintro ⟨type, htype, -⟩
      rw [ht] at htype
      cases htype
    have hkept : NoLeak σ σ c := .of_kept rfl rfl (fun _ hid => hid) rfl
    exact ⟨iff_of_true hkept hnot, fun _ => ⟨hkept, rfl, fun _ _ => rfl⟩⟩
  | ret type =>
    have hleaks : Leaks σ.buffers v t ↔ Loses σ.buffers (requestsToLeak type v) := by
      constructor
      · rintro ⟨type', htype, hloses⟩
        rw [ht] at htype
        cases htype
        exact hloses
      · intro hloses
        exact ⟨type, ht, hloses⟩
    simp only [luaiCharacteristicSetValue, ht] at hrun
    obtain ⟨⟨exit₁, buffers⟩, hconvert, hrun⟩ := bind_eq_ok.mp hrun
    have hok := luaiConvert_ok hconvert
    have haccounts := luaiConvert_accounts hconvert
    rw [hleaks]
    have hrefused : (Loses σ.buffers (requestsToLeak type v) →
          ∃ id ∈ buffers.live, σ.buffers.size ≤ id) ∧
        (¬ Loses σ.buffers (requestsToLeak type v) → Heap.Leaves σ.buffers buffers .null) →
      (NoLeak σ { σ with buffers } c ↔ ¬ Loses σ.buffers (requestsToLeak type v)) ∧
        (¬ Loses σ.buffers (requestsToLeak type v) → Replaces σ { σ with buffers } c) := by
      intro hboth
      obtain ⟨hlost, hkept⟩ := hboth
      have hiff := noLeak_iff_of_refused (c := c) hinv hok.extend hlost hkept
      exact ⟨hiff, fun hnot => ⟨hiff.mpr hnot, rfl, fun _ _ => rfl⟩⟩
    cases exit₁ with
    | raise =>
      cases hrun
      exact hrefused haccounts
    | ret result =>
      cases result with
      | none =>
        cases hrun
        exact hrefused haccounts
      | some d =>
        obtain ⟨hnot, hleaves⟩ := haccounts
        obtain ⟨σ₁, hupdate, hrun⟩ := bind_eq_ok.mp hrun
        cases hrun
        obtain ⟨bytes, hnew, -⟩ := hok.data d rfl
        have hreplaces := luaiCharacteristicSetValue_replaces hinv hok.extend hnew hleaves hupdate
        exact ⟨iff_of_true hreplaces.noLeak hnot, fun _ => hreplaces⟩

end Values

/-! ## Runs -/

section Runs

variable {σ σ' : State}

theorem characteristicSetNotifying_valueSlot {c : ℕ} {notifying : Bool}
    (h : characteristicSetNotifying c notifying σ = .ok σ') :
    σ'.valueSlot = σ.valueSlot ∧ σ'.finalised = σ.finalised ∧ σ'.buffers = σ.buffers := by
  obtain ⟨x, -, h⟩ := bind_eq_ok.mp h
  cases h
  exact ⟨ValuesInv.valueSlot_congr (State.map_modify_same _ _ _ _ fun _ => rfl) rfl, rfl, rfl⟩

/-- A method of a characteristic replaces its value at most. -/
theorem characteristicMethods_onlyValues (hinv : ValuesInv σ) (honly : OnlyValues σ) {c : ℕ}
    {row : Method} (hrow : row ∈ characteristicMethods c) {message : Message}
    {reply : Option Message} (h : row.call message σ = .ok (reply, σ')) : OnlyValues σ' := by
  obtain rfl | ⟨data, size, hset⟩ | ⟨notifying, hset⟩ := characteristicMethods_cases hrow h
  · exact honly
  · exact (characteristicSetValue_replaces hinv hset).onlyValues honly
  · obtain ⟨hslot, hfin, hbuffers⟩ := characteristicSetNotifying_valueSlot hset
    exact honly.congr hslot hfin (congrArg Heap.live hbuffers)

/-- Sending a reply allocates nothing. -/
theorem OnlyValues.sendReply (honly : OnlyValues σ) (reply : Option Message) :
    OnlyValues (sendReply reply σ) := by
  cases reply with
  | none => exact honly
  | some reply => exact honly

/-- Handling a message replaces a value at most. -/
theorem dbusutilsObjectHandleMessage_onlyValues (hinv : ValuesInv σ) (honly : OnlyValues σ)
    {o : Obj} {message request : Message} {result : HandlerResult}
    (h : dbusutilsObjectHandleMessage o message σ = .ok (result, request, σ')) :
    OnlyValues σ' := by
  obtain ⟨σ₁, reply, rfl, rfl | ⟨row, hrow, -, hcall⟩⟩ := dbusutilsObjectHandleMessage_cases h
  · exact honly.sendReply reply
  · obtain rfl | ⟨c, rfl, hmethod⟩ := call_cases hrow hcall
    · exact honly.sendReply reply
    · exact (characteristicMethods_onlyValues hinv honly hmethod hcall).sendReply reply

/-- The list nodes and the lists of children have no part in it. -/
theorem OnlyValues.setNode (honly : OnlyValues σ) (kind : Kind) (c : ℕ) (n : Node) :
    OnlyValues (σ.setNode kind c n) := by
  obtain ⟨hcharacteristics, hdescriptors⟩ := ValuesInv.content_setNode σ kind c n
  refine honly.congr (ValuesInv.valueSlot_congr hcharacteristics hdescriptors) ?_ ?_
  · rw [State.setNode_finalised]
  · rw [State.setNode_buffers]

theorem OnlyValues.setChildren (honly : OnlyValues σ) (kind : Kind) (p : ℕ)
    (children : Children) : OnlyValues (σ.setChildren kind p children) := by
  obtain ⟨hcharacteristics, hdescriptors⟩ := ValuesInv.content_setChildren σ kind p children
  refine honly.congr (ValuesInv.valueSlot_congr hcharacteristics hdescriptors) ?_ ?_
  · rw [State.setChildren_finalised]
  · rw [State.setChildren_buffers]

/-- A change that is not about values keeps them where they are, or finalises an object. -/
theorem Change.onlyValues {op : Op} (hop : ¬ op.OnValues) (hchange : Change op σ σ')
    (hpointers : PointersInv σ) (honly : OnlyValues σ) : OnlyValues σ' := by
  cases hchange with
  | createDevice => exact honly
  | createService => exact honly
  | createCharacteristic =>
    refine honly.congr
      (ValuesInv.valueSlot_append rfl (List.append_nil _).symm ?_ (by simp)) rfl rfl
    intro x hx
    rw [List.mem_singleton.mp hx]
    rfl
  | createDescriptor =>
    refine honly.congr
      (ValuesInv.valueSlot_append (List.append_nil _).symm rfl (by simp) ?_) rfl rfl
    intro x hx
    rw [List.mem_singleton.mp hx]
    rfl
  | refused _ _ =>
    have hstrings : ∀ strings, OnlyValues { σ with strings } := fun _ => honly
    exact (hstrings _).setNode _ _ _
  | added _ _ =>
    have hbus : ∀ strings bus, OnlyValues { σ with strings, bus } := fun _ _ => honly
    exact ((hbus _ _).setNode _ _ _).setChildren _ _ _
  | controller hinit =>
    obtain ⟨x, vc, oc, co, cc, -, rfl, -⟩ := deviceInitController_spec hinit
    exact honly
  | registered _ _ => exact honly
  | requested => exact honly
  | asked => exact honly
  | advertised hinit =>
    obtain ⟨x, strings, a, i, j, k, -, rfl, -⟩ := deviceInitAdvertisement_spec hinit
    exact honly
  | listed _ _ =>
    rw [State.listDevice_eq]
    exact honly
  | valued hvalues _ => exact absurd hvalues hop
  | answered hreply =>
    obtain rfl := onRegisterApplicationReply_spec hreply
    exact honly
  | advertAnswered hreply =>
    obtain ⟨x, -, rfl⟩ := onRegisterAdvertReply_spec hreply
    exact honly
  | reused => exact honly
  | finalised hfini =>
    obtain ⟨-, -, oc, rfl⟩ := hpointers.finiObject_spec hfini
    exact honly.finalised rfl rfl rfl

/-- A call of `setValue` in this step loses no block. -/
def SetsWithoutLeak (op : Op) (σ : State) : Prop :=
  match op with
  | .setValue _ v t => ¬ Leaks σ.buffers v t
  | _ => True

/-- A step that loses no block leaves only the values allocated. -/
theorem exec_onlyValues {op : Op} {r : Reply} (hpointers : PointersInv σ) (hinv : ValuesInv σ)
    (honly : OnlyValues σ) (hop : SetsWithoutLeak op σ) (h : exec op σ = .ok (r, σ')) :
    OnlyValues σ' := by
  by_cases hvalues : op.OnValues
  swap
  · -- every change on the way keeps all three invariants
    have hchange : ∀ σ σ', Change op σ σ' → PointersInv σ ∧ OnlyValues σ →
        PointersInv σ' ∧ OnlyValues σ' := by
      intro σ σ' hchange ⟨hpointers, honly⟩
      exact ⟨hpointers.change hchange, hchange.onlyValues hvalues hpointers honly⟩
    exact ((exec_changes h).invariant hchange ⟨hpointers, honly⟩).2
  cases op with
  | setNotifying c notifying =>
    obtain ⟨σ₁, hset, h⟩ := bind_eq_ok.mp h
    cases h
    obtain ⟨hslot, hfin, hbuffers⟩ := characteristicSetNotifying_valueSlot hset
    exact honly.congr hslot hfin (congrArg Heap.live hbuffers)
  | setValue c v t =>
    obtain ⟨⟨exit, σ₁⟩, hset, h⟩ := bind_eq_ok.mp h
    cases h
    exact ((luaiCharacteristicSetValue_noLeak hinv hset).2 hop).onlyValues honly
  | deliver object message =>
    simp only [exec, ite_eq_ok, bind_eq_ok] at h
    obtain ⟨-, ⟨result, request, σ₁⟩, hhandle, h⟩ | ⟨-, h⟩ := h
    · cases h
      exact dbusutilsObjectHandleMessage_onlyValues hinv honly hhandle
    · cases h
      exact honly
  | _ => exact absurd hvalues id

/-- Only the values are allocated after every run in which `setValue` loses no block. -/
theorem onlyValues_of_run {σ₀ : State} (hinit : σ₀.IsInitial) {ops : List Op}
    {replies : List Reply} (hall : AllSteps exec SetsWithoutLeak ops σ₀)
    (hrun : execAll ops σ₀ = .ok (replies, σ)) : OnlyValues σ := by
  have hstart : OnlyValues σ₀ := by
    obtain ⟨strings, buffers, fails, outOfMemory, rfl⟩ := hinit
    intro id hid
    exact absurd hid (Finset.notMem_empty id)
  have hreach : Reachable σ₀ := ⟨σ₀, [], [], hinit, by simp, rfl⟩
  have hstep : ∀ op σ r σ', SetsWithoutLeak op σ → Reachable σ ∧ OnlyValues σ →
      exec op σ = .ok (r, σ') → Reachable σ' ∧ OnlyValues σ' := by
    intro op σ r σ' hop ⟨hreach, honly⟩ hexec
    exact ⟨hreach.step op trivial hexec, exec_onlyValues (PointersInv.of_reachable hreach)
      (ValuesInv.of_reachable hreach) honly hop hexec⟩
  exact (AllSteps.invariant hstep hall ⟨hreach, hstart⟩ hrun).2

end Runs

/-- After any run, a call of `setValue` keeps no block but the value exactly when its value is
neither a string that is copied, nor a table with an item that is not taken and loses a block; and
if no call of the run has lost one, the values are all that is allocated. -/
theorem noLeak_iff {σ₀ σ : State} {ops : List Op} {replies : List Reply} (hinit : σ₀.IsInitial)
    (hrun : execAll ops σ₀ = .ok (replies, σ)) :
    (∀ (c : ℕ) (v t : LuaValue) (exit : LuaExit Bool) (σ' : State),
      luaiCharacteristicSetValue c v t σ = .ok (exit, σ') →
        (NoLeak σ σ' c ↔ ¬ Leaks σ.buffers v t)) ∧
    (AllSteps exec SetsWithoutLeak ops σ₀ → OnlyValues σ) := by
  constructor
  · intro c v t exit σ' hset
    have hreach : Reachable σ := ⟨σ₀, ops, replies, hinit, fun _ _ => trivial, hrun⟩
    exact (luaiCharacteristicSetValue_noLeak (ValuesInv.of_reachable hreach) hset).1
  · intro hall
    exact onlyValues_of_run hinit hall hrun

/-- A number loses nothing. -/
theorem not_leaks_integer (buffers : Heap Bytes) (i : Int64) (t : LuaValue) :
    ¬ Leaks buffers (.integer i) t := by
  rintro ⟨type, -, hloses⟩
  exact not_loses_none hloses

/-- The theorem where a number has been stored as `UINT8` and is followed by another one. -/
theorem noLeak_iff_uint8 :
    ∃ replies σ, execAll [.createCharacteristic "2A19".toList,
        .setValue 0 (.integer 5) (.integer 2)] State.empty = .ok (replies, σ) ∧ OnlyValues σ ∧
      ∃ exit σ', luaiCharacteristicSetValue 0 (.integer 6) (.integer 2) σ = .ok (exit, σ') ∧
        NoLeak σ σ' 0 := by
  have hok : ((execAll [.createCharacteristic "2A19".toList, .setValue 0 (.integer 5) (.integer 2)]
      State.empty).bind fun (_, σ) =>
        luaiCharacteristicSetValue 0 (.integer 6) (.integer 2) σ).isOk = true := by decide
  obtain ⟨⟨exit, σ'⟩, hboth⟩ := exists_of_isOk hok
  obtain ⟨⟨replies, σ⟩, hrun, hset⟩ := bind_eq_ok.mp hboth
  obtain ⟨hnoLeak, hvalues⟩ := noLeak_iff State.isInitial_empty hrun
  refine ⟨replies, σ, hrun, hvalues ⟨trivial, not_leaks_integer _ _ _, ?_⟩, exit, σ', hset,
    (hnoLeak 0 _ _ exit σ' hset).mpr (not_leaks_integer _ _ _)⟩
  split
  · trivial
  · trivial

/-- The copy of a string stays allocated. -/
theorem not_noLeak_string : ¬ ∀ (σ : State) (c : ℕ) (v t : LuaValue) (exit : LuaExit Bool)
    (σ' : State), Reachable σ → luaiCharacteristicSetValue c v t σ = .ok (exit, σ') →
      NoLeak σ σ' c := by
  intro h
  have hreach : Reachable (State.after [.createCharacteristic "2A19".toList]) :=
    State.reachable_after (by decide) fun _ _ => trivial
  have hok : (luaiCharacteristicSetValue 0 (.string [0x68, 0x69]) (.integer 11)
      (State.after [.createCharacteristic "2A19".toList])).isOk = true := by decide
  obtain ⟨⟨exit, σ'⟩, hrun⟩ := exists_of_isOk hok
  have hnot := (luaiCharacteristicSetValue_noLeak (ValuesInv.of_reachable hreach) hrun).1.mp
    (h _ 0 _ _ exit σ' hreach hrun)
  exact hnot ⟨11, by decide, loses_some.mpr (by decide)⟩

end BleSim
