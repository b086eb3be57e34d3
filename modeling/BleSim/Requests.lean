import BleSim.ConversionTheorems

/-!
# What conversions come to

A conversion asks for a block for every number, boolean or string it comes to, and a table for
one more. Whichever of these requests fail, a conversion that returns either hands out the bytes
the value stands for, or there are no such bytes or one of the requests has failed. A conversion
that overruns no block returns, and so converts as it should when memory does not run out.
-/

namespace BleSim

open Outcomes WriteOnce DBusValue

/-! ## When memory runs out -/

/-- How many blocks converting a value takes. -/
def conversionRequests : LuaValue → ℕ
  | .table items => 1 + (items.takeWhile LuaValue.isSome).length
  | _ => 1

/-- What a conversion comes to when it takes `n` requests to get to the given bytes: it hands them
out after that many requests, or there are no bytes or one of the requests fails. -/
def Yields (buffers : Heap Bytes) (n : ℕ) (converted : Option Bytes) :
    LuaExit (Option Converted) → Heap Bytes → Prop
  | .ret (some d), buffers' => buffers.Grants n ∧ buffers'.requests = buffers.requests + n ∧
      ∃ bytes, converted = some bytes ∧ Heap.New buffers buffers' d.data bytes ∧
        d.dataSize = bytes.length
  | _, _ => converted = none ∨ ¬ buffers.Grants n

/-- The same for the loop over a table, which hands out the number of items and their bytes. -/
def ItemsYield (buffers : Heap Bytes) (n : ℕ) (accepted : Bool) (count : ℕ) (stored : Bytes) :
    LuaExit (Option (ℕ × Bytes)) → Heap Bytes → Prop
  | .ret (some r), buffers' => buffers.Grants n ∧ buffers'.requests = buffers.requests + n ∧
      accepted = true ∧ r = (count, stored)
  | _, _ => accepted = false ∨ ¬ buffers.Grants n

section Scalars

variable {buffers buffers' : Heap Bytes} {exit : LuaExit (Option Converted)}

theorem mallocAndCopy_yields {allocated : ℕ} {val : Bytes}
    (h : mallocAndCopy allocated val buffers = .ok (exit, buffers')) :
    Yields buffers 1 (some val) exit buffers' := by
  by_cases hnull : (buffers.tryAlloc val).1 = .null
  · simp only [mallocAndCopy, hnull, ↓reduceIte] at h
    cases h
    exact Or.inr (Heap.tryAlloc_eq_null.mp hnull)
  · have hnew := (Heap.tryAlloc_cases buffers val).resolve_left hnull
    have hgrants : buffers.Grants 1 := not_not.mp (mt Heap.tryAlloc_eq_null.mpr hnull)
    simp only [mallocAndCopy, hnull, ↓reduceIte, ite_eq_ok] at h
    obtain ⟨-, h⟩ | ⟨-, h⟩ := h
    · cases h
      exact ⟨hgrants, Heap.tryAlloc_requests _ _, val, rfl, hnew, rfl⟩
    · cases h

theorem luaiLuaNumberToOpcUaDataType_yields {type : BleDataType} {v : LuaValue}
    (h : luaiLuaNumberToOpcUaDataType v type.code buffers = .ok (exit, buffers')) :
    Yields buffers 1 (if type.isNumeric then some (encodeNumber type v) else none) exit
      buffers' := by
  unfold luaiLuaNumberToOpcUaDataType at h
  rw [BleDataType.ofCode_code] at h
  cases type with
  | bool | string =>
    cases h
    exact Or.inl rfl
  | _ => exact mallocAndCopy_yields h

/-- A boolean, a number or a string takes one request. -/
theorem luaiLuaDataArgToBleDataType_yields {type : BleDataType} {v : LuaValue}
    (h : luaiLuaDataArgToBleDataType v type.code buffers = .ok (exit, buffers')) :
    Yields buffers 1 (convertedScalar type v) exit buffers' := by
  cases v with
  | boolean b =>
    simp only [luaiLuaDataArgToBleDataType, ite_eq_ok] at h
    by_cases htype : type = .bool
    · subst htype
      obtain ⟨hcode, -⟩ | ⟨-, h⟩ := h
      · exact absurd rfl hcode
      · exact mallocAndCopy_yields h
    · have hnone : convertedScalar type (.boolean b) = none := by
        simp [convertedScalar, acceptsScalar, htype]
      have hcode := BleDataType.code_injective.ne htype
      obtain ⟨-, h⟩ | ⟨hsame, -⟩ := h
      · cases h
        exact Or.inl hnone
      · exact absurd hcode hsame
  | integer i =>
    rw [convertedScalar_number type rfl]
    exact luaiLuaNumberToOpcUaDataType_yields h
  | float bits =>
    rw [convertedScalar_number type rfl]
    exact luaiLuaNumberToOpcUaDataType_yields h
  | string s =>
    cases h
    exact Or.inl (by simp [convertedScalar, acceptsScalar])
  | nil | table | other =>
    cases h
    exact Or.inl rfl

end Scalars

/-- A table takes one request for every item it comes to. -/
theorem luaiGetArrayItems_yields {type : BleDataType} (hstring : type ≠ .string)
    {typeSize capacity : ℕ} (hsize : bleDataTypeSize[type.code.toNat]? = some typeSize)
    {buf : Ptr Bytes} (items : List LuaValue) :
    ∀ {count : ℕ} {stored : Bytes} {buffers buffers' : Heap Bytes}
      {exit : LuaExit (Option (ℕ × Bytes))},
      luaiGetArrayItems type.code typeSize capacity buf items count stored buffers =
        .ok (exit, buffers') →
      ItemsYield buffers (items.takeWhile LuaValue.isSome).length
        ((items.takeWhile LuaValue.isSome).all (acceptsScalar type))
        (count + (items.takeWhile LuaValue.isSome).length)
        (stored ++ (items.takeWhile LuaValue.isSome).flatMap (encodeScalar type)) exit
        buffers' := by
  induction items with
  | nil =>
    intro count stored buffers buffers' exit h
    cases h
    exact ⟨fun i hi => absurd hi (Nat.not_lt_zero i), rfl, rfl, by simp⟩
  | cons item rest ih =>
    intro count stored buffers buffers' exit h
    by_cases hnil : item.isSome = true
    swap
    · cases item with
      | nil =>
        cases h
        exact ⟨fun i hi => absurd hi (Nat.not_lt_zero i), rfl, rfl, by simp [LuaValue.isSome]⟩
      | _ => exact absurd rfl hnil
    rw [List.takeWhile_cons_of_pos hnil, List.all_cons, List.length_cons, Nat.add_comm _ 1]
    by_cases htable : ∃ items, item = .table items
    · obtain ⟨items, rfl⟩ := htable
      cases h
      exact Or.inl rfl
    rw [luaiGetArrayItems_cons hnil (not_exists.mp htable)] at h
    obtain ⟨⟨exit₁, buffers₁⟩, hitem, h⟩ := bind_eq_ok.mp h
    have hyields := luaiLuaDataArgToBleDataType_yields hitem
    have hok := luaiLuaDataArgToBleDataType_ok hitem
    -- an item that is not handed out ends the loop
    have hrefused : convertedScalar type item = none ∨ ¬ buffers.Grants 1 →
        (acceptsScalar type item && (rest.takeWhile LuaValue.isSome).all (acceptsScalar type)) =
          false ∨ ¬ buffers.Grants (1 + (rest.takeWhile LuaValue.isSome).length) := by
      rintro (hnone | hfails)
      · have hrefuses : acceptsScalar type item = false := by
          simpa [convertedScalar, hstring] using hnone
        exact Or.inl (by rw [hrefuses, Bool.false_and])
      · exact Or.inr fun hgrants => hfails fun i hi => hgrants i (by omega)
    cases exit₁ with
    | raise =>
      cases h
      exact hrefused hyields
    | ret result =>
      cases result with
      | none =>
        cases h
        exact hrefused hyields
      | some d =>
        obtain ⟨hgrants, hrequests, bytes, hconverted, hnew, hlength⟩ := hyields
        obtain ⟨haccepts, -, rfl⟩ := acceptsScalar_of_converted hconverted
        have hitemsize := length_encodeScalar haccepts hstring hsize
        have htake : (encodeScalar type item).take typeSize = encodeScalar type item :=
          List.take_of_length_le (Nat.le_of_eq hitemsize)
        simp only [hlength.trans hitemsize, ne_eq, not_true_eq_false, ↓reduceIte, hnew.read, htake,
          ite_eq_ok] at h
        obtain ⟨-, h⟩ | ⟨-, h⟩ := h
        swap
        · cases h
        have hrest := ih h
        have hadd := Heap.grants_add
          ((Heap.free_fails buffers₁ d.data).trans hok.extend.fails)
          ((Heap.free_requests buffers₁ d.data).trans hrequests)
          (rest.takeWhile LuaValue.isSome).length
        rw [haccepts, Bool.true_and]
        cases exit with
        | raise => exact hrest.imp_right (mt fun hall => (hadd.mp hall).2)
        | ret result =>
          cases result with
          | none => exact hrest.imp_right (mt fun hall => (hadd.mp hall).2)
          | some r =>
            obtain ⟨hgrants', hrequests', hall, hr⟩ := hrest
            refine ⟨hadd.mpr ⟨hgrants, hgrants'⟩, ?_, hall, ?_⟩
            · rw [hrequests', Heap.free_requests, hrequests, Nat.add_assoc]
            · rw [hr, List.flatMap_cons, List.append_assoc, Nat.add_assoc]

section Convert

variable {buffers buffers' : Heap Bytes} {exit : LuaExit (Option Converted)}

/-- A table takes one request more than its items, for the buffer they are put into. -/
theorem luaiGetArray_yields {type : BleDataType} {items : List LuaValue}
    (h : luaiGetArray items type.code buffers = .ok (exit, buffers')) :
    Yields buffers (1 + (items.takeWhile LuaValue.isSome).length)
      (convertedBytes type.code (.table items)) exit buffers' := by
  by_cases hempty : items.length = 0
  · rw [luaiGetArray, if_pos hempty] at h
    cases h
    exact Or.inl (by simp [convertedBytes, acceptsValue, List.length_eq_zero_iff.mp hempty])
  by_cases hstring : type = .string
  · subst hstring
    rw [luaiGetArray, if_neg hempty, if_pos rfl] at h
    cases h
    exact Or.inl (by simp [convertedBytes])
  have hcode := BleDataType.code_injective.ne hstring
  obtain ⟨typeSize, hsize⟩ : ∃ typeSize, bleDataTypeSize[type.code.toNat]? = some typeSize := by
    cases type <;> exact ⟨_, rfl⟩
  by_cases hnull : (buffers.tryAlloc []).1 = .null
  · simp only [luaiGetArray, hempty, ↓reduceIte, hcode, hsize, hnull] at h
    cases h
    exact Or.inr fun hgrants => Heap.tryAlloc_eq_null.mp hnull fun i hi => hgrants i (by omega)
  have hgrants : buffers.Grants 1 := not_not.mp (mt Heap.tryAlloc_eq_null.mpr hnull)
  simp only [luaiGetArray, hempty, ↓reduceIte, hcode, hsize, hnull] at h
  obtain ⟨⟨exit₁, buffers₁⟩, hloop, h⟩ := bind_eq_ok.mp h
  have hyields := luaiGetArrayItems_yields hstring hsize items hloop
  have hadd := Heap.grants_add (Heap.Extends.tryAlloc buffers []).fails
    (Heap.tryAlloc_requests buffers []) (items.takeWhile LuaValue.isSome).length
  have hitems : items.isEmpty = false := by
    cases items with
    | nil => exact absurd rfl hempty
    | cons v rest => rfl
  have hconverted : convertedBytes type.code (.table items) =
      if (items.takeWhile LuaValue.isSome).all (acceptsScalar type) then
        some ((items.takeWhile LuaValue.isSome).flatMap (encodeScalar type)) else none := by
    simp [convertedBytes, acceptsValue, encodeValue, hitems, hstring]
  -- a loop that hands out nothing has come to a bad item, or a request of it has failed
  have hrefused : (items.takeWhile LuaValue.isSome).all (acceptsScalar type) = false ∨
        ¬ (buffers.tryAlloc []).2.Grants (items.takeWhile LuaValue.isSome).length →
      convertedBytes type.code (.table items) = none ∨
        ¬ buffers.Grants (1 + (items.takeWhile LuaValue.isSome).length) := by
    rintro (hall | hfails)
    · exact Or.inl (by rw [hconverted, hall]; rfl)
    · exact Or.inr fun hgrants => hfails (hadd.mp hgrants).2
  cases exit₁ with
  | raise =>
    cases h
    exact hrefused hyields
  | ret result =>
    cases result with
    | none =>
      cases h
      exact hrefused hyields
    | some r =>
      cases h
      obtain ⟨hgrants', hrequests, hall, rfl⟩ := hyields
      obtain ⟨-, hbuf⟩ := (luaiGetArrayItems_ok (Heap.Extends.tryAlloc buffers [])
        ((Heap.tryAlloc_cases buffers []).resolve_left hnull) (by simp) hloop).2 _ _ rfl
      refine ⟨hadd.mpr ⟨hgrants, hgrants'⟩, ?_, _, by rw [hconverted, if_pos hall], ?_, ?_⟩
      · rw [hrequests, Heap.tryAlloc_requests, Nat.add_assoc]
      · rw [List.nil_append]
        exact hbuf.fill _
      · rw [Nat.zero_add]
        exact (length_flatMap_encodeScalar hstring hsize hall).symm

/-- Whichever requests fail, a conversion that returns hands out the bytes the value stands for, or
there are none, or a request has failed. -/
theorem luaiConvert_yields {type : UInt32} {v : LuaValue}
    (h : luaiConvert v type buffers = .ok (exit, buffers')) :
    Yields buffers (conversionRequests v) (convertedBytes type v) exit buffers' := by
  cases hcode : BleDataType.ofCode type with
  | some T =>
    have htype := BleDataType.eq_code_of_ofCode hcode
    subst htype
    have hscalar : (∀ items, v ≠ .table items) → convertedBytes T.code v = convertedScalar T v := by
      intro htable
      simp only [convertedBytes, BleDataType.ofCode_code]
      cases v with
      | table items => exact absurd rfl (htable items)
      | _ => rfl
    cases v with
    | table items => exact luaiGetArray_yields h
    | _ =>
      rw [hscalar (by simp)]
      exact luaiLuaDataArgToBleDataType_yields h
  | none =>
    have hnone : convertedBytes type v = none := by simp [convertedBytes, hcode]
    have hcodes := BleDataType.ne_code_of_ofCode hcode
    -- beyond the data types numbers raise an error, and the table of sizes ends before them
    have hrefused : ∀ d, exit ≠ .ret (some d) := by
      rintro d rfl
      cases v with
      | nil | string | other => cases h
      | boolean b =>
        rw [luaiConvert, luaiLuaDataArgToBleDataType, if_pos (hcodes .bool)] at h
        · cases h
        · simp
      | integer i | float i =>
        simp only [luaiConvert, luaiLuaDataArgToBleDataType, luaiLuaNumberToOpcUaDataType,
          hcode] at h
        cases h
      | table items =>
        simp only [luaiConvert, luaiGetArray, hcodes .string, bleDataTypeSize_eq_none hcode,
          ite_eq_ok, ↓reduceIte, reduceCtorEq, and_false, or_false] at h
        obtain ⟨-, h⟩ := h
        cases h
    cases exit with
    | raise => exact Or.inl hnone
    | ret result =>
      cases result with
      | none => exact Or.inl hnone
      | some d => exact absurd rfl (hrefused d)

end Convert

/-! ## Inside the blocks -/

/-- A copy into a block of its size succeeds, or there was no memory for the block. -/
theorem mallocAndCopy_isOk {allocated : ℕ} {val : Bytes} (hfits : val.length ≤ allocated)
    (buffers : Heap Bytes) : ∃ r, mallocAndCopy allocated val buffers = .ok r := by
  unfold mallocAndCopy
  dsimp only
  split_ifs
  · exact ⟨_, rfl⟩
  · exact ⟨_, rfl⟩

/-- The blocks of all data types but `INT32` are large enough. -/
theorem luaiLuaNumberToOpcUaDataType_isOk {type : BleDataType} (hint32 : type ≠ .int32)
    (v : LuaValue) (buffers : Heap Bytes) :
    ∃ r, luaiLuaNumberToOpcUaDataType v type.code buffers = .ok r := by
  unfold luaiLuaNumberToOpcUaDataType
  rw [BleDataType.ofCode_code]
  cases type <;> first
    | exact absurd rfl hint32
    | exact mallocAndCopy_isOk (by rw [length_leBytes]) buffers
    | exact ⟨_, rfl⟩

theorem luaiLuaDataArgToBleDataType_isOk {type : BleDataType} {v : LuaValue}
    (hint32 : type = .int32 → v.isNumber = false) (buffers : Heap Bytes) :
    ∃ r, luaiLuaDataArgToBleDataType v type.code buffers = .ok r := by
  have hnumber : v.isNumber = true → type ≠ .int32 := by
    intro hv htype
    rw [hint32 htype] at hv
    cases hv
  cases v with
  | boolean b =>
    unfold luaiLuaDataArgToBleDataType
    dsimp only
    split_ifs
    · exact ⟨_, rfl⟩
    · exact mallocAndCopy_isOk (Nat.le_refl 1) buffers
  | integer i => exact luaiLuaNumberToOpcUaDataType_isOk (hnumber rfl) _ buffers
  | float bits => exact luaiLuaNumberToOpcUaDataType_isOk (hnumber rfl) _ buffers
  | _ => exact ⟨_, rfl⟩

/-- Every item of a table is stored inside the buffer for the table. -/
theorem luaiGetArrayItems_isOk {type : BleDataType} {buf : Ptr Bytes} (typeSize : ℕ)
    {capacity : ℕ} (items : List LuaValue) :
    ∀ (count : ℕ) (stored : Bytes) (buffers : Heap Bytes),
      (count + items.length) * typeSize ≤ capacity →
      (∀ v rest, type = .int32 → items = v :: rest → v.isNumber = false) →
      ∃ r, luaiGetArrayItems type.code typeSize capacity buf items count stored buffers
        = .ok r := by
  induction items with
  | nil => exact fun _ _ _ _ _ => ⟨_, rfl⟩
  | cons item rest ih =>
    intro count stored buffers hcapacity hint32
    by_cases hplain : item.isSome = true ∧ ∀ items, item ≠ .table items
    · obtain ⟨⟨exit, buffers₁⟩, hitem⟩ :=
        luaiLuaDataArgToBleDataType_isOk (hint32 item rest · rfl) buffers
      rw [luaiGetArrayItems_cons hplain.1 hplain.2, hitem, ok_bind]
      cases exit with
      | raise => exact ⟨_, rfl⟩
      | ret d =>
        cases d with
        | none => exact ⟨_, rfl⟩
        | some d =>
          obtain ⟨hroom, hcapacity⟩ := room_for_item hcapacity
          dsimp only
          rw [if_pos hroom]
          split_ifs with hsize
          · exact ⟨_, rfl⟩
          · apply ih _ _ _ hcapacity
            -- an item was taken that is no number, so that the data type is not `INT32`
            intro v rest' htype _
            obtain ⟨-, -, bytes, hscalar, -⟩ := luaiLuaDataArgToBleDataType_yields hitem
            have haccepts := (acceptsScalar_of_converted hscalar).1
            have hrefuses := acceptsScalar_int32 (hint32 item rest htype rfl)
            rw [← htype, haccepts] at hrefuses
            cases hrefuses
    · cases item with
      | nil => exact ⟨_, rfl⟩
      | table items => exact ⟨_, rfl⟩
      | _ => exact absurd ⟨rfl, by simp⟩ hplain

/-- A table stays inside its buffer unless it starts with a number for `INT32`. -/
theorem luaiGetArray_isOk {type : BleDataType} {items : List LuaValue}
    (hint32 : type = .int32 → (LuaValue.table items).firstIsNumber = false)
    (buffers : Heap Bytes) : ∃ r, luaiGetArray items type.code buffers = .ok r := by
  obtain ⟨typeSize, hsize⟩ : ∃ typeSize, bleDataTypeSize[type.code.toNat]? = some typeSize := by
    cases type <;> exact ⟨_, rfl⟩
  unfold luaiGetArray
  dsimp only
  rw [hsize]
  have hfirst : ∀ v rest, type = .int32 → items = v :: rest → v.isNumber = false := by
    rintro v rest htype rfl
    exact hint32 htype
  obtain ⟨⟨exit, buffers₁⟩, hloop⟩ := luaiGetArrayItems_isOk typeSize items 0 []
    (buffers.tryAlloc []).2 (Nat.le_of_eq (by rw [Nat.zero_add])) hfirst
  split_ifs with hempty hstring hnull
  · exact ⟨_, rfl⟩
  · exact ⟨_, rfl⟩
  · exact ⟨_, rfl⟩
  · dsimp only
    rw [hloop, ok_bind]
    cases exit with
    | raise => exact ⟨_, rfl⟩
    | ret r =>
      cases r with
      | none => exact ⟨_, rfl⟩
      | some r => exact ⟨_, rfl⟩

/-- A conversion that does not overrun its blocks returns, whichever requests fail. -/
theorem luaiConvert_isOk {type : UInt32} {v : LuaValue} (hsafe : overruns type v = false)
    (buffers : Heap Bytes) : ∃ r, luaiConvert v type buffers = .ok r := by
  cases hcode : BleDataType.ofCode type with
  | some T =>
    have htype := BleDataType.eq_code_of_ofCode hcode
    subst htype
    have hint32 : T = .int32 → v.isNumber = false ∧ v.firstIsNumber = false := by
      rintro rfl
      simpa [overruns, convertsInt32] using hsafe
    cases v with
    | table items => exact luaiGetArray_isOk (fun htype => (hint32 htype).2) buffers
    | _ => exact luaiLuaDataArgToBleDataType_isOk (fun htype => (hint32 htype).1) buffers
  | none =>
    have hnumber : ∀ w, luaiLuaNumberToOpcUaDataType w type buffers = .ok (.raise, buffers) := by
      intro w
      simp only [luaiLuaNumberToOpcUaDataType, hcode]
    cases v with
    | boolean b =>
      exact ⟨_, if_pos (BleDataType.ne_code_of_ofCode hcode .bool)⟩
    | integer i => exact ⟨_, hnumber _⟩
    | float bits => exact ⟨_, hnumber _⟩
    | table items =>
      have hempty : items = [] := by simpa [overruns, hcode] using hsafe
      subst hempty
      exact ⟨_, rfl⟩
    | _ => exact ⟨_, rfl⟩

/-! ## When memory does not run out -/

/-- A conversion to the given bytes, or a refusal. -/
def Converts (buffers : Heap Bytes) (run : Conversion) : Option Bytes → Prop
  | some bytes => ∃ d buffers', run = .ok (.ret (some d), buffers') ∧ buffers.Extends buffers' ∧
      Heap.New buffers buffers' d.data bytes ∧ d.dataSize = bytes.length
  | none => ∃ exit buffers', run = .ok (exit, buffers') ∧ buffers.Extends buffers' ∧
      (exit = .raise ∨ exit = .ret none)

section NeverFails

variable {buffers : Heap Bytes} (hf : buffers.NeverFails)
include hf

/-- Where every request is granted, what a conversion yields is the bytes, or there are none. -/
theorem Yields.converts {n : ℕ} {converted : Option Bytes} {exit : LuaExit (Option Converted)}
    {buffers' : Heap Bytes} (hyields : Yields buffers n converted exit buffers')
    (hok : ConversionOk buffers exit buffers') {run : Conversion}
    (hrun : run = .ok (exit, buffers')) : Converts buffers run converted := by
  have hgrants := not_not.mpr (hf.grants n)
  cases exit with
  | raise =>
    have hnone : converted = none := hyields.resolve_right hgrants
    subst hnone
    exact ⟨.raise, buffers', hrun, hok.extend, Or.inl rfl⟩
  | ret result =>
    cases result with
    | none =>
      have hnone : converted = none := hyields.resolve_right hgrants
      subst hnone
      exact ⟨.ret none, buffers', hrun, hok.extend, Or.inr rfl⟩
    | some d =>
      obtain ⟨-, -, bytes, rfl, hnew, hlength⟩ := hyields
      exact ⟨d, buffers', hrun, hok.extend, hnew, hlength⟩

/-- A scalar that is no number for `INT32` is converted to its encoding when the data type takes
it, and strings never are. -/
theorem luaiLuaDataArgToBleDataType_converts {type : BleDataType} {v : LuaValue}
    (hint32 : type = .int32 → v.isNumber = false) :
    Converts buffers (luaiLuaDataArgToBleDataType v type.code buffers)
      (convertedScalar type v) := by
  obtain ⟨⟨exit, buffers'⟩, hrun⟩ := luaiLuaDataArgToBleDataType_isOk hint32 buffers
  have hyields := luaiLuaDataArgToBleDataType_yields hrun
  exact hyields.converts hf (luaiLuaDataArgToBleDataType_ok hrun) hrun

/-- Converting a value that leaves no block yields the bytes it stands for, or a refusal. -/
theorem luaiConvert_converts {type : UInt32} {v : LuaValue} (hsafe : overruns type v = false) :
    Converts buffers (luaiConvert v type buffers) (convertedBytes type v) := by
  obtain ⟨⟨exit, buffers'⟩, hrun⟩ := luaiConvert_isOk hsafe buffers
  have hyields := luaiConvert_yields hrun
  exact hyields.converts hf (luaiConvert_ok hrun) hrun

end NeverFails

end BleSim
