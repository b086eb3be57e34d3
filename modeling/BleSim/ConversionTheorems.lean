import BleSim.LuaInterface

/-!
# Conversion of Lua values

`acceptsValue` says which values a data type takes and `encodeValue` what their bytes are. The
converters of the script interface are to agree with both, except that they turn away every
string. They only allocate, but converting a number to `INT32` writes beyond its block.
-/

namespace BleSim

open Outcomes WriteOnce DBusValue

/-! ## The intended conversion -/

/-- Whether a value is a number. -/
def LuaValue.isNumber : LuaValue → Bool
  | .integer _ | .float _ => true
  | _ => false

/-- Whether a value is a string. -/
def LuaValue.isString : LuaValue → Bool
  | .string _ => true
  | _ => false

/-- Whether a value is not nil. -/
def LuaValue.isSome : LuaValue → Bool
  | .nil => false
  | _ => true

/-- The data types of numbers. -/
def BleDataType.isNumeric : BleDataType → Bool
  | .bool | .string => false
  | _ => true

/-- Which booleans, numbers and strings a data type takes. -/
def acceptsScalar (type : BleDataType) : LuaValue → Bool
  | .boolean _ => type == .bool
  | .integer _ | .float _ => type.isNumeric
  | .string _ => type == .string
  | _ => false

/-- Which values a data type takes: a table is taken when it is not empty and all its items
before the first nil are. -/
def acceptsValue (type : BleDataType) : LuaValue → Bool
  | .table items =>
    !items.isEmpty && type != .string &&
      (items.takeWhile LuaValue.isSome).all (acceptsScalar type)
  | v => acceptsScalar type v

/-- The encoding of a number in the width of a data type. -/
def encodeNumber (type : BleDataType) (v : LuaValue) : Bytes :=
  let integer := (luaToInteger v).toUInt64.toNat
  match type with
  | .int8 | .uint8 => leBytes 1 integer
  | .int16 | .uint16 => leBytes 2 integer
  | .int32 | .uint32 => leBytes 4 integer
  | .int64 | .uint64 => leBytes 8 integer
  | .float => leBytes 4 (castToFloat (luaToNumber v)).toNat
  | .double => leBytes 8 (luaToNumber v).toNat
  | .bool | .string => []

/-- The encoding of a boolean, a number or a string. -/
def encodeScalar (type : BleDataType) : LuaValue → Bytes
  | .boolean b => [b.toUInt8]
  | .integer i => encodeNumber type (.integer i)
  | .float bits => encodeNumber type (.float bits)
  | .string s => s
  | _ => []

/-- The encoding of a value: of a table, those of its items before the first nil. -/
def encodeValue (type : BleDataType) : LuaValue → Bytes
  | .table items => (items.takeWhile LuaValue.isSome).flatMap (encodeScalar type)
  | v => encodeScalar type v

/-- The first item of a table. -/
def LuaValue.firstIsNumber : LuaValue → Bool
  | .table (v :: _) => v.isNumber
  | _ => false

/-- Whether a number is converted to `INT32`. -/
def convertsInt32 (type : BleDataType) (v : LuaValue) : Bool :=
  type == .int32 && (v.isNumber || v.firstIsNumber)

/-- Whether converting a value leaves the blocks it was given: a number is converted to `INT32`,
or a table to a data type beyond the table of sizes. -/
def overruns (type : UInt32) (v : LuaValue) : Bool :=
  match BleDataType.ofCode type, v with
  | some type, v => convertsInt32 type v
  | none, .table items => !items.isEmpty
  | none, _ => false

/-- The bytes a scalar is converted to, if it is: strings are turned away. -/
def convertedScalar (type : BleDataType) (v : LuaValue) : Option Bytes :=
  if acceptsScalar type v ∧ type ≠ .string then some (encodeScalar type v) else none

/-- The bytes a value is converted to, if it is: strings are turned away. -/
def convertedBytes (type : UInt32) (v : LuaValue) : Option Bytes :=
  match BleDataType.ofCode type with
  | none => none
  | some type => if acceptsValue type v ∧ type ≠ .string then some (encodeValue type v) else none

/-! ### The codes of the data types -/

theorem BleDataType.eq_code_of_ofCode {code : UInt32} {type : BleDataType}
    (h : BleDataType.ofCode code = some type) : code = type.code := by
  have := List.find?_some h
  simpa using (beq_iff_eq.mp this).symm

/-- A code that is none is not the code of any data type. -/
theorem BleDataType.ne_code_of_ofCode {code : UInt32} (h : BleDataType.ofCode code = none)
    (type : BleDataType) : code ≠ type.code := by
  rintro rfl
  rw [BleDataType.ofCode_code] at h
  cases h

theorem BleDataType.code_injective : Function.Injective BleDataType.code := by
  intro type type' h
  have hcode := BleDataType.ofCode_code type
  rw [h, BleDataType.ofCode_code] at hcode
  exact (Option.some.inj hcode).symm

/-! ### The bytes of a value -/

/-- What a data type takes is encoded in as many bytes as the table of sizes says. -/
theorem length_encodeScalar {type : BleDataType} {v : LuaValue} (h : acceptsScalar type v)
    (hstring : type ≠ .string) {typeSize : ℕ}
    (hsize : bleDataTypeSize[type.code.toNat]? = some typeSize) :
    (encodeScalar type v).length = typeSize := by
  have hnumber : ∀ w, type.isNumeric = true →
      bleDataTypeSize[type.code.toNat]? = some (encodeNumber type w).length := by
    intro w hnumeric
    cases type with
    | bool => cases hnumeric
    | string => cases hnumeric
    | _ =>
      simp only [encodeNumber, length_leBytes]
      rfl
  have hlength : bleDataTypeSize[type.code.toNat]? = some (encodeScalar type v).length := by
    cases v with
    | boolean b =>
      have htype : type = .bool := by simpa [acceptsScalar] using h
      subst htype
      rfl
    | integer i => exact hnumber _ h
    | float bits => exact hnumber _ h
    | string s => simp [acceptsScalar] at h; exact absurd h hstring
    | nil => cases h
    | table items => cases h
    | other => cases h
  exact Option.some.inj (hlength.symm.trans hsize)

/-- A number is taken by the data types of numbers. -/
theorem convertedScalar_number (type : BleDataType) {v : LuaValue} (hv : v.isNumber = true) :
    convertedScalar type v = if type.isNumeric then some (encodeNumber type v) else none := by
  cases v with
  | integer i => cases type <;> rfl
  | float bits => cases type <;> rfl
  | _ => cases hv

/-- What is converted is taken, and converted to its encoding. -/
theorem acceptsScalar_of_converted {T : BleDataType} {v : LuaValue} {bytes : Bytes}
    (h : convertedScalar T v = some bytes) :
    acceptsScalar T v = true ∧ T ≠ .string ∧ encodeScalar T v = bytes := by
  unfold convertedScalar at h
  split_ifs at h with hboth
  exact ⟨hboth.1, hboth.2, Option.some.inj h⟩

/-- The encodings of values of one data type are all equally long. -/
theorem length_flatMap_encodeScalar {type : BleDataType} (hstring : type ≠ .string) {typeSize : ℕ}
    (hsize : bleDataTypeSize[type.code.toNat]? = some typeSize) {items : List LuaValue}
    (h : items.all (acceptsScalar type) = true) :
    (items.flatMap (encodeScalar type)).length = items.length * typeSize := by
  induction items with
  | nil => simp
  | cons v items ih =>
    rw [List.all_cons, Bool.and_eq_true] at h
    have hv := length_encodeScalar h.1 hstring hsize
    rw [List.flatMap_cons, List.length_append, List.length_cons, ih h.2, hv, Nat.succ_mul,
      Nat.add_comm]

/-! ## What every conversion does -/

/-- A conversion only allocates, and hands out a new block with as many bytes as it says. -/
structure ConversionOk (buffers : Heap Bytes) (exit : LuaExit (Option Converted))
    (buffers' : Heap Bytes) : Prop where
  extend : buffers.Extends buffers'
  data : ∀ d, exit = .ret (some d) → ∃ bytes, Heap.New buffers buffers' d.data bytes ∧
    d.dataSize = bytes.length

theorem mallocAndCopy_ok {allocated : ℕ} {val : Bytes} {buffers buffers' : Heap Bytes}
    {exit : LuaExit (Option Converted)}
    (h : mallocAndCopy allocated val buffers = .ok (exit, buffers')) :
    ConversionOk buffers exit buffers' := by
  have hext := Heap.Extends.tryAlloc buffers val
  rcases Heap.tryAlloc_cases buffers val with hnull | hnew
  · simp only [mallocAndCopy, hnull, ↓reduceIte, Except.ok.injEq, Prod.mk.injEq] at h
    obtain ⟨rfl, rfl⟩ := h
    exact ⟨hext, fun d hd => by cases hd⟩
  · simp only [mallocAndCopy, hnew.ne_null, ↓reduceIte, ite_eq_ok, Except.ok.injEq,
      Prod.mk.injEq, reduceCtorEq, and_false, or_false] at h
    obtain ⟨-, rfl, rfl⟩ := h
    refine ⟨hext, fun d hd => ?_⟩
    cases hd
    exact ⟨val, hnew, rfl⟩

theorem luaiLuaNumberToOpcUaDataType_ok {v : LuaValue} {type : UInt32}
    {buffers buffers' : Heap Bytes} {exit : LuaExit (Option Converted)}
    (h : luaiLuaNumberToOpcUaDataType v type buffers = .ok (exit, buffers')) :
    ConversionOk buffers exit buffers' := by
  unfold luaiLuaNumberToOpcUaDataType at h
  dsimp only at h
  split at h
  case h_11 =>
    cases h
    exact ⟨.refl _, fun d hd => by cases hd⟩
  all_goals exact mallocAndCopy_ok h

theorem luaiLuaDataArgToBleDataType_ok {v : LuaValue} {type : UInt32}
    {buffers buffers' : Heap Bytes} {exit : LuaExit (Option Converted)}
    (h : luaiLuaDataArgToBleDataType v type buffers = .ok (exit, buffers')) :
    ConversionOk buffers exit buffers' := by
  cases v with
  | boolean b =>
    simp only [luaiLuaDataArgToBleDataType, ite_eq_ok] at h
    rcases h with ⟨-, h⟩ | ⟨-, h⟩
    · cases h
      exact ⟨.refl _, fun d hd => by cases hd⟩
    · exact mallocAndCopy_ok h
  | integer i => exact luaiLuaNumberToOpcUaDataType_ok h
  | float bits => exact luaiLuaNumberToOpcUaDataType_ok h
  | string s =>
    simp only [luaiLuaDataArgToBleDataType, Except.ok.injEq, Prod.mk.injEq] at h
    obtain ⟨rfl, rfl⟩ := h
    exact ⟨.tryAlloc _ _, fun d hd => by cases hd⟩
  | nil => cases h; exact ⟨.refl _, fun d hd => by cases hd⟩
  | table items => cases h; exact ⟨.refl _, fun d hd => by cases hd⟩
  | other => cases h; exact ⟨.refl _, fun d hd => by cases hd⟩

/-- The loop over a table stores `typeSize` bytes for every item, and keeps the buffer until it
fails. -/
theorem luaiGetArrayItems_ok {type : UInt32} {typeSize capacity : ℕ} {buf : Ptr Bytes} {a : Bytes}
    {h buffers' : Heap Bytes} {exit : LuaExit (Option (ℕ × Bytes))} :
    ∀ {items : List LuaValue} {count : ℕ} {stored : Bytes} {buffers : Heap Bytes},
      h.Extends buffers → Heap.New h buffers buf a → stored.length = count * typeSize →
      luaiGetArrayItems type typeSize capacity buf items count stored buffers
        = .ok (exit, buffers') →
      h.Extends buffers' ∧ ∀ n bytes, exit = .ret (some (n, bytes)) →
        bytes.length = n * typeSize ∧ Heap.New h buffers' buf a := by
  intro items
  induction items with
  | nil =>
    intro count stored buffers hext hbuf hlen hrun
    cases hrun
    exact ⟨hext, fun n bytes hexit => by cases hexit; exact ⟨hlen, hbuf⟩⟩
  | cons item rest ih =>
    intro count stored buffers hext hbuf hlen hrun
    unfold luaiGetArrayItems at hrun
    split at hrun
    case h_1 heq => cases heq
    case h_2 =>
      cases hrun
      exact ⟨hext, fun n bytes hexit => by cases hexit; exact ⟨hlen, hbuf⟩⟩
    case h_3 =>
      cases hrun
      exact ⟨hext, fun n bytes hexit => by cases hexit⟩
    case h_4 heq =>
      cases heq
      obtain ⟨⟨exit₁, buffers₁⟩, hitem, hrun⟩ := bind_eq_ok.mp hrun
      have hok := luaiLuaDataArgToBleDataType_ok hitem
      have hext₁ := hext.trans hok.extend
      have hbuf₁ := hok.extend.keep hbuf
      dsimp only at hrun
      split at hrun
      · cases hrun
        exact ⟨hext₁, fun n bytes hexit => by cases hexit⟩
      · cases hrun
        exact ⟨hext₁.free hbuf₁, fun n bytes hexit => by cases hexit⟩
      · rename_i data dataSize
        obtain ⟨bytes, hnew, hsize⟩ := hok.data _ rfl
        simp only [ite_eq_ok] at hrun
        rcases hrun with ⟨-, hrun⟩ | ⟨hsame, ⟨-, hrun⟩ | ⟨-, hrun⟩⟩
        · cases hrun
          exact ⟨hext₁.free hbuf₁, fun n bytes hexit => by cases hexit⟩
        · refine ih (hext₁.free (hext.new hnew)) ((hok.extend.free hnew).keep hbuf) ?_ hrun
          have hlength : bytes.length = typeSize := by
            rw [← hsize]
            simpa using hsame
          rw [hnew.read, List.length_append, List.length_take, hlen, hlength, Nat.min_self,
            Nat.add_mul, Nat.one_mul]
        · cases hrun

theorem luaiGetArray_ok {items : List LuaValue} {type : UInt32} {buffers buffers' : Heap Bytes}
    {exit : LuaExit (Option Converted)}
    (h : luaiGetArray items type buffers = .ok (exit, buffers')) :
    ConversionOk buffers exit buffers' := by
  simp only [luaiGetArray, ite_eq_ok] at h
  rcases h with ⟨-, h⟩ | ⟨-, ⟨-, h⟩ | ⟨-, h⟩⟩
  · cases h
    exact ⟨.refl _, fun d hd => by cases hd⟩
  · cases h
    exact ⟨.refl _, fun d hd => by cases hd⟩
  · split at h
    · cases h
    · rename_i typeSize hsize
      have hext := Heap.Extends.tryAlloc buffers []
      simp only [ite_eq_ok] at h
      rcases h with ⟨-, h⟩ | ⟨hnull, h⟩
      · cases h
        exact ⟨hext, fun d hd => by cases hd⟩
      · obtain ⟨⟨exit₁, buffers₁⟩, hloop, h⟩ := bind_eq_ok.mp h
        have hbuf := (Heap.tryAlloc_cases buffers []).resolve_left hnull
        obtain ⟨hext₁, hdata⟩ := luaiGetArrayItems_ok hext hbuf (by simp) hloop
        dsimp only at h
        split at h
        · cases h
          exact ⟨hext₁, fun d hd => by cases hd⟩
        · cases h
          exact ⟨hext₁, fun d hd => by cases hd⟩
        · rename_i count stored
          cases h
          obtain ⟨hlen, hnew⟩ := hdata count stored rfl
          refine ⟨hext₁, fun d hd => ?_⟩
          cases hd
          exact ⟨stored, hnew.fill stored, hlen.symm⟩

/-- Every conversion that returns has only allocated. -/
theorem luaiConvert_ok {v : LuaValue} {type : UInt32} {buffers buffers' : Heap Bytes}
    {exit : LuaExit (Option Converted)} (h : luaiConvert v type buffers = .ok (exit, buffers')) :
    ConversionOk buffers exit buffers' := by
  unfold luaiConvert at h
  split at h
  · exact luaiGetArray_ok h
  · exact luaiLuaDataArgToBleDataType_ok h

/-! ## The items of a table -/

/-- The converter decides what becomes of an item that is neither nil nor a table. -/
theorem luaiGetArrayItems_cons {type : UInt32} {typeSize capacity : ℕ} {buf : Ptr Bytes}
    {item : LuaValue} (hsome : item.isSome = true) (htable : ∀ items, item ≠ .table items)
    (rest : List LuaValue) (count : ℕ) (stored : Bytes) (buffers : Heap Bytes) :
    luaiGetArrayItems type typeSize capacity buf (item :: rest) count stored buffers = (do
      let (exit, buffers) ← luaiLuaDataArgToBleDataType item type buffers
      match exit with
      | .raise => .ok (.raise, buffers)
      | .ret none => .ok (.ret none, buffers.free buf)
      | .ret (some { data, dataSize }) =>
        if dataSize ≠ typeSize then .ok (.ret none, buffers.free buf)
        else if count * typeSize + typeSize ≤ capacity then
          luaiGetArrayItems type typeSize capacity buf rest (count + 1)
            (stored ++ (buffers.read data).take typeSize) (buffers.free data)
        else .error .outOfBlock) := by
  cases item with
  | nil => cases hsome
  | table items => exact absurd rfl (htable items)
  | _ => rfl

/-- `INT32` takes numbers only. -/
theorem acceptsScalar_int32 {v : LuaValue} (h : v.isNumber = false) :
    acceptsScalar .int32 v = false := by
  cases v with
  | integer i => cases h
  | float bits => cases h
  | _ => rfl

/-- A block for all items has room for the next one, and for those after it. -/
theorem room_for_item {count n typeSize capacity : ℕ}
    (h : (count + (n + 1)) * typeSize ≤ capacity) :
    count * typeSize + typeSize ≤ capacity ∧ (count + 1 + n) * typeSize ≤ capacity := by
  rw [← Nat.add_assoc, Nat.add_right_comm] at h
  refine ⟨?_, h⟩
  calc count * typeSize + typeSize = (count + 1) * typeSize := (Nat.succ_mul count typeSize).symm
    _ ≤ (count + 1 + n) * typeSize := Nat.mul_le_mul_right typeSize (Nat.le_add_right _ n)
    _ ≤ capacity := h

/-- The table of sizes ends with the last data type. -/
theorem bleDataTypeSize_eq_none {code : UInt32} (h : BleDataType.ofCode code = none) :
    bleDataTypeSize[code.toNat]? = none := by
  refine List.getElem?_eq_none (Nat.not_lt.mp fun hlt => ?_)
  have hall : ∀ n < 12, BleDataType.ofCode (UInt32.ofNat n) ≠ none := by decide
  exact hall code.toNat hlt (by rwa [UInt32.ofNat_toNat])

/-! ## Beyond the blocks -/

section NeverFails

variable {buffers : Heap Bytes} (hf : buffers.NeverFails)
include hf

theorem mallocAndCopy_overruns {allocated : ℕ} {val : Bytes} (hlt : allocated < val.length) :
    mallocAndCopy allocated val buffers = .error .outOfBlock := by
  have hnew := Heap.tryAlloc_new hf val
  simp [mallocAndCopy, hnew.ne_null, Nat.not_le.mpr hlt]

/-- A number for `INT32` is written beyond its block. -/
theorem luaiLuaDataArgToBleDataType_overruns {v : LuaValue} (hv : v.isNumber) :
    luaiLuaDataArgToBleDataType v BleDataType.int32.code buffers = .error .outOfBlock := by
  have hsize : ∀ n, mallocAndCopy 1 (leBytes 4 n) buffers = .error .outOfBlock := fun n =>
    mallocAndCopy_overruns hf (by simp)
  cases v with
  | integer i => exact hsize _
  | float bits => exact hsize _
  | _ => simp [LuaValue.isNumber] at hv

end NeverFails

/-- A table that starts with a number has it copied as an `INT32`. -/
theorem luaiGetArray_overruns {buffers : Heap Bytes} (hf : buffers.NeverFails) {item : LuaValue}
    (hitem : item.isNumber = true) (rest : List LuaValue) :
    luaiGetArray (item :: rest) BleDataType.int32.code buffers = .error .outOfBlock := by
  have hnew := Heap.tryAlloc_new hf []
  have hext := Heap.Extends.tryAlloc buffers []
  have hsome : item.isSome = true ∧ ∀ items, item ≠ .table items := by
    cases item <;> simp_all [LuaValue.isNumber, LuaValue.isSome]
  have hloop : ∀ typeSize capacity buf, luaiGetArrayItems BleDataType.int32.code typeSize
      capacity buf (item :: rest) 0 [] (buffers.tryAlloc []).2 = .error .outOfBlock := by
    intro typeSize capacity buf
    rw [luaiGetArrayItems_cons hsome.1 hsome.2,
      luaiLuaDataArgToBleDataType_overruns (hext.neverFails hf) hitem]
    rfl
  have hsize : bleDataTypeSize[BleDataType.int32.code.toNat]? = some 4 := rfl
  have hstring : BleDataType.int32.code ≠ BleDataType.string.code := by decide
  simp [luaiGetArray, hstring, hsize, hnew.ne_null, hloop]

/-- Converting any other value is undefined. -/
theorem luaiConvert_overruns {buffers : Heap Bytes} (hf : buffers.NeverFails) {type : UInt32}
    {v : LuaValue} (hover : overruns type v = true) :
    luaiConvert v type buffers = .error .outOfBlock := by
  cases hcode : BleDataType.ofCode type with
  | some T =>
    have htype := BleDataType.eq_code_of_ofCode hcode
    subst htype
    have hint32 : T = .int32 ∧ (v.isNumber = true ∨ v.firstIsNumber = true) := by
      simpa [overruns, convertsInt32] using hover
    obtain ⟨rfl, hv⟩ := hint32
    cases v with
    | table items =>
      cases items with
      | nil => simp [LuaValue.isNumber, LuaValue.firstIsNumber] at hv
      | cons item rest =>
        apply luaiGetArray_overruns hf
        simpa [LuaValue.isNumber, LuaValue.firstIsNumber] using hv
    | integer i =>
      exact luaiLuaDataArgToBleDataType_overruns hf (show (LuaValue.integer i).isNumber from rfl)
    | float bits =>
      exact luaiLuaDataArgToBleDataType_overruns hf (show (LuaValue.float bits).isNumber from rfl)
    | _ => simp [LuaValue.isNumber, LuaValue.firstIsNumber] at hv
  | none =>
    -- the size of the items is read beyond the end of the table of sizes
    cases v with
    | table items =>
      have hempty : items ≠ [] := by simpa [overruns, hcode] using hover
      have hstring := BleDataType.ne_code_of_ofCode hcode .string
      simp [luaiConvert, luaiGetArray, hempty, hstring, bleDataTypeSize_eq_none hcode]
    | _ => simp [overruns, hcode] at hover

end BleSim
