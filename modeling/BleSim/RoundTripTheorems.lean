import Mathlib.Data.List.TakeWhile
import BleSim.EncodingTheorems
import BleSim.MemoryTheorems

/-!
# Reading back what `setValue` has stored

When `setValue` has returned true, the bytes that are held, their length and the integers they are
read as can be compared with what the script gave.
-/

namespace BleSim

open Outcomes WriteOnce DBusValue

/-! ## Integers in little-endian groups -/

/-- The number that bytes stand for, least significant byte first. -/
def leValue : Bytes → ℕ
  | [] => 0
  | b :: bytes => b.toNat + 256 * leValue bytes

/-- Reading what was written. -/
theorem leValue_leBytes (n v : ℕ) : leValue (leBytes n v) = v % 256 ^ n := by
  induction n generalizing v with
  | zero => rw [leBytes, leValue, Nat.pow_zero, Nat.mod_one]
  | succ n ih =>
    have hpow : 256 ^ (n + 1) = 256 * 256 ^ n := Nat.pow_succ'
    rw [leBytes, leValue, ih, UInt8.toNat_ofNat', hpow, Nat.mod_mul]

/-- The data types of integers. -/
def BleDataType.isInteger : BleDataType → Bool
  | int8 | uint8 | int16 | uint16 | int32 | uint32 | int64 | uint64 => true
  | _ => false

/-- The data types of integers with a sign. -/
def BleDataType.isSigned : BleDataType → Bool
  | int8 | int16 | int32 | int64 => true
  | _ => false

/-- The bytes an integer of a data type takes. -/
def BleDataType.byteSize : BleDataType → ℕ
  | int8 | uint8 => 1
  | int16 | uint16 => 2
  | int32 | uint32 => 4
  | int64 | uint64 => 8
  | _ => 0

/-- How many integers a data type has: 2 to the power of its width. -/
def BleDataType.modulus (type : BleDataType) : ℤ := 256 ^ type.byteSize

/-- The integers of a data type. -/
def BleDataType.InRange (type : BleDataType) (z : ℤ) : Prop :=
  if type.isSigned then -type.modulus ≤ 2 * z ∧ 2 * z < type.modulus else 0 ≤ z ∧ z < type.modulus

/-- What a group of bytes is read as: with a sign, the upper half stands for negative numbers. -/
def decodeInteger (type : BleDataType) (group : Bytes) : ℤ :=
  if type.isSigned ∧ type.modulus ≤ 2 * leValue group then leValue group - type.modulus
  else leValue group

/-- A number is an integer of 64 bits with a sign, so that `lua_tointeger` succeeds. -/
def LuaValue.HasInteger (v : LuaValue) : Prop :=
  ∃ z, v.integral? = some z ∧ -2 ^ 63 ≤ z ∧ z < 2 ^ 63

/-- What a group of bytes is read as is the number, up to the width of the data type; it is the
number itself if this is an integer of the data type, or if `lua_tointeger` fails on it. -/
def ReadsBack (type : BleDataType) (v : LuaValue) (group : Bytes) : Prop :=
  ∃ z, v.integral? = some z ∧ decodeInteger type group % type.modulus = z % type.modulus ∧
    (type.InRange z ∨ ¬ v.HasInteger → decodeInteger type group = z)

/-- An integer is encoded by its low bytes. -/
theorem encodeNumber_integer {type : BleDataType} (htype : type.isInteger = true) (v : LuaValue) :
    encodeNumber type v = leBytes type.byteSize (luaToInteger v).toUInt64.toNat := by
  cases type <;> first | rfl | cases htype

theorem BleDataType.modulus_pos (type : BleDataType) : 0 < type.modulus :=
  Int.pow_pos (by decide)

theorem BleDataType.modulus_dvd (type : BleDataType) : type.modulus ∣ 2 ^ 64 := by
  cases type <;> decide

theorem BleDataType.inRange_zero (type : BleDataType) : type.InRange 0 := by
  have hpos := type.modulus_pos
  unfold BleDataType.InRange
  split_ifs <;> omega

/-- The low bytes of a number that fits are its remainder. -/
theorem leValue_ofInt (type : BleDataType) (z : ℤ) :
    (leValue (leBytes type.byteSize (Int64.ofInt z).toUInt64.toNat) : ℤ) = z % type.modulus := by
  have hlow : ((Int64.ofInt z).toUInt64.toNat : ℤ) = z % 2 ^ 64 := by
    rw [← Int64.toNat_toBitVec, Int64.toBitVec_ofInt, BitVec.toNat_ofInt]
    omega
  have hmodulus : ((256 ^ type.byteSize : ℕ) : ℤ) = type.modulus := Int.natCast_pow 256 _
  rw [leValue_leBytes, Int.natCast_emod, hlow, hmodulus]
  exact Int.emod_emod_of_dvd z type.modulus_dvd

/-- What the low bytes of a number are read as. -/
theorem decodeInteger_leBytes (type : BleDataType) (z : ℤ) :
    decodeInteger type (leBytes type.byteSize (Int64.ofInt z).toUInt64.toNat) % type.modulus =
        z % type.modulus ∧
      (type.InRange z →
        decodeInteger type (leBytes type.byteSize (Int64.ofInt z).toUInt64.toNat) = z) := by
  have hpos := type.modulus_pos
  rw [decodeInteger, leValue_ofInt]
  constructor
  · split_ifs
    · rw [Int.sub_emod_right, Int.emod_emod]
    · exact Int.emod_emod z _
  · intro hrange
    unfold BleDataType.InRange at hrange
    cases hsigned : type.isSigned with
    | false =>
      rw [hsigned, if_neg (by decide)] at hrange
      rw [if_neg (by simp), Int.emod_eq_of_lt hrange.1 hrange.2]
    | true =>
      rw [hsigned, if_pos rfl] at hrange
      by_cases hneg : z < 0
      · have hmod : z % type.modulus = z + type.modulus := by
          rw [← Int.add_emod_right]
          exact Int.emod_eq_of_lt (by omega) (by omega)
        rw [hmod, if_pos ⟨rfl, by omega⟩]
        omega
      · rw [Int.emod_eq_of_lt (by omega) (by omega), if_neg]
        rintro ⟨-, hhalf⟩
        omega

/-- Where `lua_tointeger` fails, it returns 0. -/
theorem luaToInteger_of_not_hasInteger {v : LuaValue} (h : ¬ v.HasInteger) :
    luaToInteger v = 0 := by
  cases v with
  | integer i =>
    have hlow := i.minValue_le_toInt
    have hhigh := i.toInt_lt
    exact absurd ⟨i.toInt, rfl, hlow, hhigh⟩ h
  | float bits =>
    cases hz : Binary64.toInt? bits with
    | none => simp only [luaToInteger, hz]
    | some z =>
      simp only [luaToInteger, hz]
      exact if_neg fun hrange => h ⟨z, hz, hrange⟩
  | _ => rfl

/-- The encoding of a number reads back exactly when the number is an integer of 64 bits. -/
theorem readsBack_encodeNumber {type : BleDataType} (htype : type.isInteger = true) {v : LuaValue} :
    ReadsBack type v (encodeNumber type v) ↔ v.HasInteger := by
  rw [encodeNumber_integer htype]
  constructor
  · intro ⟨z, hz, _, hback⟩
    by_contra hno
    -- 0 has been stored, but the number is not 0
    have hzero := hback (Or.inr hno)
    rw [luaToInteger_of_not_hasInteger hno] at hzero
    have hdecode := (decodeInteger_leBytes type 0).2 type.inRange_zero
    have hsame : z = 0 := hzero.symm.trans hdecode
    exact hno ⟨z, hz, by omega, by omega⟩
  · intro hinteger
    have ⟨z, hz, hlow, hhigh⟩ := hinteger
    rw [luaToInteger_eq hz hlow hhigh]
    obtain ⟨hmod, hback⟩ := decodeInteger_leBytes type z
    refine ⟨z, hz, hmod, ?_⟩
    rintro (hrange | hno)
    · exact hback hrange
    · exact absurd hinteger hno

/-! ## Integers -/

/-- The numbers a value consists of. -/
def LuaValue.numbers : LuaValue → List LuaValue
  | .table items => items
  | v => [v]

/-- What `c` holds is, group by group, what the numbers read back as. -/
def Survives (σ : State) (c : ℕ) (type : BleDataType) (numbers : List LuaValue) : Prop :=
  ∃ groups : List Bytes, Holds σ c groups.flatten ∧
    (∀ group ∈ groups, group.length = type.byteSize) ∧ List.Forall₂ (ReadsBack type) numbers groups

/-- Groups of one length can be told apart. -/
theorem eq_of_flatten_eq {k : ℕ} {groups groups' : List Bytes}
    (h : ∀ group ∈ groups, group.length = k) (h' : ∀ group ∈ groups', group.length = k)
    (hlength : groups.length = groups'.length) (heq : groups.flatten = groups'.flatten) :
    groups = groups' := by
  induction groups generalizing groups' with
  | nil => exact (List.length_eq_zero_iff.mp hlength.symm).symm
  | cons group groups ih =>
    cases groups' with
    | nil => cases hlength
    | cons group' groups' =>
      rw [List.forall_mem_cons] at h h'
      obtain ⟨hfirst, hrest⟩ := List.append_inj heq (h.1.trans h'.1.symm)
      rw [hfirst, ih h.2 h'.2 (Nat.succ.inj hlength) hrest]

theorem length_flatten_of_length {k : ℕ} {groups : List Bytes}
    (h : ∀ group ∈ groups, group.length = k) : groups.flatten.length = groups.length * k := by
  induction groups with
  | nil => rw [List.flatten_nil, List.length_nil, List.length_nil, Nat.zero_mul]
  | cons group groups ih =>
    rw [List.forall_mem_cons] at h
    rw [List.flatten_cons, List.length_append, List.length_cons, ih h.2, h.1, Nat.succ_mul,
      Nat.add_comm]

theorem encodeScalar_number {type : BleDataType} {v : LuaValue} (hv : v.isNumber = true) :
    encodeScalar type v = encodeNumber type v := by
  cases v with
  | integer i => rfl
  | float bits => rfl
  | _ => cases hv

/-- A table of numbers has no nil. -/
theorem takeWhile_isSome_numbers {items : List LuaValue}
    (h : ∀ v ∈ items, v.isNumber = true) : items.takeWhile LuaValue.isSome = items := by
  rw [List.takeWhile_eq_self_iff]
  intro v hv
  have hnumber := h v hv
  cases v with
  | integer i => rfl
  | float bits => rfl
  | _ => cases hnumber

/-- Numbers are encoded one after the other. -/
theorem encodeValue_numbers (type : BleDataType) {v : LuaValue}
    (h : ∀ n ∈ v.numbers, n.isNumber = true) :
    encodeValue type v = (v.numbers.map (encodeNumber type)).flatten := by
  cases v with
  | table items =>
    have hitems : items.takeWhile LuaValue.isSome = items := takeWhile_isSome_numbers h
    rw [encodeValue, hitems, LuaValue.numbers, List.flatMap_def]
    exact congrArg List.flatten (List.map_congr_left fun n hn => encodeScalar_number (h n hn))
  | integer i => exact (List.append_nil _).symm
  | float bits => exact (List.append_nil _).symm
  | _ => cases h _ (List.mem_singleton_self _)

theorem length_encodeNumber {type : BleDataType} (htype : type.isInteger = true) (v : LuaValue) :
    (encodeNumber type v).length = type.byteSize := by
  rw [encodeNumber_integer htype, length_leBytes]

/-- The encodings of numbers are the groups that are read back. -/
theorem length_of_mem_encoded {type : BleDataType} (htype : type.isInteger = true)
    (numbers : List LuaValue) :
    ∀ group ∈ numbers.map (encodeNumber type), group.length = type.byteSize := by
  intro group hgroup
  obtain ⟨n, -, rfl⟩ := List.mem_map.mp hgroup
  exact length_encodeNumber htype n

theorem length_encodeValue_numbers {type : BleDataType} (htype : type.isInteger = true)
    {v : LuaValue} (h : ∀ n ∈ v.numbers, n.isNumber = true) :
    (encodeValue type v).length = v.numbers.length * type.byteSize := by
  rw [encodeValue_numbers type h, length_flatten_of_length (length_of_mem_encoded htype _),
    List.length_map]

/-- As many bytes as there are, if they are narrowed without loss, are all of them. -/
theorem narrowed_eq_of_length {bytes : Bytes} (h : (narrowed bytes).length = bytes.length) :
    narrowed bytes = bytes :=
  (List.take_prefix _ bytes).eq_of_length h

/-- What is converted to a data type is the encoding. -/
theorem encodeValue_of_converted {type : BleDataType} {v : LuaValue} {bytes : Bytes}
    (h : convertedBytes type.code v = some bytes) : bytes = encodeValue type v := by
  rw [convertedBytes_code] at h
  split_ifs at h
  exact (Option.some.inj h).symm

/-- When `setValue` has returned true for numbers and a data type of integers, the numbers survive
exactly when they are integers of 64 bits with a sign and their encoding is stored whole. -/
theorem survives_iff {σ σ' : State} (hreach : Reachable σ) {c : ℕ} {x : Characteristic}
    (hx : σ.characteristic c = .ok x) {v t : LuaValue} {type : BleDataType}
    (htype : type.isInteger = true) (ht : luaiCheckTypeBleDataType t = .ret type.code)
    (hnumbers : ∀ n ∈ v.numbers, n.isNumber = true) (hne : v.numbers ≠ [])
    (hrun : luaiCharacteristicSetValue c v t σ = .ok (.ret true, σ')) :
    Survives σ' c type v.numbers ↔
      (∀ n ∈ v.numbers, n.HasInteger) ∧ StoredWhole σ c v (encodeValue type v) := by
  have hinv := ValuesInv.of_reachable hreach
  obtain ⟨bytes, held, hconverted, -, hholds, hheld, hwhole⟩ :=
    luaiCharacteristicSetValue_held ht hinv hx hrun
  obtain rfl := encodeValue_of_converted hconverted
  have hencoded := encodeValue_numbers type hnumbers
  have hgroups := length_of_mem_encoded htype v.numbers
  have hlength := length_encodeValue_numbers htype hnumbers
  have hpos : 0 < (encodeValue type v).length := by
    rw [hlength]
    have hsize : 0 < type.byteSize := by revert htype; cases type <;> decide
    exact Nat.mul_pos (List.length_pos_iff.mpr hne) hsize
  rw [or_iff_right (List.ne_nil_of_length_pos hpos)] at hwhole
  constructor
  · intro ⟨groups, hholds', hsizes, hback⟩
    have heq : groups.flatten = held := hholds'.unique hholds
    have hlen : held.length = (encodeValue type v).length := by
      rw [← heq, length_flatten_of_length hsizes, hlength, hback.length_eq]
    -- nothing can have been cut off
    have hall : held = encodeValue type v := by
      rcases hheld with rfl | rfl
      · exact narrowed_eq_of_length hlen
      · exact absurd hlen (Nat.ne_of_lt hpos)
    have hsame : groups = v.numbers.map (encodeNumber type) := by
      apply eq_of_flatten_eq hsizes hgroups
      · rw [List.length_map, hback.length_eq]
      · rw [heq, hall, hencoded]
    rw [hsame, List.forall₂_map_right_iff, List.forall₂_same] at hback
    exact ⟨fun n hn => (readsBack_encodeNumber htype).mp (hback n hn), hwhole.mp hall⟩
  · intro ⟨hintegers, hstored⟩
    refine ⟨v.numbers.map (encodeNumber type), ?_, hgroups, ?_⟩
    · rw [← hencoded, ← hwhole.mpr hstored]
      exact hholds
    · rw [List.forall₂_map_right_iff, List.forall₂_same]
      exact fun n hn => (readsBack_encodeNumber htype).mpr (hintegers n hn)

/-- The theorem where 5 and 300 are stored as `UINT16`. -/
theorem survives_iff_uint16 : ∃ σ',
    luaiCharacteristicSetValue 0 (.table [.integer 5, .integer 300]) (.integer 4)
      (State.after [.createCharacteristic "2A19".toList]) = .ok (.ret true, σ') ∧
    Survives σ' 0 .uint16 [.integer 5, .integer 300] := by
  have hexit : (luaiCharacteristicSetValue 0 (.table [.integer 5, .integer 300]) (.integer 4)
      (State.after [.createCharacteristic "2A19".toList])).map Prod.fst = .ok (.ret true) := by
    decide
  obtain ⟨σ', hrun⟩ := exists_of_map_fst hexit
  refine ⟨σ', hrun, (survives_iff (State.reachable_after (by decide) fun _ _ => trivial) rfl
    rfl (by decide) ?_ (by simp [LuaValue.numbers]) hrun).mpr ⟨?_, by decide, Or.inr ?_⟩⟩
  · simp [LuaValue.numbers, LuaValue.isNumber]
  · simp [LuaValue.numbers, LuaValue.HasInteger, LuaValue.integral?]
  · exact Heap.NeverFails.grants (fun _ => rfl) _

/-- 2.5 is stored as 0. -/
theorem not_survives_fraction : ¬ ∀ (σ σ' : State) (c : ℕ) (x : Characteristic) (v t : LuaValue)
    (type : BleDataType), Reachable σ → σ.characteristic c = .ok x → type.isInteger = true →
      luaiCheckTypeBleDataType t = .ret type.code → (∀ n ∈ v.numbers, n.isNumber = true) →
      v.numbers ≠ [] → luaiCharacteristicSetValue c v t σ = .ok (.ret true, σ') →
      Survives σ' c type v.numbers := by
  intro h
  have hexit : (luaiCharacteristicSetValue 0 (.float 0x4004000000000000) (.integer 2)
      (State.after [.createCharacteristic "2A19".toList])).map Prod.fst = .ok (.ret true) := by
    decide
  obtain ⟨σ', hrun⟩ := exists_of_map_fst hexit
  obtain ⟨groups, -, -, hback⟩ := h _ σ' 0 _ (.float 0x4004000000000000) (.integer 2) .uint8
    (State.reachable_after (by decide) fun _ _ => trivial) rfl rfl (by decide)
    (by simp [LuaValue.numbers, LuaValue.isNumber]) (by simp [LuaValue.numbers]) hrun
  have hnone : (LuaValue.float 0x4004000000000000).integral? = none := by decide
  cases hback with
  | cons hfirst _ =>
    obtain ⟨z, hz, -⟩ := hfirst
    rw [hnone] at hz
    cases hz

/-! ## Lengths -/

/-- `calloc` returns NULL if the size of the array does not fit into a `size_t`: the request for
the array is the first one a table takes. -/
def CallocChecks (σ : State) (v : LuaValue) (type : BleDataType) : Prop :=
  ∀ items size, v = .table items → bleDataTypeSize[type.code.toNat]? = some size →
    2 ^ 64 ≤ items.length * size → ¬ σ.buffers.Grants 1

/-- No length was narrowed: the size of the array fits into a `size_t`, `value_size` is the length
of the encoding, and so is the `int` that is passed to libdbus, which takes it. -/
structure LengthKept (σ : State) (c : ℕ) (v : LuaValue) (type : BleDataType) : Prop where
  product : ∀ items size, v = .table items → bleDataTypeSize[type.code.toNat]? = some size →
    items.length * size < 2 ^ 64
  stored : ∃ x, σ.characteristic c = .ok x ∧ x.valueSize.toNat = (encodeValue type v).length ∧
    x.valueSize.toInt32.toInt = (encodeValue type v).length ∧
    (encodeValue type v).length ≤ dbusMaximumArrayLength ∧
    Writes (characteristicGetValue σ x) (.byteArray (encodeValue type v))

/-- When `setValue` has returned true, no length was narrowed exactly when the encoding is at most
as long as a D-Bus array and is empty, or held already, or its buffer was granted. -/
theorem lengthKept_iff {σ σ' : State} (hreach : Reachable σ) {c : ℕ} {x : Characteristic}
    (hx : σ.characteristic c = .ok x) {v t : LuaValue} {type : BleDataType}
    (ht : luaiCheckTypeBleDataType t = .ret type.code) (hcalloc : CallocChecks σ v type)
    (hrun : luaiCharacteristicSetValue c v t σ = .ok (.ret true, σ')) :
    LengthKept σ' c v type ↔ (encodeValue type v).length ≤ dbusMaximumArrayLength ∧
      (encodeValue type v = [] ∨ Holds σ c (encodeValue type v) ∨
        σ.buffers.Grants (conversionRequests v + 1)) := by
  have hinv := ValuesInv.of_reachable hreach
  obtain ⟨bytes, held, hconverted, hgrants, hholds, hheld, hwhole⟩ :=
    luaiCharacteristicSetValue_held ht hinv hx hrun
  obtain rfl := encodeValue_of_converted hconverted
  constructor
  · intro ⟨_, x', hx', hsize, _, hmax, _⟩
    obtain ⟨y, hy, hlength, -⟩ := hholds
    obtain rfl : x' = y := by simpa using hx'.symm.trans hy
    have hlen : held.length = (encodeValue type v).length := hlength.symm.trans hsize
    have hall : held = encodeValue type v := by
      rcases hheld with rfl | rfl
      · exact narrowed_eq_of_length hlen
      · exact (List.length_eq_zero_iff.mp hlen.symm).symm
    refine ⟨hmax, (hwhole.mp hall).imp_right And.right⟩
  · intro ⟨hmax, hstored⟩
    have hlt : (encodeValue type v).length < 2 ^ 31 := Nat.lt_of_le_of_lt hmax (by decide)
    have hall : held = encodeValue type v :=
      hwhole.mpr (hstored.imp_right fun hheld => ⟨by omega, hheld⟩)
    rw [hall] at hholds
    have ⟨y, hy, hlength, _⟩ := hholds
    refine ⟨fun items size hv hsize => ?_, y, hy, hlength, ?_, hmax,
      characteristicGetValue_writes hholds hy hmax⟩
    · -- the array has been granted, so its size fits
      subst hv
      refine Nat.not_le.mp fun hle => hcalloc items size rfl hsize hle ?_
      exact fun i hi => hgrants i (by rw [conversionRequests]; omega)
    · rw [toInt_toInt32_of_lt (hlength ▸ hlt), hlength]

/-- The theorem where a table of three numbers is stored as `UINT64`, in 24 bytes. -/
theorem lengthKept_iff_uint64 : ∃ σ',
    luaiCharacteristicSetValue 0 (.table [.integer 5, .integer (-1), .integer 70000]) (.integer 8)
      (State.after [.createCharacteristic "2A19".toList]) = .ok (.ret true, σ') ∧
    LengthKept σ' 0 (.table [.integer 5, .integer (-1), .integer 70000]) .uint64 := by
  have hexit : (luaiCharacteristicSetValue 0
      (.table [.integer 5, .integer (-1), .integer 70000]) (.integer 8)
      (State.after [.createCharacteristic "2A19".toList])).map Prod.fst = .ok (.ret true) := by
    decide
  obtain ⟨σ', hrun⟩ := exists_of_map_fst hexit
  refine ⟨σ', hrun, (lengthKept_iff (State.reachable_after (by decide) fun _ _ => trivial) rfl
    (by decide) ?_ hrun).mpr ⟨by decide, Or.inr (Or.inr ?_)⟩⟩
  · rintro items size hitems hsize hle
    cases hitems
    cases hsize
    exact absurd hle (by decide)
  · exact Heap.NeverFails.grants (fun _ => rfl) _

/-- A table of `2 ^ 26 + 1` numbers is stored as `UINT8`, but too long to be read back. -/
theorem not_lengthKept_long : ¬ ∀ (σ σ' : State) (c : ℕ) (x : Characteristic) (v t : LuaValue)
    (type : BleDataType), Reachable σ → σ.characteristic c = .ok x →
      luaiCheckTypeBleDataType t = .ret type.code → CallocChecks σ v type →
      luaiCharacteristicSetValue c v t σ = .ok (.ret true, σ') → LengthKept σ' c v type := by
  intro h
  obtain ⟨n, hn⟩ : ∃ n, n = dbusMaximumArrayLength + 1 := ⟨_, rfl⟩
  have hnumbers : ∀ item ∈ List.replicate n (.integer 0), LuaValue.isNumber item = true := by
    intro item hitem
    rw [List.eq_of_mem_replicate hitem]
    rfl
  have hlength : (encodeValue .uint8 (.table (List.replicate n (.integer 0)))).length = n :=
    calc (encodeValue .uint8 (.table (List.replicate n (.integer 0)))).length
      _ = (LuaValue.table (List.replicate n (.integer 0))).numbers.length *
          BleDataType.uint8.byteSize := length_encodeValue_numbers rfl hnumbers
      _ = n := (Nat.mul_one _).trans List.length_replicate
  have hconverted : convertedBytes BleDataType.uint8.code (.table (List.replicate n (.integer 0))) =
      some (encodeValue .uint8 (.table (List.replicate n (.integer 0)))) := by
    have haccepts : acceptsValue .uint8 (.table (List.replicate n (.integer 0))) = true := by
      rw [acceptsValue, takeWhile_isSome_numbers hnumbers, hn]
      simp [acceptsScalar, BleDataType.isNumeric]
    rw [convertedBytes_code, if_pos ⟨haccepts, by decide⟩]
  have hreach : Reachable (State.after [.createCharacteristic "2A19".toList]) :=
    State.reachable_after (by decide) fun _ _ => trivial
  have hinv := ValuesInv.of_reachable hreach
  obtain ⟨x, hx, hquiet⟩ : ∃ x, (State.after [.createCharacteristic "2A19".toList]).characteristic 0
      = .ok x ∧ x.notifying = false := ⟨_, rfl, rfl⟩
  obtain ⟨old, hold⟩ := hinv.holds hx
  have ht : luaiCheckTypeBleDataType (.integer 2) = .ret BleDataType.uint8.code := by decide
  obtain ⟨σ', hrun, -⟩ := luaiCharacteristicSetValue_stored (fun _ => rfl) ht rfl (hold.shows hx)
    hinv rfl hx hconverted fun hnotifying => by
      rw [hquiet] at hnotifying
      cases hnotifying
  have hkept := h _ σ' 0 x _ _ .uint8 hreach hx ht ?_ hrun
  · obtain ⟨-, -, -, -, -, hmax, -⟩ := hkept
    omega
  · rintro items size hitems hsize hle
    cases hitems
    cases hsize
    rw [List.length_replicate, hn] at hle
    exact absurd hle (by decide)

end BleSim
