import BleSim.DBusUtils

/-!
# Descriptors (`descriptor.c`)
-/

namespace BleSim

open Outcomes WriteOnce

/-! ## Getters shared with characteristics -/

/-- The loop of `characteristic_get_flags` and `descriptor_get_flags`. -/
def appendFlags (table : List ObjectFlag) (flags : UInt32) (iter : Iter) (w : Writer) :
    Outcome Writer := do
  let (array, w) ← w.openContainer iter (.array ['s'])
  let w ← table.foldlM
    (fun w flag =>
      if utilsIsFlagSet flags flag.enabledBit then
        dbusutilsIterAppendString array flag.flagValue w
      else .ok w) w
  w.closeContainer iter array

/-- The body of `characteristic_get_value` and `descriptor_read_value`: the count of bytes is
passed to the library as an `int`. -/
def appendValue (data : Bytes) (valueSize : UInt32) (iter : Iter) (w : Writer) :
    Outcome Writer := do
  let (array, w) ← w.openContainer iter (.array ['y'])
  let w ← w.appendFixedArray array data valueSize.toInt32.toInt
  w.closeContainer iter array

/-- The names of the flags that are set. -/
def flagNames (table : List ObjectFlag) (flags : UInt32) : List DBusValue :=
  (table.filter fun flag => utilsIsFlagSet flags flag.enabledBit).map fun flag =>
    .string flag.flagValue

theorem appendFlags_writes (table : List ObjectFlag) (flags : UInt32) :
    Writes (appendFlags table flags) (.array ['s'] (flagNames table flags)) := by
  have hloop : WritesAll (fun array w => table.foldlM (fun w flag =>
      if utilsIsFlagSet flags flag.enabledBit then
        dbusutilsIterAppendString array flag.flagValue w
      else .ok w) w) (flagNames table flags) := by
    induction table with
    | nil => exact .nil
    | cons flag table ih =>
      intro w array harray
      beta_reduce
      rw [List.foldlM_cons]
      cases hset : utilsIsFlagSet flags flag.enabledBit with
      | true =>
        have hnames : flagNames (flag :: table) flags
            = [.string flag.flagValue] ++ flagNames table flags := by
          simp [flagNames, hset]
        rw [hnames]
        exact (appendBasic_writes (.string flag.flagValue)).all.seq ih w array harray
      | false =>
        have hnames : flagNames (flag :: table) flags = flagNames table flags := by
          simp [flagNames, hset]
        rw [hnames]
        exact ih w array harray
  exact hloop.array _

theorem toInt_toInt32_of_lt {n : UInt32} (h : n.toNat < 2 ^ 31) : n.toInt32.toInt = n.toNat := by
  simp only [UInt32.toInt32, Int32.toInt, Int32.toBitVec, BitVec.toInt]
  have : n.toBitVec.toNat = n.toNat := rfl
  omega

theorem toInt_toInt32_neg {n : UInt32} (h : 2 ^ 31 ≤ n.toNat) : n.toInt32.toInt < 0 := by
  simp only [UInt32.toInt32, Int32.toInt, Int32.toBitVec, BitVec.toInt]
  have : n.toBitVec.toNat = n.toNat := rfl
  have := n.toNat_lt
  omega

/-- A value that fits into a D-Bus array is written as one. -/
theorem appendValue_writes {data : Bytes} {valueSize : UInt32}
    (hmax : valueSize.toNat ≤ dbusMaximumArrayLength) (hdata : valueSize.toNat ≤ data.length) :
    Writes (appendValue data valueSize) (.byteArray (data.take valueSize.toNat)) := by
  have hint : valueSize.toInt32.toInt = valueSize.toNat := by
    apply toInt_toInt32_of_lt
    unfold dbusMaximumArrayLength at hmax
    omega
  have happend := appendFixedArray_writes hmax hdata
  rw [← hint] at happend
  exact happend.array _

/-- A longer value is not written. -/
theorem appendValue_fails {data : Bytes} {valueSize : UInt32}
    (hmax : dbusMaximumArrayLength < valueSize.toNat) :
    Fails (appendValue data valueSize) := by
  have hint : ¬ (0 ≤ valueSize.toInt32.toInt ∧
      valueSize.toInt32.toInt ≤ dbusMaximumArrayLength) := by
    rintro ⟨hnonneg, hle⟩
    by_cases hlt : valueSize.toNat < 2 ^ 31
    · rw [toInt_toInt32_of_lt hlt] at hle
      omega
    · have := toInt_toInt32_neg (Nat.not_lt.mp hlt)
      omega
  have happend : Fails fun array w => w.appendFixedArray array data valueSize.toInt32.toInt := by
    intro w iter hiter
    exact ⟨.precondition, by simp [Writer.appendFixedArray, hint]⟩
  exact happend.container _

/-! ## Life of a descriptor -/

/-- `descriptor_init`. -/
def descriptorInit (strings : Heap CStr) (uuid : CStr) (origin : Origin) :
    Descriptor × Heap CStr :=
  let (uuid, strings) := strings.alloc uuid
  ({ node :=
      { uuid
        parentPath := .null
        objectPath := .null
        origin
        next := none }
     value := .null
     valueSize := 0
     flags := descriptorFlagsAllEnabled }, strings)

/-- `descriptor_fini`. -/
def descriptorFini (k : ℕ) (σ : State) : Outcome State := do
  let x ← σ.descriptor k
  .ok { σ with
    strings := ((σ.strings.free x.node.objectPath).free x.node.uuid).free x.node.parentPath
    buffers := σ.buffers.free x.value
    finalised := .descriptor k :: σ.finalised }

/-- `descriptor_free`. -/
def descriptorFree (k : ℕ) (σ : State) : Outcome State := do
  let σ ← descriptorFini k σ
  .ok { σ with freedStructs := .descriptor k :: σ.freedStructs }

/-! ## D-Bus -/

def descriptorGetUuid (σ : State) (x : Descriptor) : Iter → Writer → Outcome Writer :=
  appendField σ.strings .string x.node.uuid

def descriptorGetCharacteristic (σ : State) (x : Descriptor) : Iter → Writer → Outcome Writer :=
  appendField σ.strings .objectPath x.node.parentPath

def descriptorGetFlags (x : Descriptor) : Iter → Writer → Outcome Writer :=
  appendFlags descriptorFlags x.flags.toUInt32

def descriptorGetValue (σ : State) (x : Descriptor) : Iter → Writer → Outcome Writer :=
  appendValue (σ.buffers.read x.value) x.valueSize

/-- `descriptor_properties`. -/
def descriptorProperties (σ : State) (object : Outcome Descriptor) : List Property :=
  [⟨blePropertyUuid, ['s'], getFromObject object (descriptorGetUuid σ)⟩,
    ⟨blePropertyCharacteristic, ['o'], getFromObject object (descriptorGetCharacteristic σ)⟩,
    ⟨blePropertyFlags, ['a', 's'], getFromObject object descriptorGetFlags⟩,
    ⟨blePropertyValue, ['a', 'y'], getFromObject object (descriptorGetValue σ)⟩]

/-- `descriptor_get_object`. -/
def descriptorGetObject (σ : State) (x : Descriptor) : Iter → Writer → Outcome Writer :=
  dbusutilsGetObjectData σ.strings (descriptorProperties σ (.ok x)) x.node.objectPath
    bluezGattDescriptorInterface

end BleSim
