import BleSim.Device

/-!
# Object paths

Every object path is made by `objectPathString` from the path of the parent, the name of the
kind of object and a number. `Position` says where in the tree an object is, and its path is
the path the program makes for an object there. Paths are valid, and no two positions share
one: the names hold neither a slash nor a digit, so a path can be taken apart again.
-/

namespace BleSim

open Decimal

/-! ## Valid paths -/

/-- The names `objectPathString` is given. -/
def objectNames : List CStr :=
  [deviceObjectName, serviceObjectName, characteristicObjectName, descriptorObjectName,
    advertisementObjectName]

/-- A name is made of path characters, and holds neither a slash nor a digit. -/
theorem mem_objectNames {name : CStr} (h : name ∈ objectNames) :
    (∀ c ∈ name, isPathCharacter c = true) ∧ '/' ∉ name ∧ ∀ c ∈ name, c.isDigit = false := by
  have hnames : objectNames.all (fun name =>
      name.all fun c => isPathCharacter c && c != '/' && !c.isDigit) = true := by
    decide
  have hname := List.all_eq_true.mp (List.all_eq_true.mp hnames name h)
  simp only [Bool.and_eq_true, Bool.not_eq_true', bne_iff_ne] at hname
  exact ⟨fun c hc => (hname c hc).1.1, fun hc => (hname _ hc).1.2 rfl, fun c hc => (hname c hc).2⟩

theorem Kind.objectName_mem (kind : Kind) : kind.objectName ∈ objectNames := by
  cases kind <;> decide

theorem Kind.objectName_injective : Function.Injective Kind.objectName := by
  intro kind kind' h
  cases kind <;> cases kind' <;> first
    | rfl
    | exact absurd h (by decide)

/-- The last segment of a path. -/
theorem slash_notMem_segment {name : CStr} (hname : name ∈ objectNames) (id : ℕ) :
    '/' ∉ name ++ decimal id := by
  intro h
  rcases List.mem_append.mp h with h | h
  · exact (mem_objectNames hname).2.1 h
  · exact notMem_decimal (by decide) id h

/-- A name with a number behind it is a segment. -/
theorem numbered_segment {name : CStr} (hname : ∀ c ∈ name, isPathCharacter c = true)
    (id : UInt32) : name ++ decimal id.toNat ≠ [] ∧
      ∀ c ∈ name ++ decimal id.toNat, isPathCharacter c = true := by
  refine ⟨fun hnil => decimal_ne_nil _ (List.append_eq_nil_iff.mp hnil).2, fun c hc => ?_⟩
  rcases List.mem_append.mp hc with hc | hc
  · exact hname c hc
  · have hdigit := isDigit_of_mem_decimal hc
    simp [isPathCharacter, Char.isAlphanum, hdigit]

/-- A path goes on from a valid path, or from none. -/
theorem validObjectPath_objectPathString {prevPath : CStr}
    (hprev : prevPath = [] ∨ ValidObjectPath prevPath) {name : CStr} (hname : name ∈ objectNames)
    (id : UInt32) : ValidObjectPath (objectPathString prevPath name id) := by
  obtain ⟨segments, hsegments, rfl⟩ : ∃ segments : List CStr,
      (∀ s ∈ segments, s ≠ [] ∧ ∀ c ∈ s, isPathCharacter c = true) ∧
        prevPath = segments.flatMap fun s => '/' :: s := by
    rcases hprev with rfl | ⟨segments, -, hsegments, rfl⟩
    · exact ⟨[], by simp, rfl⟩
    · exact ⟨segments, hsegments, rfl⟩
  -- a name and a number make one more segment
  refine ⟨segments ++ [name ++ decimal id.toNat], by simp, fun s hs => ?_, ?_⟩
  · rcases List.mem_append.mp hs with hs | hs
    · exact hsegments s hs
    · rw [List.mem_singleton.mp hs]
      exact numbered_segment (mem_objectNames hname).1 id
  · simp [objectPathString]

/-- The paths of adapters. -/
theorem validObjectPath_adapterPath (index : UInt32) : ValidObjectPath (adapterPath index) := by
  have hbase : baseAdapterPath =
      '/' :: "org".toList ++ '/' :: "bluez".toList ++ '/' :: "hci".toList := by decide
  refine ⟨["org".toList, "bluez".toList, "hci".toList ++ decimal index.toNat],
    List.cons_ne_nil _ _, fun s hs => ?_, ?_⟩
  · simp only [List.mem_cons, List.not_mem_nil, or_false] at hs
    rcases hs with rfl | rfl | rfl
    · simp [isPathCharacter]
    · simp [isPathCharacter]
    · exact numbered_segment (by simp [isPathCharacter]) index
  · rw [adapterPath, hbase]
    simp only [List.flatMap_cons, List.flatMap_nil, List.append_assoc, List.cons_append,
      List.append_nil]

/-- A path can be taken apart: the path it goes on from, the name and the number are unique. -/
theorem objectPathString_inj {a b n m : CStr} {i j : UInt32} (hn : n ∈ objectNames)
    (hm : m ∈ objectNames) (h : objectPathString a n i = objectPathString b m j) :
    a = b ∧ n = m ∧ i = j := by
  unfold objectPathString at h
  simp only [List.append_assoc, List.cons_append] at h
  obtain ⟨hab, hsegment⟩ := eq_of_append_last_delimiter (slash_notMem_segment hn i.toNat)
    (slash_notMem_segment hm j.toNat) h
  obtain ⟨hnm, hij⟩ :=
    eq_of_append_decimal (mem_objectNames hn).2.2 (mem_objectNames hm).2.2 hsegment
  exact ⟨hab, hnm, UInt32.toNat_inj.mp hij⟩

/-! ## Positions in the tree -/

/-- Where an object is: it is a device, the advertisement of a device, or a child of the object at
another position, and which one. -/
inductive Position where
  | device (d : UInt32)
  | advertisement (d : UInt32)
  | child (kind : Kind) (parent : Position) (i : UInt32)
deriving DecidableEq

namespace Position

/-- The path that is made for the object at a position. -/
def path : Position → CStr
  | device d => objectPathString emptyString deviceObjectName d
  | advertisement d =>
    objectPathString (objectPathString emptyString deviceObjectName d) advertisementObjectName 0
  | child kind parent i => objectPathString parent.path kind.objectName i

theorem validObjectPath (p : Position) : ValidObjectPath p.path := by
  have hdevice : ∀ d : UInt32, ValidObjectPath (device d).path := fun d =>
    validObjectPath_objectPathString (Or.inl rfl) (by decide) d
  induction p with
  | device d => exact hdevice d
  | advertisement d => exact validObjectPath_objectPathString (Or.inr (hdevice d)) (by decide) 0
  | child kind parent i ih =>
    exact validObjectPath_objectPathString (Or.inr ih) kind.objectName_mem i

/-- A path tells the position. -/
theorem path_injective : Function.Injective path := by
  have hkind : ∀ kind : Kind, kind.objectName ≠ deviceObjectName ∧
      kind.objectName ≠ advertisementObjectName := by
    intro kind
    cases kind <;> decide
  -- the last segment tells the name and the number, and what is before it the parent's path
  intro p
  induction p with
  | device d =>
    intro q h
    cases q with
    | device e =>
      obtain ⟨-, -, rfl⟩ := objectPathString_inj (by decide) (by decide) h
      rfl
    | advertisement e =>
      obtain ⟨-, hname, -⟩ := objectPathString_inj (by decide) (by decide) h
      exact absurd hname (by decide)
    | child kind parent i =>
      obtain ⟨-, hname, -⟩ := objectPathString_inj (by decide) kind.objectName_mem h
      exact absurd hname.symm (hkind kind).1
  | advertisement d =>
    intro q h
    cases q with
    | device e =>
      obtain ⟨-, hname, -⟩ := objectPathString_inj (by decide) (by decide) h
      exact absurd hname (by decide)
    | advertisement e =>
      obtain ⟨hdevice, -⟩ := objectPathString_inj (by decide) (by decide) h
      obtain ⟨-, -, rfl⟩ := objectPathString_inj (by decide) (by decide) hdevice
      rfl
    | child kind parent i =>
      obtain ⟨-, hname, -⟩ := objectPathString_inj (by decide) kind.objectName_mem h
      exact absurd hname.symm (hkind kind).2
  | child kind parent i ih =>
    intro q h
    cases q with
    | device e =>
      obtain ⟨-, hname, -⟩ := objectPathString_inj kind.objectName_mem (by decide) h
      exact absurd hname (hkind kind).1
    | advertisement e =>
      obtain ⟨-, hname, -⟩ := objectPathString_inj kind.objectName_mem (by decide) h
      exact absurd hname (hkind kind).2
    | child kind' parent' i' =>
      obtain ⟨hparent, hname, rfl⟩ :=
        objectPathString_inj kind.objectName_mem kind'.objectName_mem h
      rw [ih hparent, Kind.objectName_injective hname]

/-! ## Below a device -/

/-- The number of the device the position belongs to. -/
def root : Position → UInt32
  | device d => d
  | advertisement d => d
  | child _ parent _ => parent.root

end Position

/-- A path lies strictly below another one. -/
def PathBelow (path below : CStr) : Prop := ∃ rest, below = path ++ '/' :: rest

namespace Position

/-- A path begins with the path of the device. -/
theorem path_eq_root (p : Position) :
    p = .device p.root ∨ PathBelow (device p.root).path p.path := by
  induction p with
  | device d => exact Or.inl rfl
  | advertisement d => exact Or.inr ⟨_, List.append_assoc _ _ _⟩
  | child kind parent i ih =>
    right
    rcases ih with hparent | ⟨rest, hrest⟩
    · refine ⟨kind.objectName ++ decimal i.toNat, ?_⟩
      rw [path, hparent]
      exact List.append_assoc _ _ _
    · refine ⟨rest ++ '/' :: (kind.objectName ++ decimal i.toNat), ?_⟩
      show objectPathString parent.path kind.objectName i = _
      rw [hrest]
      simp [objectPathString, root]

/-- The paths below the path of a device are those of the positions below the device. -/
theorem pathBelow_device_iff {p : Position} {d : UInt32} :
    PathBelow (device d).path p.path ↔ p.root = d ∧ p ≠ .device d := by
  constructor
  · intro ⟨rest, hrest⟩
    rcases p.path_eq_root with hdevice | ⟨rest', hrest'⟩
    · -- the path of a device has no slash behind its number
      rw [hdevice] at hrest
      have hslash : decimal p.root.toNat = decimal d.toNat ++ '/' :: rest := by
        simpa [path, objectPathString] using hrest
      have hmem : '/' ∈ decimal p.root.toNat := by
        rw [hslash]
        exact List.mem_append_right _ List.mem_cons_self
      exact absurd hmem (notMem_decimal (by decide) _)
    · rw [hrest'] at hrest
      have hnumber : decimal p.root.toNat ++ '/' :: rest' = decimal d.toNat ++ '/' :: rest := by
        simpa [path, objectPathString] using hrest
      -- both numbers end at the next slash, so they are the same
      obtain ⟨hdecimal, -⟩ := eq_of_append_delimiter (notMem_decimal (by decide) _)
        (notMem_decimal (by decide) _) hnumber
      refine ⟨UInt32.toNat_inj.mp (decimal_injective hdecimal), fun hp => ?_⟩
      have hlength := congrArg List.length hrest'
      rw [hp, root] at hlength
      simp at hlength
  · intro ⟨hroot, hne⟩
    rcases p.path_eq_root with hdevice | hbelow
    · rw [hroot] at hdevice
      exact absurd hdevice hne
    · rwa [hroot] at hbelow

end Position

end BleSim
