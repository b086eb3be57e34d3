import BleSim.Lib.Heap
import Mathlib.Logic.Function.Basic

/-!
# Pointer fields that own their blocks

A program that frees what its pointer fields hold is safe as long as no two fields hold the same
block and every field that will still be freed holds a live one. `Owns h slot exempt` says this
of a family of fields `slot`; the fields in `exempt` may dangle. The lemmas say how it is kept
when a field is assigned and when fields are freed, one after the other.
-/

namespace WriteOnce

variable {α ι : Type}

/-- Every block in a field was handed out by the heap, no two fields hold the same block, and
the blocks in fields that are not exempt are live. -/
structure Owns (h : Heap α) (slot : ι → Ptr α) (exempt : ι → Prop) : Prop where
  bounded : ∀ i id a, slot i = .block id a → id < h.size
  distinct : ∀ i j id a b, slot i = .block id a → slot j = .block id b → i = j
  live : ∀ i id a, ¬ exempt i → slot i = .block id a → id ∈ h.live

/-- Free the given fields in order. -/
def Heap.freeAll (h : Heap α) (slot : ι → Ptr α) (is : List ι) : Heap α :=
  is.foldl (fun h i => h.free (slot i)) h

/-- `h'` is `h` after the blocks at `ps` have been released: each was live and is so no longer,
every other block is what it was, and nothing else has been passed to `free`. -/
structure Heap.Releases (h h' : Heap α) (ps : List (Ptr α)) : Prop where
  freeable : ∀ p ∈ ps, h.Freeable p
  live : ∀ id, id ∈ h'.live ↔ id ∈ h.live ∧ ∀ p ∈ ps, p.id? ≠ some id
  invalidFrees : h'.invalidFrees = h.invalidFrees

/-! ## Freeing fields one after the other -/

namespace Heap

theorem freeAll_append (h : Heap α) (slot : ι → Ptr α) (is js : List ι) :
    h.freeAll slot (is ++ js) = (h.freeAll slot is).freeAll slot js := by
  rw [freeAll, freeAll, freeAll, List.foldl_append]

theorem freeAll_congr (h : Heap α) {slot slot' : ι → Ptr α} {is : List ι}
    (hslot : ∀ i ∈ is, slot' i = slot i) : h.freeAll slot' is = h.freeAll slot is := by
  induction is generalizing h with
  | nil => rfl
  | cons i is ih =>
    have hfirst := hslot i List.mem_cons_self
    simp only [freeAll, List.foldl_cons, hfirst]
    exact ih (h.free (slot i)) fun j hj => hslot j (List.mem_cons_of_mem i hj)

/-- What is left is what none of the fields held. -/
theorem mem_live_freeAll (h : Heap α) (slot : ι → Ptr α) (is : List ι) (id : ℕ) :
    id ∈ (h.freeAll slot is).live ↔ id ∈ h.live ∧ ∀ i ∈ is, (slot i).id? ≠ some id := by
  induction is generalizing h with
  | nil => simp [freeAll]
  | cons i is ih =>
    have hfirst : id ∈ (h.free (slot i)).live ↔ id ∈ h.live ∧ (slot i).id? ≠ some id :=
      ⟨fun hid => ⟨live_free_subset h _ id hid, ne_of_mem_live_free hid⟩,
        fun ⟨hid, hne⟩ => mem_live_free hid hne⟩
    rw [show h.freeAll slot (i :: is) = (h.free (slot i)).freeAll slot is from rfl, ih, hfirst,
      List.forall_mem_cons, and_assoc]

end Heap

/-! ## Invalid frees stay recorded -/

namespace Heap

theorem invalidFrees_suffix_free (h : Heap α) (p : Ptr α) :
    h.invalidFrees <:+ (h.free p).invalidFrees := by
  cases p with
  | null => exact List.suffix_rfl
  | indeterminate => exact List.suffix_cons _ _
  | block id a =>
    by_cases hid : id ∈ h.live
    · rw [(free_block hid a).2]
    · simp only [free, hid, ↓reduceIte]
      exact List.suffix_cons _ _

theorem invalidFrees_suffix_freeAll (h : Heap α) (slot : ι → Ptr α) (is : List ι) :
    h.invalidFrees <:+ (h.freeAll slot is).invalidFrees := by
  induction is generalizing h with
  | nil => exact List.suffix_rfl
  | cons i is ih => exact (invalidFrees_suffix_free h (slot i)).trans (ih (h.free (slot i)))

/-- What may be freed later may be freed now. -/
theorem freeable_of_free {h : Heap α} {p q : Ptr α} (hp : (h.free q).Freeable p) :
    h.Freeable p := by
  rcases hp with hnull | ⟨a, id, hid, heq⟩
  · exact Or.inl hnull
  · exact Or.inr ⟨a, id, live_free_subset h q id hid, heq⟩

/-- When nothing invalid has been freed, every field could be freed from the start. -/
theorem freeable_of_invalidFrees_freeAll {h : Heap α} {slot : ι → Ptr α} {is : List ι}
    (hnone : (h.freeAll slot is).invalidFrees = h.invalidFrees) :
    ∀ i ∈ is, h.Freeable (slot i) := by
  induction is generalizing h with
  | nil => intro i hi; cases hi
  | cons i is ih =>
    have hfirst := invalidFrees_suffix_free h (slot i)
    have hrest := invalidFrees_suffix_freeAll (h.free (slot i)) slot is
    -- between two equal lists every list in the chain is the same
    have hlength : (h.free (slot i)).invalidFrees.length ≤ h.invalidFrees.length := by
      rw [← hnone]
      exact hrest.length_le
    have hsame := hfirst.eq_of_length_le hlength
    intro j hj
    rcases List.mem_cons.mp hj with rfl | hj
    · exact (invalidFrees_free_iff h _).mp hsame.symm
    · exact freeable_of_free (ih (hnone.trans hsame) j hj)

end Heap

namespace Owns

variable {h h' : Heap α} {slot slot' : ι → Ptr α} {exempt exempt' : ι → Prop}

/-- Fields that hold no blocks own nothing. -/
theorem of_no_block (hslot : ∀ i id a, slot i ≠ .block id a) : Owns h slot exempt where
  bounded i id a hi := absurd hi (hslot i id a)
  distinct i _ id a _ hi _ := absurd hi (hslot i id a)
  live i id a _ hi := absurd hi (hslot i id a)

theorem mono (ho : Owns h slot exempt) (hex : ∀ i, exempt i → exempt' i) :
    Owns h slot exempt' where
  bounded := ho.bounded
  distinct := ho.distinct
  live i id a hi := ho.live i id a fun hi' => hi (hex i hi')

/-- Other allocations do not matter. -/
theorem extend (ho : Owns h slot exempt) (hext : h.Extends h') : Owns h' slot exempt where
  bounded i id a hi := Nat.lt_of_lt_of_le (ho.bounded i id a hi) hext.size
  distinct := ho.distinct
  live i id a hi hslot := hext.live id (ho.live i id a hi hslot)

/-- A field that is not exempt and has been assigned may be freed. -/
theorem freeable (ho : Owns h slot exempt) {i : ι} (hi : ¬ exempt i)
    (hassigned : slot i ≠ .indeterminate) : h.Freeable (slot i) := by
  cases hp : slot i with
  | null => exact Or.inl rfl
  | indeterminate => exact absurd hp hassigned
  | block id a => exact Or.inr ⟨a, id, ho.live i id a hi hp, rfl⟩

/-- Only the size of the heap and its live blocks matter. -/
theorem congr_heap (ho : Owns h slot exempt) (hsize : h'.size = h.size)
    (hlive : h'.live = h.live) : Owns h' slot exempt where
  bounded i id a hi := by rw [hsize]; exact ho.bounded i id a hi
  distinct := ho.distinct
  live i id a hi hslot := by rw [hlive]; exact ho.live i id a hi hslot

/-! ## Assigning a field -/

/-- Assigning a field a block that no other field holds. -/
theorem update [DecidableEq ι] (ho : Owns h slot exempt) (i : ι) {id : ℕ} (a : α)
    (hfresh : ∀ j b, j ≠ i → slot j ≠ .block id b) (hlt : id < h.size)
    (hlive : ¬ exempt' i → id ∈ h.live) (hex : ∀ j, j ≠ i → exempt j → exempt' j) :
    Owns h (Function.update slot i (.block id a)) exempt' where
  bounded j id' b hj := by
    by_cases hji : j = i
    · rw [hji, Function.update_self] at hj
      cases hj
      exact hlt
    · rw [Function.update_of_ne hji] at hj
      exact ho.bounded j id' b hj
  distinct j k id' b b' hj hk := by
    by_cases hji : j = i <;> by_cases hki : k = i
    · rw [hji, hki]
    · rw [hji, Function.update_self] at hj
      rw [Function.update_of_ne hki] at hk
      cases hj
      exact absurd hk (hfresh k b' hki)
    · rw [hki, Function.update_self] at hk
      rw [Function.update_of_ne hji] at hj
      cases hk
      exact absurd hj (hfresh j b hji)
    · rw [Function.update_of_ne hji] at hj
      rw [Function.update_of_ne hki] at hk
      exact ho.distinct j k id' b b' hj hk
  live j id' b hj hslot := by
    by_cases hji : j = i
    · subst hji
      rw [Function.update_self] at hslot
      cases hslot
      exact hlive hj
    · rw [Function.update_of_ne hji] at hslot
      exact ho.live j id' b (fun hj' => hj (hex j hji hj')) hslot

/-- Assigning a field a new block. -/
theorem alloc [DecidableEq ι] (ho : Owns h slot exempt) (i : ι) (a : α)
    (hex : ∀ j, j ≠ i → exempt j → exempt' j) :
    Owns (h.alloc a).2 (Function.update slot i (h.alloc a).1) exempt' := by
  have hext := ho.extend (Heap.Extends.alloc h a)
  refine hext.update i a (fun j b _ hj => ?_) (Nat.lt_succ_self _)
    (fun _ => Finset.mem_insert_self _ _) hex
  have := ho.bounded j _ b hj
  omega

/-- Assigning a field something that is not a block. -/
theorem forget [DecidableEq ι] (ho : Owns h slot exempt) (i : ι) {p : Ptr α}
    (hp : ∀ id a, p ≠ .block id a) (hex : ∀ j, j ≠ i → exempt j → exempt' j) :
    Owns h (Function.update slot i p) exempt' where
  bounded j id b hj := by
    by_cases hji : j = i
    · rw [hji, Function.update_self] at hj
      exact absurd hj (hp id b)
    · rw [Function.update_of_ne hji] at hj
      exact ho.bounded j id b hj
  distinct j k id b b' hj hk := by
    by_cases hji : j = i
    · rw [hji, Function.update_self] at hj
      exact absurd hj (hp id b)
    · by_cases hki : k = i
      · rw [hki, Function.update_self] at hk
        exact absurd hk (hp id b')
      · rw [Function.update_of_ne hji] at hj
        rw [Function.update_of_ne hki] at hk
        exact ho.distinct j k id b b' hj hk
  live j id b hj hslot := by
    by_cases hji : j = i
    · rw [hji, Function.update_self] at hslot
      exact absurd hslot (hp id b)
    · rw [Function.update_of_ne hji] at hslot
      exact ho.live j id b (fun hj' => hj (hex j hji hj')) hslot

/-! ## Freeing fields -/

/-- A freed field is exempt from now on; the others keep their blocks. -/
theorem free (ho : Owns h slot exempt) (i : ι) :
    Owns (h.free (slot i)) slot fun j => exempt j ∨ j = i where
  bounded j id a hj := by
    rw [Heap.free_size]
    exact ho.bounded j id a hj
  distinct := ho.distinct
  live j id a hj hslot := by
    rw [not_or] at hj
    refine Heap.mem_live_free (ho.live j id a hj.1 hslot) fun hid => hj.2 ?_
    cases hi : slot i with
    | null => rw [hi] at hid; cases hid
    | indeterminate => rw [hi] at hid; cases hid
    | block id' b =>
      rw [hi] at hid
      cases hid
      exact ho.distinct j i id a b hslot hi

/-- Freeing a block that no field holds. -/
theorem release (ho : Owns h slot exempt) {p : Ptr α}
    (hp : ∀ i id a, slot i = .block id a → p.id? ≠ some id) : Owns (h.free p) slot exempt where
  bounded i id a hi := by
    rw [Heap.free_size]
    exact ho.bounded i id a hi
  distinct := ho.distinct
  live i id a hi hslot := Heap.mem_live_free (ho.live i id a hi hslot) (hp i id a hslot)

theorem freeAll (ho : Owns h slot exempt) (is : List ι) :
    Owns (h.freeAll slot is) slot fun j => exempt j ∨ j ∈ is := by
  induction is generalizing h exempt with
  | nil => exact ho.mono fun j hj => Or.inl hj
  | cons i is ih =>
    refine (ih (ho.free i)).mono fun j hj => ?_
    rcases hj with (hj | rfl) | hj
    · exact Or.inl hj
    · exact Or.inr List.mem_cons_self
    · exact Or.inr (List.mem_cons_of_mem i hj)

/-- Freeing different fields, none of them exempt or unassigned, frees nothing twice and nothing
that is not a block. -/
theorem invalidFrees_freeAll (ho : Owns h slot exempt) {is : List ι} (hnodup : is.Nodup)
    (hexempt : ∀ i ∈ is, ¬ exempt i) (hassigned : ∀ i ∈ is, slot i ≠ .indeterminate) :
    (h.freeAll slot is).invalidFrees = h.invalidFrees := by
  induction is generalizing h exempt with
  | nil => rfl
  | cons i is ih =>
    obtain ⟨hi, hnodup⟩ := List.nodup_cons.mp hnodup
    have hfirst := (Heap.invalidFrees_free_iff h (slot i)).mpr
      (ho.freeable (hexempt i List.mem_cons_self) (hassigned i List.mem_cons_self))
    refine (ih (ho.free i) hnodup (fun j hj hex => ?_)
      fun j hj => hassigned j (List.mem_cons_of_mem i hj)).trans hfirst
    rcases hex with hex | rfl
    · exact hexempt j (List.mem_cons_of_mem i hj) hex
    · exact hi hj

/-- Freeing different fields, none of them exempt or unassigned, releases what they hold. -/
theorem releases_freeAll (ho : Owns h slot exempt) {is : List ι} (hnodup : is.Nodup)
    (hexempt : ∀ i ∈ is, ¬ exempt i) (hassigned : ∀ i ∈ is, slot i ≠ .indeterminate) :
    h.Releases (h.freeAll slot is) (is.map slot) where
  freeable p hp := by
    obtain ⟨i, hi, rfl⟩ := List.mem_map.mp hp
    exact ho.freeable (hexempt i hi) (hassigned i hi)
  live id := by
    rw [Heap.mem_live_freeAll, List.forall_mem_map]
  invalidFrees := ho.invalidFrees_freeAll hnodup hexempt hassigned

end Owns

end WriteOnce
