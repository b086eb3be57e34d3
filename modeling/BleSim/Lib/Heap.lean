import Mathlib.Data.Finset.Basic
import Mathlib.Tactic.Common

/-!
# A heap of write-once blocks

`malloc`, `strdup` and `free` for programs that fill a block when they allocate it and never
write to it again: a pointer can then carry the contents its block was given, and the heap
only has to know which blocks are live. Blocks are numbered in the order of allocation and
a number is never used twice, so a pointer to a freed block stays recognisable.

A read through a pointer that is not to a live block finds arbitrary data (`stale`); a `free`
of such a pointer is recorded in `invalidFrees`.
-/

namespace WriteOnce

/-- A pointer field: NULL, never assigned, or the address of a block with these contents. -/
inductive Ptr (α : Type) where
  | null
  | indeterminate
  | block (id : ℕ) (contents : α)
deriving DecidableEq, Repr

/-- The block a pointer was obtained from, if any. -/
def Ptr.id? {α : Type} : Ptr α → Option ℕ
  | .block id _ => some id
  | .null | .indeterminate => none

/-- What the block a pointer was obtained from was filled with, live or not. -/
def Ptr.contents? {α : Type} : Ptr α → Option α
  | .block _ contents => some contents
  | .null | .indeterminate => none

/-- The pointer to a block that has been filled in since it was allocated. -/
def Ptr.fill {α : Type} (p : Ptr α) (contents : α) : Ptr α :=
  match p with
  | .block id _ => .block id contents
  | .null => .null
  | .indeterminate => .indeterminate

/-- The allocator: how many blocks it has handed out, and which of them are live. -/
structure Heap (α : Type) where
  size : ℕ
  live : Finset ℕ
  /-- every pointer passed to `free` that was neither NULL nor the address of a live block -/
  invalidFrees : List (Ptr α)
  /-- what a read through a pointer finds when it is not the address of a live block -/
  stale : Ptr α → α
  /-- which of the requests that may fail do fail -/
  fails : ℕ → Bool
  /-- how many requests that may fail were made -/
  requests : ℕ
  live_lt : ∀ id ∈ live, id < size

variable {α : Type}

namespace Heap

/-- The heap before the first allocation. -/
def initial (stale : Ptr α → α) (fails : ℕ → Bool) : Heap α where
  size := 0
  live := ∅
  invalidFrees := []
  stale := stale
  fails := fails
  requests := 0
  live_lt _ h := absurd h (Finset.notMem_empty _)

/-- Hand out a new block with contents `a`. -/
def alloc (h : Heap α) (a : α) : Ptr α × Heap α :=
  (.block h.size a,
    { h with
      size := h.size + 1
      live := insert h.size h.live
      live_lt := by
        intro id hid
        rcases Finset.mem_insert.mp hid with rfl | hid
        · exact Nat.lt_succ_self _
        · exact Nat.lt_succ_of_lt (h.live_lt id hid) })

/-- A request whose result the program checks: NULL when it fails. -/
def tryAlloc (h : Heap α) (a : α) : Ptr α × Heap α :=
  if h.fails h.requests then (.null, { h with requests := h.requests + 1 })
  else alloc { h with requests := h.requests + 1 } a

/-- Release the block at `p`; NULL is ignored. -/
def free (h : Heap α) (p : Ptr α) : Heap α :=
  match p with
  | .null => h
  | .indeterminate => { h with invalidFrees := p :: h.invalidFrees }
  | .block id _ =>
    if id ∈ h.live then
      { h with
        live := h.live.erase id
        live_lt := fun i hi => h.live_lt i (Finset.mem_of_mem_erase hi) }
    else { h with invalidFrees := p :: h.invalidFrees }

/-- What a read through `p` finds. -/
def read (h : Heap α) (p : Ptr α) : α :=
  match p with
  | .block id a => if id ∈ h.live then a else h.stale p
  | .null | .indeterminate => h.stale p

/-- `p` is the address of a live block with contents `a`. -/
def PointsTo (h : Heap α) (p : Ptr α) (a : α) : Prop :=
  ∃ id ∈ h.live, p = .block id a

/-- `p` may be passed to `free`: it is NULL or the address of a live block. -/
def Freeable (h : Heap α) (p : Ptr α) : Prop :=
  p = .null ∨ ∃ a, h.PointsTo p a

/-- No request ever fails. -/
def NeverFails (h : Heap α) : Prop := ∀ n, h.fails n = false

/-- The next `n` requests do not fail. -/
def Grants (h : Heap α) (n : ℕ) : Prop := ∀ i < n, h.fails (h.requests + i) = false

instance (h : Heap α) (n : ℕ) : Decidable (h.Grants n) :=
  inferInstanceAs (Decidable (∀ i < n, _))

/-- The blocks that are live in `h` are live in `h'`, and `h'` was made from `h` by allocating
and by releasing blocks allocated on the way. -/
structure Extends (h h' : Heap α) : Prop where
  live : ∀ id ∈ h.live, id ∈ h'.live
  size : h.size ≤ h'.size
  fresh : ∀ id ∈ h'.live, id < h.size → id ∈ h.live
  invalidFrees : h'.invalidFrees = h.invalidFrees
  fails : h'.fails = h.fails
  stale : h'.stale = h.stale

/-! ## Reading -/

theorem PointsTo.read {h : Heap α} {p : Ptr α} {a : α} (hp : h.PointsTo p a) : h.read p = a := by
  obtain ⟨id, hid, rfl⟩ := hp
  simp [Heap.read, hid]

theorem PointsTo.ne_null {h : Heap α} {p : Ptr α} {a : α} (hp : h.PointsTo p a) :
    p ≠ .null := by
  obtain ⟨id, -, rfl⟩ := hp
  simp

/-- A block has one contents. -/
theorem PointsTo.unique {h h' : Heap α} {p : Ptr α} {a b : α} (ha : h.PointsTo p a)
    (hb : h'.PointsTo p b) : a = b := by
  obtain ⟨id, -, rfl⟩ := ha
  obtain ⟨id', -, heq⟩ := hb
  cases heq
  rfl

/-! ## Allocating -/

@[simp] theorem alloc_size (h : Heap α) (a : α) : (h.alloc a).2.size = h.size + 1 := rfl

@[simp] theorem alloc_live (h : Heap α) (a : α) :
    (h.alloc a).2.live = insert h.size h.live := rfl

@[simp] theorem alloc_invalidFrees (h : Heap α) (a : α) :
    (h.alloc a).2.invalidFrees = h.invalidFrees := rfl

@[simp] theorem alloc_fst (h : Heap α) (a : α) : (h.alloc a).1 = .block h.size a := rfl

theorem alloc_pointsTo (h : Heap α) (a : α) : (h.alloc a).2.PointsTo (h.alloc a).1 a :=
  ⟨h.size, Finset.mem_insert_self _ _, rfl⟩

@[simp] theorem read_alloc (h : Heap α) (a : α) : (h.alloc a).2.read (.block h.size a) = a :=
  (alloc_pointsTo h a).read

theorem NeverFails.grants {h : Heap α} (hf : h.NeverFails) (n : ℕ) : h.Grants n :=
  fun i _ => hf (h.requests + i)

theorem grants_one {h : Heap α} : h.Grants 1 ↔ h.fails h.requests = false := by
  simp [Grants]

/-- Requests are granted one part after the other. -/
theorem grants_add {h h' : Heap α} {m : ℕ} (hfails : h'.fails = h.fails)
    (hrequests : h'.requests = h.requests + m) (n : ℕ) :
    h.Grants (m + n) ↔ h.Grants m ∧ h'.Grants n := by
  constructor
  · intro hgrants
    refine ⟨fun i hi => hgrants i (by omega), fun i hi => ?_⟩
    rw [hfails, hrequests, Nat.add_assoc]
    exact hgrants (m + i) (by omega)
  · intro ⟨hfirst, hrest⟩ i hi
    by_cases him : i < m
    · exact hfirst i him
    · have hlater := hrest (i - m) (by omega)
      rwa [hfails, hrequests, show h.requests + m + (i - m) = h.requests + i by omega] at hlater

@[simp] theorem tryAlloc_requests (h : Heap α) (a : α) :
    (h.tryAlloc a).2.requests = h.requests + 1 := by
  unfold tryAlloc
  split <;> rfl

/-- A request that fails yields NULL. -/
theorem tryAlloc_eq_null {h : Heap α} {a : α} : (h.tryAlloc a).1 = .null ↔ ¬ h.Grants 1 := by
  rw [grants_one, tryAlloc]
  cases h.fails h.requests <;> simp [alloc]

theorem tryAlloc_of_neverFails {h : Heap α} (hf : h.NeverFails) (a : α) :
    h.tryAlloc a = alloc { h with requests := h.requests + 1 } a := by
  rw [tryAlloc, hf, if_neg (by simp)]

/-! ## Releasing -/

@[simp] theorem free_null (h : Heap α) : h.free .null = h := rfl

@[simp] theorem free_size (h : Heap α) (p : Ptr α) : (h.free p).size = h.size := by
  unfold free
  split
  · rfl
  · rfl
  · split <;> rfl

@[simp] theorem free_fails (h : Heap α) (p : Ptr α) : (h.free p).fails = h.fails := by
  unfold free
  split
  · rfl
  · rfl
  · split <;> rfl

@[simp] theorem free_stale (h : Heap α) (p : Ptr α) : (h.free p).stale = h.stale := by
  unfold free
  split
  · rfl
  · rfl
  · split <;> rfl

@[simp] theorem free_requests (h : Heap α) (p : Ptr α) : (h.free p).requests = h.requests := by
  unfold free
  split
  · rfl
  · rfl
  · split <;> rfl

/-- Releasing a block changes nothing about the requests to come. -/
theorem grants_free (h : Heap α) (p : Ptr α) (n : ℕ) : (h.free p).Grants n ↔ h.Grants n := by
  rw [Grants, Grants, free_fails, free_requests]

/-- Releasing a live block records nothing. -/
theorem free_block {h : Heap α} {id : ℕ} (hid : id ∈ h.live) (a : α) :
    (h.free (.block id a)).live = h.live.erase id ∧
      (h.free (.block id a)).invalidFrees = h.invalidFrees := by
  simp [free, hid]

/-- `free` records nothing exactly when its argument may be released. -/
theorem invalidFrees_free_iff (h : Heap α) (p : Ptr α) :
    (h.free p).invalidFrees = h.invalidFrees ↔ h.Freeable p := by
  cases p with
  | null => simp [free, Freeable]
  | indeterminate => simp [free, Freeable, PointsTo]
  | block id a =>
    by_cases hid : id ∈ h.live
    · simp [free, hid, Freeable, PointsTo]
    · simp [free, hid, Freeable, PointsTo]

/-- Releasing one block leaves every other live. -/
theorem mem_live_free {h : Heap α} {p : Ptr α} {id : ℕ} (hid : id ∈ h.live)
    (hne : p.id? ≠ some id) : id ∈ (h.free p).live := by
  cases p with
  | null => exact hid
  | indeterminate => exact hid
  | block i a =>
    have hi : id ≠ i := fun heq => hne (by rw [heq]; rfl)
    unfold free
    split
    · contradiction
    · contradiction
    · rename_i j b heq
      cases heq
      split
      · exact Finset.mem_erase.mpr ⟨hi, hid⟩
      · exact hid

/-- A `free` makes no block live. -/
theorem live_free_subset (h : Heap α) (p : Ptr α) : ∀ id ∈ (h.free p).live, id ∈ h.live := by
  intro id hid
  cases p with
  | null => exact hid
  | indeterminate => exact hid
  | block i a =>
    unfold free at hid
    split at hid
    · contradiction
    · contradiction
    · rename_i j b heq
      cases heq
      split at hid
      · exact Finset.mem_of_mem_erase hid
      · exact hid

/-! ## New blocks -/

/-- `p` is the address of a live block with contents `a` that `h` did not have yet. -/
def New (h h' : Heap α) (p : Ptr α) (a : α) : Prop :=
  ∃ id ∈ h'.live, h.size ≤ id ∧ p = .block id a

theorem New.read {h h' : Heap α} {p : Ptr α} {a : α} (hnew : New h h' p a) : h'.read p = a := by
  obtain ⟨id, hlive, -, rfl⟩ := hnew
  exact PointsTo.read ⟨id, hlive, rfl⟩

theorem New.ne_null {h h' : Heap α} {p : Ptr α} {a : α} (hnew : New h h' p a) : p ≠ .null := by
  obtain ⟨id, -, -, rfl⟩ := hnew
  simp

/-- Filling in a new block. -/
theorem New.fill {h h' : Heap α} {p : Ptr α} {a : α} (hnew : New h h' p a) (b : α) :
    New h h' (p.fill b) b := by
  obtain ⟨id, hlive, hid, rfl⟩ := hnew
  exact ⟨id, hlive, hid, rfl⟩

/-- A request that may fail yields NULL or a new block. -/
theorem tryAlloc_cases (h : Heap α) (a : α) :
    (h.tryAlloc a).1 = .null ∨ New h (h.tryAlloc a).2 (h.tryAlloc a).1 a := by
  unfold tryAlloc
  split
  · exact Or.inl rfl
  · exact Or.inr ⟨h.size, Finset.mem_insert_self _ _, Nat.le_refl _, rfl⟩

theorem tryAlloc_new {h : Heap α} (hf : h.NeverFails) (a : α) :
    New h (h.tryAlloc a).2 (h.tryAlloc a).1 a := by
  rw [tryAlloc_of_neverFails hf]
  exact ⟨h.size, Finset.mem_insert_self _ _, Nat.le_refl _, rfl⟩

/-! ## Accounting for blocks -/

/-- All that is in use in `h'` and was not in use in `h` is the block at `p`. -/
def Leaves (h h' : Heap α) (p : Ptr α) : Prop :=
  ∀ id ∈ h'.live, id ∈ h.live ∨ p.id? = some id

theorem tryAlloc_leaves (h : Heap α) (a : α) : Leaves h (h.tryAlloc a).2 (h.tryAlloc a).1 := by
  unfold tryAlloc
  split
  · exact fun id hid => Or.inl hid
  · intro id hid
    rcases Finset.mem_insert.mp hid with rfl | hid
    · exact Or.inr rfl
    · exact Or.inl hid

/-- A block that is still in use is not the one that was released. -/
theorem ne_of_mem_live_free {h : Heap α} {p : Ptr α} {id : ℕ} (hid : id ∈ (h.free p).live) :
    p.id? ≠ some id := by
  cases p with
  | null => simp [Ptr.id?]
  | indeterminate => simp [Ptr.id?]
  | block i a =>
    intro heq
    obtain rfl : i = id := Option.some.inj heq
    by_cases hlive : i ∈ h.live
    · rw [(free_block hlive a).1] at hid
      exact Finset.notMem_erase i _ hid
    · exact hlive (live_free_subset h _ i hid)

namespace Leaves

variable {h h' h'' : Heap α} {p : Ptr α}

theorem refl (h : Heap α) (p : Ptr α) : Leaves h h p := fun _ hid => Or.inl hid

/-- Releasing what was left. -/
theorem free (h₁ : Leaves h h' p) : Leaves h (h'.free p) .null := by
  intro id hid
  have hne := ne_of_mem_live_free hid
  exact Or.inl ((h₁ id (live_free_subset h' p id hid)).resolve_right hne)

theorem trans (h₁ : Leaves h h' p) (h₂ : Leaves h' h'' .null) : Leaves h h'' p := by
  intro id hid
  rcases h₂ id hid with hid | hnull
  · exact h₁ id hid
  · cases hnull

end Leaves

/-! ## Heaps that only grow -/

namespace Extends

variable {h h' h'' : Heap α}

theorem refl (h : Heap α) : h.Extends h :=
  ⟨fun _ hid => hid, Nat.le_refl _, fun _ hid _ => hid, rfl, rfl, rfl⟩

theorem trans (h₁ : h.Extends h') (h₂ : h'.Extends h'') : h.Extends h'' where
  live id hid := h₂.live id (h₁.live id hid)
  size := Nat.le_trans h₁.size h₂.size
  fresh id hid hlt :=
    h₁.fresh id (h₂.fresh id hid (Nat.lt_of_lt_of_le hlt h₁.size)) hlt
  invalidFrees := h₂.invalidFrees.trans h₁.invalidFrees
  fails := h₂.fails.trans h₁.fails
  stale := h₂.stale.trans h₁.stale

theorem alloc (h : Heap α) (a : α) : h.Extends (h.alloc a).2 where
  live id hid := Finset.mem_insert_of_mem hid
  size := Nat.le_succ _
  fresh id hid hlt := by
    rcases Finset.mem_insert.mp hid with rfl | hid
    · exact absurd hlt (Nat.lt_irrefl _)
    · exact hid
  invalidFrees := rfl
  fails := rfl
  stale := rfl

theorem tryAlloc (h : Heap α) (a : α) : h.Extends (h.tryAlloc a).2 := by
  have hreq : h.Extends { h with requests := h.requests + 1 } :=
    ⟨fun _ hid => hid, Nat.le_refl _, fun _ hid _ => hid, rfl, rfl, rfl⟩
  unfold Heap.tryAlloc
  split
  · exact hreq
  · exact hreq.trans (alloc _ a)

/-- Releasing a block that was allocated on the way. -/
theorem free_new (h₁ : h.Extends h') {id : ℕ} (hid : id ∈ h'.live) (hnew : h.size ≤ id) (a : α) :
    h.Extends (h'.free (.block id a)) where
  live i hi := by
    have hne : i ≠ id := by
      have := h.live_lt i hi
      omega
    exact mem_live_free (h₁.live i hi) (by simpa [Ptr.id?] using hne.symm)
  size := by rw [free_size]; exact h₁.size
  fresh i hi hlt := h₁.fresh i (live_free_subset _ _ i hi) hlt
  invalidFrees := (free_block hid a).2.trans h₁.invalidFrees
  fails := (free_fails _ _).trans h₁.fails
  stale := (free_stale _ _).trans h₁.stale

theorem neverFails (h₁ : h.Extends h') (hf : h.NeverFails) : h'.NeverFails :=
  fun n => (congrFun h₁.fails n).trans (hf n)

/-- What is new compared with a later heap is new compared with an earlier one. -/
theorem new (h₁ : h.Extends h') {p : Ptr α} {a : α} (hnew : New h' h'' p a) : New h h'' p a := by
  obtain ⟨id, hlive, hid, hp⟩ := hnew
  exact ⟨id, hlive, Nat.le_trans h₁.size hid, hp⟩

/-- A new block stays one as long as the heap only grows. -/
theorem keep {h₀ : Heap α} (h₁ : h.Extends h') {p : Ptr α} {a : α} (hnew : New h₀ h p a) :
    New h₀ h' p a := by
  obtain ⟨id, hlive, hid, hp⟩ := hnew
  exact ⟨id, h₁.live id hlive, hid, hp⟩

/-- Releasing what was allocated on the way. -/
theorem free (h₁ : h.Extends h') {p : Ptr α} {a : α} (hnew : New h h' p a) :
    h.Extends (h'.free p) := by
  obtain ⟨id, hlive, hid, rfl⟩ := hnew
  exact h₁.free_new hlive hid a

theorem pointsTo (h₁ : h.Extends h') {p : Ptr α} {a : α} (hp : h.PointsTo p a) :
    h'.PointsTo p a := by
  obtain ⟨id, hid, rfl⟩ := hp
  exact ⟨id, h₁.live id hid, rfl⟩

end Extends

end Heap

end WriteOnce
