import BleSim.Lib.Outcome
import Mathlib.Data.List.Nodup
import Mathlib.Data.Finset.Card
import Mathlib.Logic.Function.Basic

/-!
# Intrusive singly linked lists

An intrusive list keeps its links in the nodes themselves: a head pointer and one `next`
pointer a node. `Chain next h l` says that following `next` from `h` visits exactly the
nodes `l`, in order, and then ends; it is deterministic, so a chain has no cycle.

`loop` is a C `while (cursor)` loop over such a list, with fuel. Along a chain it needs no
more fuel than the chain is long, and is then a fold (`loop_eq_foldlM`) or a search
(`loop_eq_find`).

`Forest` collects the sibling lists of many parents that draw on one supply of nodes, with
a key on each node and a mark on each node that has an owner.
-/

namespace Intrusive

open Outcomes

variable {α β γ ε ι κ : Type}

/-- Following `next` from the given head visits exactly the listed nodes and ends. -/
inductive Chain (next : α → Option α) : Option α → List α → Prop
  | nil : Chain next none []
  | cons {a : α} {l : List α} : Chain next (next a) l → Chain next (some a) (a :: l)

namespace Chain

variable {next next' : α → Option α} {h : Option α} {l : List α}

/-- A head determines its chain. -/
theorem unique {l' : List α} (hl : Chain next h l) (hl' : Chain next h l') : l = l' := by
  induction hl generalizing l' with
  | nil => cases hl'; rfl
  | cons _ ih =>
    cases hl' with
    | cons htail => rw [ih htail]

/-- A chain only depends on the links of its own nodes. -/
theorem congr (hl : Chain next h l) (hnext : ∀ a ∈ l, next' a = next a) : Chain next' h l := by
  induction hl with
  | nil => exact .nil
  | @cons a l _ ih =>
    refine .cons ?_
    rw [hnext a List.mem_cons_self]
    exact ih fun b hb => hnext b (List.mem_cons_of_mem a hb)

/-- From any of its nodes on, a chain is a chain. -/
theorem tail_of_mem (hl : Chain next h l) {a : α} (ha : a ∈ l) :
    ∃ l₁ l₂, l = l₁ ++ a :: l₂ ∧ Chain next (some a) (a :: l₂) := by
  induction hl with
  | nil => cases ha
  | @cons b l htail ih =>
    rcases List.mem_cons.mp ha with rfl | hmem
    · exact ⟨[], l, rfl, .cons htail⟩
    · obtain ⟨l₁, l₂, rfl, hch⟩ := ih hmem
      exact ⟨b :: l₁, l₂, rfl, hch⟩

/-- A chain visits no node twice: it has no cycle. -/
theorem nodup (hl : Chain next h l) : l.Nodup := by
  induction hl with
  | nil => exact List.nodup_nil
  | @cons a l htail ih =>
    refine List.nodup_cons.mpr ⟨fun hmem => ?_, ih⟩
    -- a second visit of `a` would repeat the whole chain inside its own tail
    obtain ⟨l₁, l₂, hsplit, hch⟩ := htail.tail_of_mem hmem
    have heq : a :: l = a :: l₂ := (Chain.cons htail).unique hch
    have hlen := congrArg List.length hsplit
    simp only [List.cons.injEq, true_and] at heq
    rw [heq, List.length_append, List.length_cons] at hlen
    omega

/-- A chain through `n` numbered nodes visits at most `n` of them. -/
theorem length_le {next : ℕ → Option ℕ} {h : Option ℕ} {l : List ℕ} {n : ℕ}
    (hl : Chain next h l) (hlt : ∀ a ∈ l, a < n) : l.length ≤ n := by
  have hsub : l.toFinset ⊆ Finset.range n := by
    intro a ha
    exact Finset.mem_range.mpr (hlt a (List.mem_toFinset.mp ha))
  have hcard := Finset.card_le_card hsub
  rwa [List.toFinset_card_of_nodup hl.nodup, Finset.card_range] at hcard

/-- Linking a new node in front of a chain. -/
theorem push [DecidableEq α] (hl : Chain next h l) {a : α} (ha : a ∉ l) :
    Chain (Function.update next a h) (some a) (a :: l) := by
  refine .cons ?_
  rw [Function.update_self]
  refine hl.congr fun b hb => ?_
  have hne : b ≠ a := fun heq => ha (heq ▸ hb)
  rw [Function.update_of_ne hne]

end Chain

/-! ## Loops along a chain -/

/-- A C `while (cursor)` loop. The body returns the next cursor, so `none` leaves the loop;
`out` is raised when the fuel runs out. -/
def loop (out : ε) (body : α → β → Except ε (Option α × β)) :
    ℕ → Option α → β → Except ε β
  | _, none, b => .ok b
  | 0, some _, _ => .error out
  | fuel + 1, some a, b => do
    let (cursor, b) ← body a b
    loop out body fuel cursor b

/-- A loop that goes through a whole chain folds its body over it. -/
theorem loop_eq_foldlM {next : α → Option α} {h : Option α} {l : List α}
    {out : ε} {body : α → β → Except ε (Option α × β)} {f : β → α → Except ε β}
    (hl : Chain next h l) (hbody : ∀ a ∈ l, ∀ b, body a b = (fun b' => (next a, b')) <$> f b a)
    {fuel : ℕ} (hfuel : l.length ≤ fuel) (b : β) :
    loop out body fuel h b = l.foldlM f b := by
  induction hl generalizing fuel b with
  | nil =>
    cases fuel with
    | zero => rfl
    | succ n => rfl
  | @cons a l _ ih =>
    cases fuel with
    | zero => simp at hfuel
    | succ n =>
      rw [loop, hbody a List.mem_cons_self, List.foldlM_cons]
      cases hf : f b a with
      | error e => rfl
      | ok b' =>
        rw [ok_map, ok_bind, ok_bind]
        exact ih (fun c hc => hbody c (List.mem_cons_of_mem a hc))
          (by simpa using hfuel) b'

/-- A loop through a whole chain returns if every turn does, and keeps what holds of the nodes
passed so far and the state. -/
theorem loop_invariant {next : α → Option α} {h : Option α} {l : List α} {out : ε}
    {body : α → β → Except ε (Option α × β)} (hl : Chain next h l) {P : List α → β → Prop}
    (hbody : ∀ before a after b, l = before ++ a :: after → P before b →
      ∃ b', body a b = .ok (next a, b') ∧ P (before ++ [a]) b')
    {fuel : ℕ} (hfuel : l.length ≤ fuel) {b : β} (hb : P [] b) :
    ∃ b', loop out body fuel h b = .ok b' ∧ P l b' := by
  induction hl generalizing fuel b P with
  | nil =>
    refine ⟨b, ?_, hb⟩
    cases fuel with
    | zero => rfl
    | succ n => rfl
  | @cons a l _ ih =>
    cases fuel with
    | zero => simp at hfuel
    | succ n =>
      obtain ⟨b₁, hfirst, hb₁⟩ := hbody [] a l b rfl hb
      -- the rest of the loop has passed `a` already
      obtain ⟨b', hrest, hb'⟩ := ih (P := fun passed => P (a :: passed))
        (fun before c after b hsplit => hbody (a :: before) c after b (by rw [hsplit]; rfl))
        (by simpa using hfuel) hb₁
      refine ⟨b', ?_, hb'⟩
      rw [loop, hfirst, ok_bind]
      exact hrest

/-- A loop that leaves at the first node satisfying `p` finds it. -/
theorem loop_eq_find {next : α → Option α} {h : Option α} {l : List α} {out : ε}
    {body : α → Option α → Except ε (Option α × Option α)} {p : α → Bool}
    (hl : Chain next h l)
    (hbody : ∀ a ∈ l, body a none = .ok (if p a then (none, some a) else (next a, none)))
    {fuel : ℕ} (hfuel : l.length ≤ fuel) :
    loop out body fuel h none = .ok (l.find? p) := by
  induction hl generalizing fuel with
  | nil =>
    cases fuel with
    | zero => rfl
    | succ n => rfl
  | @cons a l _ ih =>
    cases fuel with
    | zero => simp at hfuel
    | succ n =>
      rw [loop, hbody a List.mem_cons_self, ok_bind]
      by_cases hp : p a
      · simp only [hp, ↓reduceIte, List.find?_cons_of_pos]
        cases n <;> rfl
      · simp only [hp, Bool.false_eq_true, ↓reduceIte, not_false_eq_true,
          List.find?_cons_of_neg]
        exact ih (fun c hc => hbody c (List.mem_cons_of_mem a hc)) (by simpa using hfuel)

/-- A search that ends without a result has passed every node. -/
theorem passes_of_loop_eq_none {next : α → Option α} {h : Option α} {l : List α} {out : ε}
    {body : α → Option α → Except ε (Option α × Option α)} (hl : Chain next h l)
    (hbody : ∀ a ∈ l, ∀ r, body a none = .ok r → r = (next a, none) ∨ ∃ b, r = (none, some b))
    {fuel : ℕ} (hloop : loop out body fuel h none = .ok none) :
    ∀ a ∈ l, body a none = .ok (next a, none) := by
  induction hl generalizing fuel with
  | nil => intro a ha; cases ha
  | @cons a l _ ih =>
    cases fuel with
    | zero => cases hloop
    | succ n =>
      rw [loop] at hloop
      obtain ⟨r, hr, hloop⟩ := bind_eq_ok.mp hloop
      rcases hbody a List.mem_cons_self r hr with rfl | ⟨b, rfl⟩
      · intro c hc
        rcases List.mem_cons.mp hc with rfl | hc
        · exact hr
        · exact ih (fun d hd => hbody d (List.mem_cons_of_mem a hd)) hloop c hc
      · cases n <;> cases hloop

/-- A search that ends with a result has found a node. -/
theorem mem_of_loop_eq_some {next : α → Option α} {h : Option α} {l : List α} {out : ε}
    {body : α → Option α → Except ε (Option α × Option α)} (hl : Chain next h l)
    (hbody : ∀ a ∈ l, ∀ r, body a none = .ok r → r = (next a, none) ∨ r = (none, some a))
    {fuel : ℕ} {b : α} (hloop : loop out body fuel h none = .ok (some b)) : b ∈ l := by
  induction hl generalizing fuel with
  | nil => cases fuel <;> cases hloop
  | @cons a l _ ih =>
    cases fuel with
    | zero => cases hloop
    | succ n =>
      rw [loop] at hloop
      obtain ⟨r, hr, hloop⟩ := bind_eq_ok.mp hloop
      rcases hbody a List.mem_cons_self r hr with rfl | rfl
      · exact List.mem_cons_of_mem a (ih (fun c hc => hbody c (List.mem_cons_of_mem a hc)) hloop)
      · have hfound : some a = some b := by
          cases n <;> exact Except.ok.inj hloop
        rw [Option.some.inj hfound]
        exact List.mem_cons_self

/-! ## Sibling lists -/

/-- The sibling lists of all parents `ι` over one supply of nodes `κ`: the head of each
parent's list, and the link, the key and the ownership mark of each node. -/
structure Forest (ι κ γ : Type) where
  first : ι → Option κ
  next : κ → Option κ
  key : κ → γ
  owned : κ → Prop

/-- `children` lists the children of every parent: every sibling list is a chain, no node is
in two of them, the marked nodes are those in some list, and siblings have distinct keys. -/
structure Forest.WellFormed (F : Forest ι κ γ) (children : ι → List κ) : Prop where
  chain : ∀ p, Chain F.next (F.first p) (children p)
  disjoint : ∀ p q c, c ∈ children p → c ∈ children q → p = q
  owned_iff : ∀ c, F.owned c ↔ ∃ p, c ∈ children p
  keys : ∀ p, ((children p).map F.key).Nodup

namespace Forest.WellFormed

variable {F F' : Forest ι κ γ} {children : ι → List κ}

/-- A forest without links or marks is well formed, with no children anywhere. -/
theorem empty (hfirst : ∀ p, F.first p = none) (howned : ∀ c, ¬ F.owned c) :
    F.WellFormed fun _ => [] where
  chain p := by rw [hfirst p]; exact .nil
  disjoint p q c hc _ := by cases hc
  owned_iff c := by simp [howned c]
  keys p := List.nodup_nil

/-- Changing only links and keys of nodes outside every list keeps a forest well formed. -/
theorem congr (hF : F.WellFormed children) (hfirst : ∀ p, F'.first p = F.first p)
    (hnext : ∀ c, F.owned c → F'.next c = F.next c)
    (hkey : ∀ c, F.owned c → F'.key c = F.key c)
    (howned : ∀ c, F'.owned c ↔ F.owned c) : F'.WellFormed children where
  chain p := by
    rw [hfirst p]
    exact (hF.chain p).congr fun c hc => hnext c ((hF.owned_iff c).mpr ⟨p, hc⟩)
  disjoint := hF.disjoint
  owned_iff c := (howned c).trans (hF.owned_iff c)
  keys p := by
    have hmap : (children p).map F'.key = (children p).map F.key :=
      List.map_congr_left fun c hc => hkey c ((hF.owned_iff c).mpr ⟨p, hc⟩)
    rw [hmap]
    exact hF.keys p

/-- The members of the lists after one of them has got a new head. -/
theorem mem_update_cons [DecidableEq ι] {p q : ι} {a c : κ} :
    a ∈ Function.update children p (c :: children p) q ↔ a ∈ children q ∨ (a = c ∧ q = p) := by
  by_cases hqp : q = p
  · subst hqp
    rw [Function.update_self, List.mem_cons]
    tauto
  · rw [Function.update_of_ne hqp]
    tauto

/-- Linking an unowned node with a new key in front of one parent's list. -/
theorem push [DecidableEq ι] [DecidableEq κ] (hF : F.WellFormed children) {p : ι} {c : κ}
    (hc : ¬ F.owned c) (hkey : F.key c ∉ (children p).map F.key)
    (hfirst : F'.first = Function.update F.first p (some c))
    (hnext : F'.next = Function.update F.next c (F.first p))
    (hkeys : ∀ a, F.owned a ∨ a = c → F'.key a = F.key a)
    (howned : ∀ a, F'.owned a ↔ F.owned a ∨ a = c) :
    F'.WellFormed (Function.update children p (c :: children p)) where
  chain q := by
    rw [hfirst, hnext]
    have hfresh : ∀ q, c ∉ children q := fun q hmem => hc ((hF.owned_iff c).mpr ⟨q, hmem⟩)
    by_cases hq : q = p
    · subst hq
      rw [Function.update_self, Function.update_self]
      exact (hF.chain q).push (hfresh q)
    · rw [Function.update_of_ne hq, Function.update_of_ne hq]
      refine (hF.chain q).congr fun a ha => ?_
      have hne : a ≠ c := fun heq => hfresh q (heq ▸ ha)
      rw [Function.update_of_ne hne]
  disjoint q r a hq hr := by
    -- `c` is new, so only `p` can list it; every other node keeps its one parent
    rcases mem_update_cons.mp hq with hq | ⟨hac, hqp⟩ <;>
      rcases mem_update_cons.mp hr with hr | ⟨hac', hrp⟩
    · exact hF.disjoint q r a hq hr
    · exact absurd ((hF.owned_iff c).mpr ⟨q, hac' ▸ hq⟩) hc
    · exact absurd ((hF.owned_iff c).mpr ⟨r, hac ▸ hr⟩) hc
    · rw [hqp, hrp]
  owned_iff a := by
    rw [howned a, hF.owned_iff a]
    constructor
    · intro h
      rcases h with ⟨q, hq⟩ | hac
      · exact ⟨q, mem_update_cons.mpr (Or.inl hq)⟩
      · exact ⟨p, mem_update_cons.mpr (Or.inr ⟨hac, rfl⟩)⟩
    · intro ⟨q, hq⟩
      rcases mem_update_cons.mp hq with hq | ⟨hac, -⟩
      · exact Or.inl ⟨q, hq⟩
      · exact Or.inr hac
  keys q := by
    have hold : ∀ r, (children r).map F'.key = (children r).map F.key := fun r =>
      List.map_congr_left fun a ha => hkeys a (Or.inl ((hF.owned_iff a).mpr ⟨r, ha⟩))
    by_cases hqp : q = p
    · subst hqp
      rw [Function.update_self, List.map_cons, hold q, hkeys c (Or.inr rfl)]
      exact List.nodup_cons.mpr ⟨hkey, hF.keys q⟩
    · rw [Function.update_of_ne hqp, hold q]
      exact hF.keys q

end Forest.WellFormed

end Intrusive
