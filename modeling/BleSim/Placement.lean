import BleSim.DeviceList
import BleSim.Presentation
import BleSim.Paths
import BleSim.RegisterTheorems

/-!
# Where the objects are

A child that hangs in a list has the path of its position, and one that does not has no path
(`PathInv`): as long as no counter wraps around, a new path differs from all that are
registered, so the library does not refuse it. The positions of the objects (`Placed`) then tell
the paths apart: different objects are at different positions.
-/

namespace BleSim

open Outcomes WriteOnce Intrusive

/-! ## The paths of the objects -/

namespace State

/-- The text of the path of an object. The paths of devices never change, and an advertisement is
given its path when the device is registered. -/
def pathOf (σ : State) : Obj → Option CStr
  | .device d => some (devicePath d)
  | .advertisement d => some (advertPath d)
  | .service s => ((σ.nodes .service)[s]?).bind fun n => n.objectPath.contents?
  | .characteristic c => ((σ.nodes .characteristic)[c]?).bind fun n => n.objectPath.contents?
  | .descriptor k => ((σ.nodes .descriptor)[k]?).bind fun n => n.objectPath.contents?

theorem pathOf_object (σ : State) (kind : Kind) (c : ℕ) :
    σ.pathOf (kind.object c) = ((σ.nodes kind)[c]?).bind fun n => n.objectPath.contents? := by
  cases kind <;> rfl

/-- What has a path keeps it when nodes with a path stay. -/
theorem pathOf_mono {σ σ' : State} (h : ∀ (kind : Kind) (c : ℕ) (n : Node),
    (σ.nodes kind)[c]? = some n → n.objectPath ≠ .null → (σ'.nodes kind)[c]? = some n) {o : Obj}
    {path : CStr} (ho : σ.pathOf o = some path) : σ'.pathOf o = some path := by
  have hchild : ∀ (kind : Kind) (c : ℕ), σ.pathOf (kind.object c) = some path →
      σ'.pathOf (kind.object c) = some path := by
    intro kind c hc
    rw [pathOf_object] at hc ⊢
    obtain ⟨n, hn, hpath⟩ := Option.bind_eq_some_iff.mp hc
    have hnull : n.objectPath ≠ .null := by
      intro hnull
      rw [hnull] at hpath
      cases hpath
    rw [h kind c n hn hnull]
    exact hpath
  cases o with
  | device d => exact ho
  | advertisement d => exact ho
  | service s => exact hchild .service s ho
  | characteristic c => exact hchild .characteristic c ho
  | descriptor k => exact hchild .descriptor k ho

end State

theorem Kind.parent_injective (kind : Kind) : Function.Injective kind.parent := by
  intro p q h
  cases kind <;> (cases h; rfl)

/-- Parents that are no devices are children themselves. -/
theorem Kind.parent_eq (kind : Kind) : kind = .service ∨
    ∃ kind₀ : Kind, kind.parent = kind₀.object ∧
      ∀ σ : State, σ.parentPaths kind = (σ.nodes kind₀).map Node.objectPath := by
  cases kind with
  | service => exact Or.inl rfl
  | characteristic => exact Or.inr ⟨.service, rfl, fun σ => σ.parentPaths_characteristic⟩
  | descriptor => exact Or.inr ⟨.characteristic, rfl, fun σ => σ.parentPaths_descriptor⟩

/-! ## The path fields -/

/-- The path fields of the children: those in a list hold the path of their parent, which goes on
with the number of children that were there before, and the others hold nothing. -/
structure PathInv (σ : State) (children : Kind → ℕ → List ℕ) : Prop where
  listed : ∀ (kind : Kind) (p : ℕ) (l₁ : List ℕ) (c : ℕ) (l₂ : List ℕ),
    children kind p = l₁ ++ c :: l₂ → ∃ n parentPath, (σ.nodes kind)[c]? = some n ∧
      σ.pathOf (kind.parent p) = some parentPath ∧ n.parentPath.contents? = some parentPath ∧
      n.objectPath.contents? =
        some (objectPathString parentPath kind.objectName (UInt32.ofNat l₂.length))
  unlisted : ∀ (kind : Kind) (c : ℕ) (n : Node), (σ.nodes kind)[c]? = some n →
    n.parentPath = .null → n.objectPath = .null

namespace PathInv

variable {σ σ' : State} {children : Kind → ℕ → List ℕ}

theorem of_isInitial (h : σ.IsInitial) : PathInv σ fun _ _ => [] := by
  obtain ⟨strings, buffers, fails, outOfMemory, rfl⟩ := h
  refine ⟨fun kind p l₁ c l₂ hsplit => by simp at hsplit, fun kind c n hn => ?_⟩
  cases kind <;> simp [State.initial, State.nodes] at hn

/-- New objects have no path. -/
theorem grow (h : PathInv σ children) (hgrows : TreeGrows σ σ') : PathInv σ' children := by
  have hold : ∀ (kind : Kind) (c : ℕ) (n : Node), (σ.nodes kind)[c]? = some n →
      (σ'.nodes kind)[c]? = some n := by
    intro kind c n hn
    obtain ⟨ns, hnodes, -⟩ := hgrows.nodes kind
    rw [hnodes]
    exact State.getElem?_append_of_some hn ns
  refine ⟨fun kind p l₁ c l₂ hsplit => ?_, fun kind c n hn hnull => ?_⟩
  · obtain ⟨n, parentPath, hn, hparent, hfields⟩ := h.listed kind p l₁ c l₂ hsplit
    exact ⟨n, parentPath, hold kind c n hn,
      State.pathOf_mono (fun kind c n hn _ => hold kind c n hn) hparent, hfields⟩
  · obtain ⟨ns, hnodes, hns⟩ := hgrows.nodes kind
    rw [hnodes, List.getElem?_append] at hn
    split_ifs at hn with hlt
    · exact h.unlisted kind c n hn hnull
    · exact (hns n (List.mem_of_getElem? hn)).2.1

/-- The path of a parent that is still there, and has one if it needs one, can be read. -/
theorem pointsTo_parent (h : PathInv σ children) (hpointers : PointersInv σ) {kind : Kind} {p : ℕ}
    {path : Ptr CStr} {x : Children} (hparent : σ.parent kind p = .ok (path, x))
    (hpublished : ¬ Unpublished kind path) :
    ∃ text, σ.strings.PointsTo path text ∧ σ.pathOf (kind.parent p) = some text := by
  obtain ⟨hfin, hpath, -⟩ := State.parent_eq_ok.mp hparent
  rcases kind.parent_eq with rfl | ⟨kind₀, hkind, hpaths⟩
  · -- the parent is a device, whose path is a string of its own
    simp only [State.parentPaths, List.getElem?_map, Option.map_eq_some_iff] at hpath
    obtain ⟨y, hy, rfl⟩ := hpath
    obtain ⟨id, hid⟩ := (hpointers.devices p y hy).objectPath
    refine ⟨devicePath p, ?_, rfl⟩
    exact hpointers.pointsTo_device (State.device_eq_ok.mpr ⟨hfin, hy⟩)
      (show y.field .objectPath = _ from hid)
  · -- the parent is a child itself: it has a path, so it has been attached
    rw [hpaths, List.getElem?_map, Option.map_eq_some_iff] at hpath
    obtain ⟨n, hn, rfl⟩ := hpath
    have hnull : n.objectPath ≠ .null := by
      refine fun hnull => hpublished ⟨fun hservice => ?_, hnull⟩
      have hdevice := congrFun hkind p
      subst hservice
      cases kind₀ <;> cases hdevice
    have hwf := hpointers.nodes kind₀ n (List.mem_of_getElem? hn)
    obtain ⟨id, text, htext⟩ := hwf.objectPath hnull
    have hattached : n.parentPath ≠ .null := fun hn' => hnull (h.unlisted kind₀ p n hn hn')
    refine ⟨text, ?_, ?_⟩
    · rw [hkind] at hfin
      exact hpointers.pointsTo_attached (State.node_eq_ok.mpr ⟨hfin, hn⟩) hattached
        (show n.field .objectPath = _ from htext)
    · rw [hkind, State.pathOf_object, hn, Option.bind_some, htext]
      rfl

end PathInv

/-! ## Adding a child -/

/-- The lists after the child `c` has been added in front of the list of `p`. -/
def childrenPush (children : Kind → ℕ → List ℕ) (kind : Kind) (p c : ℕ) : Kind → ℕ → List ℕ :=
  Function.update children kind (Function.update (children kind) p (c :: children kind p))

theorem childrenPush_self (children : Kind → ℕ → List ℕ) (kind : Kind) (p c : ℕ) :
    childrenPush children kind p c kind p = c :: children kind p := by
  rw [childrenPush, Function.update_self, Function.update_self]

theorem childrenPush_of_ne (children : Kind → ℕ → List ℕ) {kind kind' : Kind} {p q : ℕ} (c : ℕ)
    (hne : ¬ (kind' = kind ∧ q = p)) :
    childrenPush children kind p c kind' q = children kind' q := by
  unfold childrenPush
  by_cases hkind : kind' = kind
  · subst hkind
    rw [Function.update_self, Function.update_of_ne fun hq => hne ⟨rfl, hq⟩]
  · rw [Function.update_of_ne hkind]

section Push

variable {σ : State} {children : Kind → ℕ → List ℕ} {kind : Kind} {p c : ℕ} {path : Ptr CStr}
  {x : Children} {node : Node}

theorem Forests.attach (h : Forests σ children) (hpointers : PointersInv σ)
    (hpasses : Passes σ kind p c path x node) :
    Forests (σ.attach kind p c node path x) (childrenPush children kind p c) := by
  intro kind'
  unfold childrenPush
  by_cases hkind : kind' = kind
  · subst hkind
    rw [Function.update_self]
    exact (h kind').attach hpointers hpasses
  · rw [Function.update_of_ne hkind]
    exact (h kind').attach_other hkind

/-- A child that is to be added is in no list yet. -/
theorem Forests.ne_of_mem (h : Forests σ children) (hpasses : Passes σ kind p c path x node)
    {q e : ℕ} (he : e ∈ children kind q) : e ≠ c := by
  intro hec
  obtain ⟨n, hn, hattached⟩ := (h kind).mem_nodes he
  rw [hec, (State.node_eq_ok.mp hpasses.child).2] at hn
  cases hn
  exact hattached hpasses.unowned

/-- What has a path before a child is added has it still. -/
theorem PathInv.pathOf_attach (h : PathInv σ children) (hpasses : Passes σ kind p c path x node)
    {o : Obj} {text : CStr} (ho : σ.pathOf o = some text) :
    (σ.attach kind p c node path x).pathOf o = some text := by
  refine State.pathOf_mono (fun kind' e n hn hnull => ?_) ho
  rw [hpasses.getElem?_nodes, if_neg]
  · exact hn
  · rintro ⟨rfl, rfl⟩
    rw [(State.node_eq_ok.mp hpasses.child).2] at hn
    cases hn
    exact hnull (h.unlisted _ _ node (State.node_eq_ok.mp hpasses.child).2 hpasses.unowned)

/-- The new child is given the paths of its position. -/
theorem PathInv.attach (h : PathInv σ children) (hforests : Forests σ children)
    (hpointers : PointersInv σ) (hpasses : Passes σ kind p c path x node) :
    PathInv (σ.attach kind p c node path x) (childrenPush children kind p c) := by
  obtain ⟨text, hpoints, hparent⟩ := h.pointsTo_parent hpointers hpasses.parent hpasses.published
  -- the children that were in a list before keep their paths
  have hold : ∀ (kind' : Kind) (q : ℕ) (l₁ : List ℕ) (e : ℕ) (l₂ : List ℕ),
      children kind' q = l₁ ++ e :: l₂ → ∃ n parentPath,
        ((σ.attach kind p c node path x).nodes kind')[e]? = some n ∧
        (σ.attach kind p c node path x).pathOf (kind'.parent q) = some parentPath ∧
        n.parentPath.contents? = some parentPath ∧ n.objectPath.contents? =
          some (objectPathString parentPath kind'.objectName (UInt32.ofNat l₂.length)) := by
    intro kind' q l₁ e l₂ hsplit
    obtain ⟨n, parentPath, hn, hparent', hfields⟩ := h.listed kind' q l₁ e l₂ hsplit
    refine ⟨n, parentPath, ?_, h.pathOf_attach hpasses hparent', hfields⟩
    rw [hpasses.getElem?_nodes, if_neg]
    · exact hn
    · rintro ⟨rfl, hec⟩
      exact hforests.ne_of_mem hpasses (hsplit ▸ List.mem_append_right _ List.mem_cons_self) hec
  refine ⟨fun kind' q l₁ e l₂ hsplit => ?_, fun kind' e n hn hnull => ?_⟩
  · by_cases hnew : kind' = kind ∧ q = p
    · obtain ⟨rfl, rfl⟩ := hnew
      rw [childrenPush_self] at hsplit
      cases l₁ with
      | nil =>
        simp only [List.nil_append, List.cons.injEq] at hsplit
        obtain ⟨rfl, rfl⟩ := hsplit
        have hread : (σ.strings.alloc (σ.childPath kind' path x)).2.read path = text :=
          ((Heap.Extends.alloc _ _).pointsTo hpoints).read
        refine ⟨σ.attachedNode kind' node path x, text, ?_, h.pathOf_attach hpasses hparent, ?_, ?_⟩
        · rw [hpasses.getElem?_nodes, if_pos ⟨rfl, rfl⟩]
        · exact congrArg some hread
        · show some (σ.childPath kind' path x) = _
          rw [State.childPath, hpoints.read,
            (hforests kind').count q x (State.parent_eq_ok.mp hpasses.parent).2.2]
      | cons a l₁ =>
        simp only [List.cons_append, List.cons.injEq] at hsplit
        exact hold kind' q l₁ e l₂ hsplit.2
    · rw [childrenPush_of_ne children c hnew] at hsplit
      exact hold kind' q l₁ e l₂ hsplit
  · rw [hpasses.getElem?_nodes] at hn
    split_ifs at hn
    · cases hn
      simp [State.attachedNode] at hnull
    · exact h.unlisted kind' e n hn hnull

end Push

/-! ## Positions -/

/-- The object was added to the list of `p` when the list held `i` children. -/
def State.ChildAt (σ : State) (kind : Kind) (p i c : ℕ) : Prop :=
  ∃ x l₁ l₂, (σ.lists kind)[p]? = some x ∧ Chain (σ.next kind) x.head (l₁ ++ c :: l₂) ∧
    l₂.length = i

/-- Where an object is in the tree. -/
inductive Placed (σ : State) : Obj → Position → Prop
  | device {d : ℕ} : d < σ.devices.length → Placed σ (.device d) (.device (UInt32.ofNat d))
  | advertisement {d : ℕ} : d < σ.devices.length →
      Placed σ (.advertisement d) (.advertisement (UInt32.ofNat d))
  | child {kind : Kind} {p i c : ℕ} {parent : Position} : Placed σ (kind.parent p) parent →
      σ.ChildAt kind p i c → Placed σ (kind.object c) (.child kind parent (UInt32.ofNat i))

/-- No counter has wrapped around: there are fewer than `2 ^ 32` devices, and every list has fewer
than `2 ^ 32` children. -/
structure CountersFit (σ : State) : Prop where
  devices : σ.devices.length < 2 ^ 32
  lists : ∀ (kind : Kind) (p : ℕ) (x : Children) (l : List ℕ), (σ.lists kind)[p]? = some x →
    Chain (σ.next kind) x.head l → l.length < 2 ^ 32

theorem eq_of_ofNat_eq {m n : ℕ} (hm : m < 2 ^ 32) (hn : n < 2 ^ 32)
    (h : UInt32.ofNat m = UInt32.ofNat n) : m = n := by
  have hnat := congrArg UInt32.toNat h
  rwa [UInt32.toNat_ofNat', UInt32.toNat_ofNat', Nat.mod_eq_of_lt hm, Nat.mod_eq_of_lt hn] at hnat

section Positions

variable {σ : State} {children : Kind → ℕ → List ℕ}

theorem ForestInv.childAt_iff {kind : Kind} {children : ℕ → List ℕ} (h : ForestInv σ kind children)
    {p i c : ℕ} : σ.ChildAt kind p i c ↔ ∃ l₁ l₂, children p = l₁ ++ c :: l₂ ∧ l₂.length = i := by
  have hchain := h.wellFormed.chain p
  constructor
  · rintro ⟨x, l₁, l₂, hx, hl, hi⟩
    have hfirst : (σ.forest kind).first p = x.head := by simp [State.forest, hx]
    rw [hfirst] at hchain
    exact ⟨l₁, l₂, hchain.unique hl, hi⟩
  · rintro ⟨l₁, l₂, hsplit, hi⟩
    obtain ⟨x, hx⟩ := h.exists_list
      (hsplit ▸ List.mem_append_right _ List.mem_cons_self : c ∈ children p)
    have hfirst : (σ.forest kind).first p = x.head := by simp [State.forest, hx]
    rw [hfirst, hsplit] at hchain
    exact ⟨x, l₁, l₂, hx, hchain, hi⟩

theorem CountersFit.length_lt (hfit : CountersFit σ) (h : Forests σ children) (kind : Kind)
    (p : ℕ) : (children kind p).length < 2 ^ 32 := by
  have hchain := (h kind).wellFormed.chain p
  cases hx : (σ.lists kind)[p]? with
  | none =>
    have hfirst : (σ.forest kind).first p = none := by simp [State.forest, hx]
    rw [hfirst] at hchain
    rw [hchain.unique .nil]
    decide
  | some x =>
    have hfirst : (σ.forest kind).first p = x.head := by simp [State.forest, hx]
    rw [hfirst] at hchain
    exact hfit.lists kind p x _ hx hchain

/-- The path of a position is the path of the object there. -/
theorem PathInv.pathOf_eq (h : PathInv σ children) (hforests : Forests σ children) {o : Obj}
    {pos : Position} (hplaced : Placed σ o pos) : σ.pathOf o = some pos.path := by
  induction hplaced with
  | device _ => rfl
  | advertisement _ => rfl
  | @child kind p i c parent _ hchild ih =>
    obtain ⟨l₁, l₂, hsplit, rfl⟩ := (hforests kind).childAt_iff.mp hchild
    obtain ⟨n, parentPath, hn, hparent, -, hpath⟩ := h.listed kind p l₁ c l₂ hsplit
    rw [ih, Option.some.injEq] at hparent
    rw [State.pathOf_object, hn, Option.bind_some, hpath, ← hparent]
    rfl

/-- A child with a path has a position. -/
theorem PathInv.exists_placed (h : PathInv σ children) (hforests : Forests σ children)
    (kind : Kind) {c : ℕ} {path : CStr}
    (hpath : σ.pathOf (kind.object c) = some path) : ∃ pos, Placed σ (kind.object c) pos := by
  -- a level, given the level above it
  have hlevel : ∀ (kind : Kind) (c : ℕ) (path : CStr), (∀ (p : ℕ) (text : CStr) (x : Children),
      (σ.lists kind)[p]? = some x → σ.pathOf (kind.parent p) = some text →
        ∃ pos, Placed σ (kind.parent p) pos) →
      σ.pathOf (kind.object c) = some path → ∃ pos, Placed σ (kind.object c) pos := by
    intro kind c path hparents hpath
    rw [State.pathOf_object] at hpath
    obtain ⟨n, hn, hcontents⟩ := Option.bind_eq_some_iff.mp hpath
    have hattached : n.parentPath ≠ .null := by
      intro hnull
      rw [h.unlisted kind c n hn hnull] at hcontents
      cases hcontents
    obtain ⟨p, hc⟩ := ((hforests kind).wellFormed.owned_iff c).mp ⟨n, hn, hattached⟩
    obtain ⟨l₁, l₂, hsplit⟩ := List.append_of_mem hc
    obtain ⟨x, hx⟩ := (hforests kind).exists_list hc
    obtain ⟨-, text, -, hparent, -⟩ := h.listed kind p l₁ c l₂ hsplit
    obtain ⟨pos, hpos⟩ := hparents p text x hx hparent
    exact ⟨_, .child hpos ((hforests kind).childAt_iff.mpr ⟨l₁, l₂, hsplit, rfl⟩)⟩
  have hservice : ∀ (s : ℕ) (path : CStr), σ.pathOf (.service s) = some path →
      ∃ pos, Placed σ (.service s) pos := by
    intro s path
    refine hlevel .service s path fun d text x hx _ => ⟨_, .device ?_⟩
    simpa [State.lists] using (List.getElem?_eq_some_iff.mp hx).1
  have hcharacteristic : ∀ (c : ℕ) (path : CStr), σ.pathOf (.characteristic c) = some path →
      ∃ pos, Placed σ (.characteristic c) pos := fun c path =>
    hlevel .characteristic c path fun s text _ _ => hservice s text
  cases kind with
  | service => exact hservice c path hpath
  | characteristic => exact hcharacteristic c path hpath
  | descriptor => exact hlevel .descriptor c path (fun k text _ _ => hcharacteristic k text) hpath

/-- No two objects are at one position. -/
theorem Placed.unique (hfit : CountersFit σ) (hforests : Forests σ children) {o o' : Obj}
    {pos : Position} (h : Placed σ o pos) (h' : Placed σ o' pos) : o = o' := by
  induction h generalizing o' with
  | @device d hd =>
    generalize hpos : Position.device (UInt32.ofNat d) = pos at h'
    cases h' with
    | @device e he =>
      rw [eq_of_ofNat_eq (hd.trans hfit.devices) (he.trans hfit.devices) (Position.device.inj hpos)]
    | advertisement _ => cases hpos
    | child _ _ => cases hpos
  | @advertisement d hd =>
    generalize hpos : Position.advertisement (UInt32.ofNat d) = pos at h'
    cases h' with
    | device _ => cases hpos
    | @advertisement e he =>
      rw [eq_of_ofNat_eq (hd.trans hfit.devices) (he.trans hfit.devices)
        (Position.advertisement.inj hpos)]
    | child _ _ => cases hpos
  | @child kind p i c parent _ hchild ih =>
    generalize hpos : Position.child kind parent (UInt32.ofNat i) = pos at h'
    cases h' with
    | device _ => cases hpos
    | advertisement _ => cases hpos
    | @child kind' q j e parent' hparent' hchild' =>
      obtain ⟨rfl, rfl, hij⟩ := Position.child.inj hpos
      obtain rfl : p = q := by
        have hsame := ih hparent'
        exact kind.parent_injective hsame
      obtain ⟨l₁, l₂, hsplit, rfl⟩ := (hforests kind).childAt_iff.mp hchild
      obtain ⟨m₁, m₂, hsplit', rfl⟩ := (hforests kind).childAt_iff.mp hchild'
      have hlength := hfit.length_lt hforests kind p
      have hl : l₂.length = m₂.length := by
        refine eq_of_ofNat_eq ?_ ?_ hij
        · rw [hsplit, List.length_append, List.length_cons] at hlength
          omega
        · rw [hsplit', List.length_append, List.length_cons] at hlength
          omega
      have hcons := (List.append_inj' (hsplit.symm.trans hsplit') (by simp [hl])).2
      rw [(List.cons.inj hcons).1]

end Positions

/-- The tables of objects are short: no counter can have wrapped around. -/
def State.ShortTables (σ : State) : Prop :=
  σ.devices.length < 2 ^ 32 ∧ σ.services.length < 2 ^ 32 ∧ σ.characteristics.length < 2 ^ 32 ∧
    σ.descriptors.length < 2 ^ 32

instance (σ : State) : Decidable σ.ShortTables := inferInstanceAs (Decidable (_ ∧ _ ∧ _ ∧ _))

theorem CountersFit.of_shortTables {σ : State} (hreach : Reachable σ) (hshort : σ.ShortTables) :
    CountersFit σ := by
  obtain ⟨hdevices, hservices, hcharacteristics, hdescriptors⟩ := hshort
  refine ⟨hdevices, fun kind p x l hx hl => ?_⟩
  obtain ⟨children, hforests⟩ := Forests.of_reachable hreach
  have hchain := (hforests kind).wellFormed.chain p
  have hfirst : (σ.forest kind).first p = x.head := by simp [State.forest, hx]
  rw [hfirst] at hchain
  rw [hl.unique hchain]
  refine Nat.lt_of_le_of_lt ((hforests kind).length_le p) ?_
  cases kind with
  | service => simpa [State.nodes] using hservices
  | characteristic => simpa [State.nodes] using hcharacteristics
  | descriptor => simpa [State.nodes] using hdescriptors

theorem CountersFit.allSteps {σ₀ : State} (hinit : σ₀.IsInitial) {ops : List Op}
    (hshort : AllSteps exec (fun _ σ => σ.ShortTables) ops σ₀) :
    AllSteps exec (fun _ σ => CountersFit σ) ops σ₀ := by
  have hstep : ∀ (op : Op) (σ : State), σ.ShortTables → Reachable σ →
      CountersFit σ ∧ ∀ r σ', exec op σ = .ok (r, σ') → Reachable σ' := by
    intro op σ hshort hreach
    exact ⟨.of_shortTables hreach hshort, fun r σ' hexec => hreach.step op trivial hexec⟩
  exact AllSteps.of_invariant hstep hshort ⟨σ₀, [], [], hinit, by simp, rfl⟩

/-! ## The invariant of the paths -/

/-- What holds of the tree and its paths in every run without a refused child. -/
structure PlacementInv (σ : State) (children : Kind → ℕ → List ℕ) : Prop where
  pointers : PointersInv σ
  registration : RegistrationInv σ
  forests : Forests σ children
  paths : PathInv σ children

namespace PlacementInv

variable {σ σ' : State} {children : Kind → ℕ → List ℕ}

theorem of_isInitial (h : σ.IsInitial) : PlacementInv σ fun _ _ => [] :=
  ⟨.of_isInitial h, .of_isInitial h, fun kind => .of_isInitial h kind, .of_isInitial h⟩

/-- Every step but an addition leaves the lists alone. -/
theorem changes (h : PlacementInv σ children) {op : Op} (hchanges : Changes op σ σ')
    (hne : ∀ kind accepts p c, op ≠ .add kind accepts p c) : PlacementInv σ' children := by
  have hchange : ∀ τ τ' : State, Change op τ τ' → PlacementInv τ children →
      PlacementInv τ' children := by
    intro τ τ' hchange hτ
    have hgrows := hchange.treeGrows hτ.pointers hne
    exact ⟨hτ.pointers.change hchange, hτ.registration.change hchange hτ.pointers,
      fun kind => (hτ.forests kind).grow hgrows, hτ.paths.grow hgrows⟩
  exact hchanges.invariant hchange h

theorem attach (h : PlacementInv σ children) {kind : Kind} {p c : ℕ} {path : Ptr CStr}
    {x : Children} {node : Node} (hpasses : Passes σ kind p c path x node) :
    PlacementInv (σ.attach kind p c node path x) (childrenPush children kind p c) where
  pointers := h.pointers.attach hpasses
  registration := h.registration.attach hpasses
  forests := h.forests.attach h.pointers hpasses
  paths := h.paths.attach h.forests h.pointers hpasses

/-- Every registered path is that of the position of its object. -/
theorem registered (h : PlacementInv σ children) {path : CStr} {o : Obj}
    (hmem : (path, o) ∈ σ.bus.registered) : ∃ pos, Placed σ o pos ∧ path = pos.path := by
  -- an entry of a child has been made when the child was attached
  have hchild : ∀ (kind : Kind) (c : ℕ), (path, kind.object c) ∈ σ.bus.registered →
      ∃ pos, Placed σ (kind.object c) pos ∧ path = pos.path := by
    intro kind c hmem
    obtain ⟨n, id, hn, -, hpath⟩ := h.registration.nodes kind c path hmem
    have hpathOf : σ.pathOf (kind.object c) = some path := by
      rw [State.pathOf_object, hn, Option.bind_some, hpath]
      rfl
    obtain ⟨pos, hpos⟩ := h.paths.exists_placed h.forests kind hpathOf
    rw [h.paths.pathOf_eq h.forests hpos] at hpathOf
    exact ⟨pos, hpos, (Option.some.inj hpathOf).symm⟩
  cases o with
  | device d =>
    obtain ⟨rfl, hd⟩ := h.registration.devices d path hmem
    exact ⟨_, .device hd, rfl⟩
  | advertisement d =>
    obtain ⟨rfl, x, hx, -⟩ := h.registration.adverts d path hmem
    exact ⟨_, .advertisement (List.getElem?_eq_some_iff.mp hx).1, rfl⟩
  | service s => exact hchild .service s hmem
  | characteristic c => exact hchild .characteristic c hmem
  | descriptor k => exact hchild .descriptor k hmem

/-- The path of a position is registered only for the object there. -/
theorem registered_of_path (h : PlacementInv σ children) {pos : Position}
    (hmem : pos.path ∈ σ.bus.paths) :
    ∃ o, (pos.path, o) ∈ σ.bus.registered ∧ Placed σ o pos := by
  obtain ⟨⟨path, o⟩, hentry, rfl⟩ := List.mem_map.mp hmem
  obtain ⟨pos', hplaced, hpath⟩ := h.registered hentry
  rw [Position.path_injective hpath]
  exact ⟨o, hpath ▸ hentry, hplaced⟩

/-- The path that is made for the next child of a parent. -/
theorem childPath_eq (h : PlacementInv σ children) {kind : Kind} {p c : ℕ} {path : Ptr CStr}
    {x : Children} {node : Node} (hpasses : Passes σ kind p c path x node) :
    ∃ parent, Placed σ (kind.parent p) parent ∧ σ.childPath kind path x =
      (Position.child kind parent (UInt32.ofNat (children kind p).length)).path := by
  obtain ⟨text, hpoints, hpathOf⟩ :=
    h.paths.pointsTo_parent h.pointers hpasses.parent hpasses.published
  obtain ⟨-, -, hx⟩ := State.parent_eq_ok.mp hpasses.parent
  -- a parent with a path has a position
  obtain ⟨parent, hparent⟩ : ∃ parent, Placed σ (kind.parent p) parent := by
    rcases kind.parent_eq with rfl | ⟨kind₀, hkind, -⟩
    · have hlt := (List.getElem?_eq_some_iff.mp hx).1
      exact ⟨_, .device (by simpa [State.lists] using hlt)⟩
    · rw [hkind] at hpathOf ⊢
      exact h.paths.exists_placed h.forests kind₀ hpathOf
  refine ⟨parent, hparent, ?_⟩
  rw [h.paths.pathOf_eq h.forests hparent, Option.some.injEq] at hpathOf
  rw [State.childPath, hpoints.read, (h.forests kind).count p x hx, ← hpathOf]
  rfl

/-- As long as no counter wraps around, no object has the next position of a parent yet. -/
theorem not_placed_next (h : PlacementInv σ children) (hfit : CountersFit σ) {kind : Kind} {p : ℕ}
    {parent : Position} (hparent : Placed σ (kind.parent p) parent) (o : Obj) :
    ¬ Placed σ o (.child kind parent (UInt32.ofNat (children kind p).length)) := by
  intro hplaced
  generalize hpos : Position.child kind parent (UInt32.ofNat (children kind p).length) = pos
    at hplaced
  cases hplaced with
  | device _ => cases hpos
  | advertisement _ => cases hpos
  | @child kind' q i e parent' hparent' hchild =>
    obtain ⟨rfl, rfl, hindex⟩ := Position.child.inj hpos
    obtain rfl : p = q := kind.parent_injective (hparent.unique hfit h.forests hparent')
    obtain ⟨l₁, l₂, hsplit, rfl⟩ := (h.forests kind).childAt_iff.mp hchild
    have hlength := hfit.length_lt h.forests kind p
    -- a position in the list is less than its length
    have hless : l₂.length < (children kind p).length := by
      rw [hsplit, List.length_append, List.length_cons]
      omega
    have heq := eq_of_ofNat_eq hlength (hless.trans hlength) hindex
    omega

/-- The path made for a child is not registered yet. -/
theorem childPath_fresh (h : PlacementInv σ children) (hfit : CountersFit σ) {kind : Kind} {p c : ℕ}
    {path : Ptr CStr} {x : Children} {node : Node} (hpasses : Passes σ kind p c path x node) :
    σ.childPath kind path x ∉ σ.bus.paths := by
  obtain ⟨parent, hparent, hpath⟩ := h.childPath_eq hpasses
  intro hmem
  rw [hpath] at hmem
  obtain ⟨o, -, hplaced⟩ := h.registered_of_path hmem
  exact h.not_placed_next hfit hparent o hplaced

/-- Where nothing is refused but registered paths, an addition whose checks pass succeeds. -/
theorem addTo_eq (h : PlacementInv σ children) (hfit : CountersFit σ) {kind : Kind} {p c : ℕ}
    {path : Ptr CStr} {x : Children} {node : Node} (hpasses : Passes σ kind p c path x node)
    {accepts : Accepts} (haccepts : AcceptsFresh accepts) :
    addTo kind accepts p c σ = .ok (true, σ.attach kind p c node path x) := by
  rw [addTo_of_passes hpasses, haccepts _ _ (h.childPath_fresh hfit hpasses), if_pos rfl]

/-- What the library does to the children of a step: it refuses registered paths only. -/
theorem step (h : PlacementInv σ children) (hfit : CountersFit σ) {op : Op} {r : Reply}
    (haccepts : ∀ kind accepts p c, op = .add kind accepts p c → AcceptsFresh accepts)
    (hexec : exec op σ = .ok (r, σ')) : ∃ children', PlacementInv σ' children' := by
  by_cases hadd : ∃ kind accepts p c, op = .add kind accepts p c
  · obtain ⟨kind, accepts, p, c, rfl⟩ := hadd
    obtain ⟨⟨b, σ₁⟩, hadd, hr⟩ := bind_eq_ok.mp hexec
    cases hr
    cases addTo_cases hadd with
    | rejected _ => exact ⟨children, h⟩
    | refused hpasses hrefused =>
      rw [haccepts _ _ _ _ rfl _ _ (h.childPath_fresh hfit hpasses)] at hrefused
      cases hrefused
    | added hpasses _ => exact ⟨_, h.attach hpasses⟩
  · exact ⟨children, h.changes (exec_changes hexec) fun kind accepts p c hop =>
      hadd ⟨kind, accepts, p, c, hop⟩⟩

end PlacementInv

end BleSim
