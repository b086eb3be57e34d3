import BleSim.PointerChanges

/-!
# The forest of sibling lists

On each level the sibling lists of all parents form a forest: every list is a chain without
cycles, no object is in two of them, and a child is in one exactly when its parent path is set.
The lookups are then searches in these lists, and the add functions always return.
-/

namespace BleSim

open Outcomes WriteOnce Intrusive

/-! ## A level as a forest -/

/-- The link of an object to its next sibling. -/
def State.next (σ : State) (kind : Kind) (c : ℕ) : Option ℕ :=
  ((σ.nodes kind)[c]?).bind Node.next

/-- The sibling lists of a level, keyed by the strings the UUID fields were given. -/
def State.forest (σ : State) (kind : Kind) : Forest ℕ ℕ (Option CStr) where
  first p := ((σ.lists kind)[p]?).bind Children.head
  next := σ.next kind
  key c := ((σ.nodes kind)[c]?).bind fun n => n.uuid.contents?
  owned c := ∃ n, (σ.nodes kind)[c]? = some n ∧ n.parentPath ≠ .null

/-- `children` lists the children of every parent on a level. The counts are 32 bits wide. -/
structure ForestInv (σ : State) (kind : Kind) (children : ℕ → List ℕ) : Prop where
  wellFormed : (σ.forest kind).WellFormed children
  count : ∀ (p : ℕ) (x : Children), (σ.lists kind)[p]? = some x →
    x.count = UInt32.ofNat (children p).length
  unlinked : ∀ (c : ℕ) (n : Node), (σ.nodes kind)[c]? = some n → n.parentPath = .null →
    n.next = none

namespace ForestInv

variable {σ σ' : State} {kind : Kind} {children : ℕ → List ℕ}

theorem of_isInitial (h : σ.IsInitial) (kind : Kind) : ForestInv σ kind fun _ => [] := by
  obtain ⟨strings, buffers, fails, outOfMemory, rfl⟩ := h
  refine ⟨Forest.WellFormed.empty (fun p => ?_) (fun c => ?_), fun p x hx => ?_, fun c n hn => ?_⟩
  · cases kind <;> rfl
  · rintro ⟨n, hn, -⟩
    cases kind <;> simp [State.initial, State.nodes] at hn
  · cases kind <;> simp [State.initial, State.lists] at hx
  · cases kind <;> simp [State.initial, State.nodes] at hn

/-- The children of a parent are objects of the level. -/
theorem mem_nodes (h : ForestInv σ kind children) {p c : ℕ} (hc : c ∈ children p) :
    ∃ n, (σ.nodes kind)[c]? = some n ∧ n.parentPath ≠ .null :=
  (h.wellFormed.owned_iff c).mpr ⟨p, hc⟩

/-- Only existing parents have children. -/
theorem exists_list (h : ForestInv σ kind children) {p c : ℕ} (hc : c ∈ children p) :
    ∃ x, (σ.lists kind)[p]? = some x := by
  have hchain := h.wellFormed.chain p
  cases hx : (σ.lists kind)[p]? with
  | some x => exact ⟨x, rfl⟩
  | none =>
    have hfirst : (σ.forest kind).first p = none := by simp [State.forest, hx]
    rw [hfirst] at hchain
    rw [hchain.unique .nil] at hc
    cases hc

/-- A list is no longer than the table of its level. -/
theorem length_le (h : ForestInv σ kind children) (p : ℕ) :
    (children p).length ≤ (σ.nodes kind).length := by
  refine (h.wellFormed.chain p).length_le fun c hc => ?_
  obtain ⟨n, hn, -⟩ := h.mem_nodes hc
  exact (List.getElem?_eq_some_iff.mp hn).1

/-! ## Changes of a level -/

/-- Replacing nodes by others with the same links, and adding objects without any. -/
theorem extend (h : ForestInv σ kind children)
    (hlists : ∀ p : ℕ, (σ'.lists kind)[p]? = (σ.lists kind)[p]? ∨
      (σ.lists kind)[p]? = none ∧ (σ'.lists kind)[p]? = some ⟨none, 0⟩)
    (hnodes : ∀ c : ℕ,
      (∃ m n, (σ'.nodes kind)[c]? = some m ∧ (σ.nodes kind)[c]? = some n ∧ m.uuid = n.uuid ∧
        m.parentPath = n.parentPath ∧ m.next = n.next) ∨
      (σ.nodes kind)[c]? = none ∧
        ∀ m, (σ'.nodes kind)[c]? = some m → m.parentPath = .null ∧ m.next = none) :
    ForestInv σ' kind children := by
  refine ⟨h.wellFormed.congr (fun p => ?_) (fun c hc => ?_) (fun c hc => ?_) (fun c => ?_),
    fun p x hx => ?_, fun c m hm hnull => ?_⟩
  · rcases hlists p with heq | ⟨hnone, hsome⟩
    · simp [State.forest, heq]
    · simp [State.forest, hnone, hsome]
  · obtain ⟨n₀, hn₀, -⟩ := hc
    rcases hnodes c with ⟨m, n, hm, hn, -, -, hnext⟩ | ⟨hnone, -⟩
    · simp [State.forest, State.next, hm, hn, hnext]
    · rw [hnone] at hn₀; cases hn₀
  · obtain ⟨n₀, hn₀, -⟩ := hc
    rcases hnodes c with ⟨m, n, hm, hn, huuid, -⟩ | ⟨hnone, -⟩
    · simp [State.forest, hm, hn, huuid]
    · rw [hnone] at hn₀; cases hn₀
  · rcases hnodes c with ⟨m, n, hm, hn, -, hparent, -⟩ | ⟨hnone, hfresh⟩
    · simp [State.forest, hm, hn, hparent]
    · simp only [State.forest, hnone]
      constructor
      · rintro ⟨m, hm, hne⟩
        exact absurd (hfresh m hm).1 hne
      · rintro ⟨n, hn, -⟩
        cases hn
  · rcases hlists p with heq | ⟨hnone, hsome⟩
    · exact h.count p x (heq ▸ hx)
    · rw [hsome] at hx
      cases hx
      -- a parent that was not there had no children
      cases hchildren : children p with
      | nil => rfl
      | cons c l =>
        obtain ⟨y, hy⟩ := h.exists_list (hchildren ▸ List.mem_cons_self : c ∈ children p)
        rw [hnone] at hy; cases hy
  · rcases hnodes c with ⟨m', n, hm', hn, -, hparent, hnext⟩ | ⟨-, hfresh⟩
    · rw [hm'] at hm
      cases hm
      rw [hnext]
      exact h.unlinked c n hn (hparent ▸ hnull)
    · exact (hfresh m hm).2

/-- A change of state that the level does not see. -/
theorem same (h : ForestInv σ kind children) (hlists : σ'.lists kind = σ.lists kind)
    (hnodes : σ'.nodes kind = σ.nodes kind) : ForestInv σ' kind children := by
  refine h.extend (fun p => Or.inl (by rw [hlists])) fun c => ?_
  rw [hnodes]
  cases hn : (σ.nodes kind)[c]? with
  | none => exact Or.inr ⟨rfl, fun m hm => by cases hm⟩
  | some n => exact Or.inl ⟨n, n, rfl, rfl, rfl, rfl, rfl⟩

/-- New parents without children and new children without a parent. -/
theorem append (h : ForestInv σ kind children) {ls : List Children} {ns : List Node}
    (hlists : σ'.lists kind = σ.lists kind ++ ls) (hls : ∀ x ∈ ls, x = ⟨none, 0⟩)
    (hnodes : σ'.nodes kind = σ.nodes kind ++ ns)
    (hns : ∀ n ∈ ns, n.parentPath = .null ∧ n.next = none) : ForestInv σ' kind children := by
  refine h.extend (fun p => ?_) fun c => ?_
  · -- a new list is empty
    rw [hlists, List.getElem?_append]
    split_ifs with hlt
    · exact Or.inl rfl
    · have hnone : (σ.lists kind)[p]? = none := List.getElem?_eq_none (by omega)
      rw [hnone]
      cases hx : ls[p - (σ.lists kind).length]? with
      | none => exact Or.inl rfl
      | some x => exact Or.inr ⟨rfl, by rw [hls x (List.mem_of_getElem? hx)]⟩
  · -- a new node is in no list
    rw [hnodes, List.getElem?_append]
    split_ifs with hlt
    · have hn := List.getElem?_eq_getElem hlt
      exact Or.inl ⟨_, _, hn, hn, rfl, rfl, rfl⟩
    · exact Or.inr ⟨List.getElem?_eq_none (by omega), fun m hm => hns m (List.mem_of_getElem? hm)⟩

/-! ## Lookups -/

/-- One turn of a lookup at a sibling that is still there. -/
theorem getChild_body (hpointers : PointersInv σ) {c : ℕ} (hc : kind.object c ∉ σ.finalised)
    {n : Node} (hn : (σ.nodes kind)[c]? = some n) (uuid : CStr) :
    (do
      let node ← σ.node kind c
      if uuid = σ.strings.read node.uuid then .ok (none, some c) else .ok (node.next, none) :
        Outcome (Option ℕ × Option ℕ)) =
      if (σ.forest kind).key c = some uuid then .ok (none, some c)
      else .ok (σ.next kind c, none) := by
  have hnode : σ.node kind c = .ok n := State.node_eq_ok.mpr ⟨hc, hn⟩
  obtain ⟨id, u, huuid, hread⟩ := hpointers.read_uuid hnode
  rw [huuid] at hread
  simp only [hnode, ok_bind, hread, State.forest, State.next, hn, Option.bind_some, huuid,
    Ptr.contents?, Option.some.injEq, eq_comm]

/-- A lookup in a list without finalised objects is a search for the UUID. -/
theorem getChild_eq (h : ForestInv σ kind children) (hpointers : PointersInv σ) {p : ℕ}
    {x : Children} (hx : (σ.lists kind)[p]? = some x)
    (halive : ∀ c ∈ children p, kind.object c ∉ σ.finalised) (uuid : CStr) :
    getChild kind x uuid σ
      = .ok ((children p).find? fun c => (σ.forest kind).key c = some uuid) := by
  have hchain := h.wellFormed.chain p
  have hfirst : (σ.forest kind).first p = x.head := by simp [State.forest, hx]
  rw [hfirst] at hchain
  refine loop_eq_find hchain (fun c hc => ?_) (h.length_le p)
  obtain ⟨n, hn, -⟩ := h.mem_nodes hc
  rw [getChild_body hpointers (halive c hc) hn]
  by_cases hkey : (σ.forest kind).key c = some uuid
  · simp [hkey]
  · simp only [hkey, ↓reduceIte, decide_false, Bool.false_eq_true]
    rfl

/-- A lookup that finds nothing has compared the UUID with that of every child. -/
theorem key_ne_of_getChild_eq_none (h : ForestInv σ kind children) (hpointers : PointersInv σ)
    {p : ℕ} {x : Children} (hx : (σ.lists kind)[p]? = some x) {uuid : CStr}
    (hnone : getChild kind x uuid σ = .ok none) :
    ∀ c ∈ children p, (σ.forest kind).key c ≠ some uuid := by
  have hchain := h.wellFormed.chain p
  have hfirst : (σ.forest kind).first p = x.head := by simp [State.forest, hx]
  rw [hfirst] at hchain
  -- one turn of the loop, for a child that is in the list
  have hbody : ∀ c ∈ children p, ∀ r : Option ℕ × Option ℕ, (do
      let node ← σ.node kind c
      if uuid = σ.strings.read node.uuid then .ok (none, some c) else .ok (node.next, none) :
        Outcome (Option ℕ × Option ℕ)) = .ok r →
      kind.object c ∉ σ.finalised ∧ r = if (σ.forest kind).key c = some uuid then (none, some c)
        else ((σ.forest kind).next c, none) := by
    intro c hc r hr
    obtain ⟨n, hn, -⟩ := h.mem_nodes hc
    have hfin : kind.object c ∉ σ.finalised := by
      obtain ⟨m, hm, -⟩ := bind_eq_ok.mp hr
      exact (State.node_eq_ok.mp hm).1
    rw [getChild_body hpointers hfin hn] at hr
    refine ⟨hfin, ?_⟩
    split_ifs at hr ⊢ with hkey
    · cases hr; rfl
    · cases hr; rfl
  -- a loop that finds nothing has passed every child
  have hpass := passes_of_loop_eq_none hchain (fun c hc r hr => ?_) hnone
  · intro c hc hkey
    have := (hbody c hc _ (hpass c hc)).2
    rw [if_pos hkey] at this
    exact absurd (congrArg Prod.snd this) (by simp)
  · have := (hbody c hc r hr).2
    split_ifs at this
    · exact Or.inr ⟨c, this⟩
    · exact Or.inl this

/-! ## Adding a child -/

/-- A refused child keeps its place in the forest: outside. -/
theorem refuse (h : ForestInv σ kind children) {kind' : Kind} {c : ℕ} {node : Node}
    (hn : (σ.nodes kind')[c]? = some node) (path : CStr) :
    ForestInv (σ.refuse kind' c node path) kind children := by
  refine h.extend (fun p => Or.inl (by rw [State.lists_refuse])) fun e => ?_
  rw [State.nodes_refuse]
  split_ifs with hk
  · subst hk
    cases he : (σ.nodes kind)[e]? with
    | none =>
      refine Or.inr ⟨rfl, fun m hm => ?_⟩
      rw [List.getElem?_modify, he] at hm
      cases hm
    | some n =>
      left
      by_cases hce : c = e
      · subst hce
        rw [List.getElem?_modify_eq, he]
        rw [hn] at he
        cases he
        exact ⟨_, _, rfl, rfl, rfl, rfl, rfl⟩
      · rw [List.getElem?_modify_ne _ _ hce]
        exact ⟨n, n, he, rfl, rfl, rfl, rfl⟩
  · cases he : (σ.nodes kind)[e]? with
    | none => exact Or.inr ⟨rfl, fun m hm => by cases hm⟩
    | some n => exact Or.inl ⟨n, n, rfl, rfl, rfl, rfl, rfl⟩

/-- The lookup has compared the child's UUID with every sibling's. -/
theorem key_notMem_of_passes (h : ForestInv σ kind children) (hpointers : PointersInv σ) {p c : ℕ}
    {path : Ptr CStr} {x : Children} {node : Node} (hpasses : Passes σ kind p c path x node) :
    (σ.forest kind).key c ∉ (children p).map (σ.forest kind).key := by
  obtain ⟨-, -, hx⟩ := State.parent_eq_ok.mp hpasses.parent
  have hn := (State.node_eq_ok.mp hpasses.child).2
  obtain ⟨id, u, huuid, hread⟩ := hpointers.read_uuid hpasses.child
  have hkey : (σ.forest kind).key c = some u := by
    simp [State.forest, hn, huuid, Ptr.contents?]
  rw [hkey]
  intro hmem
  obtain ⟨e, he, hekey⟩ := List.mem_map.mp hmem
  have hnew := hpasses.new
  rw [hread] at hnew
  exact h.key_ne_of_getChild_eq_none hpointers hx hnew e he hekey

/-- In terms of the forest, adding a child links it in front of the parent's list. -/
theorem forest_attach {p c : ℕ} {path : Ptr CStr} {x : Children} {node : Node}
    (hpasses : Passes σ kind p c path x node) :
    ((σ.attach kind p c node path x).forest kind).first =
        Function.update (σ.forest kind).first p (some c) ∧
      ((σ.attach kind p c node path x).forest kind).next =
        Function.update (σ.forest kind).next c ((σ.forest kind).first p) ∧
      (∀ a, ((σ.attach kind p c node path x).forest kind).key a = (σ.forest kind).key a) ∧
      ∀ a, ((σ.attach kind p c node path x).forest kind).owned a ↔
        (σ.forest kind).owned a ∨ a = c := by
  obtain ⟨-, -, hx⟩ := State.parent_eq_ok.mp hpasses.parent
  have hn := (State.node_eq_ok.mp hpasses.child).2
  have hlists := (σ.lists_attach kind kind p c node path x).trans (if_pos rfl)
  have hget : ∀ e : ℕ, ((σ.attach kind p c node path x).nodes kind)[e]? =
      if e = c then some (σ.attachedNode kind node path x) else (σ.nodes kind)[e]? := by
    intro e
    rw [hpasses.getElem?_nodes]
    simp only [true_and]
  refine ⟨?_, ?_, fun a => ?_, fun a => ?_⟩
  · funext q
    simp only [State.forest, hlists]
    by_cases hq : q = p
    · subst hq
      simp [List.getElem?_modify_eq, hx]
    · simp [List.getElem?_modify_ne _ _ (Ne.symm hq), hq]
  · funext e
    simp only [State.forest, State.next, hget]
    by_cases he : e = c
    · subst he
      simp [State.attachedNode, hx]
    · simp [he, State.next]
  · simp only [State.forest, hget]
    by_cases hac : a = c
    · subst hac
      simp [State.attachedNode, hn]
    · simp [hac]
  · simp only [State.forest, hget]
    by_cases hac : a = c
    · subst hac
      simp [State.attachedNode]
    · simp [hac]

/-- The parent's list gets the child as its new head. -/
theorem attach (h : ForestInv σ kind children) (hpointers : PointersInv σ) {p c : ℕ}
    {path : Ptr CStr} {x : Children} {node : Node} (hpasses : Passes σ kind p c path x node) :
    ForestInv (σ.attach kind p c node path x) kind
      (Function.update children p (c :: children p)) := by
  obtain ⟨-, -, hx⟩ := State.parent_eq_ok.mp hpasses.parent
  have hn := (State.node_eq_ok.mp hpasses.child).2
  have hunowned : ¬ (σ.forest kind).owned c := by
    intro ⟨n, hn', hne⟩
    rw [hn] at hn'
    cases hn'
    exact hne hpasses.unowned
  obtain ⟨hfirst, hnext, hkeys, howned⟩ := forest_attach hpasses
  have hwellFormed := h.wellFormed.push hunowned (h.key_notMem_of_passes hpointers hpasses)
    hfirst hnext (fun a _ => hkeys a) howned
  refine ⟨hwellFormed, fun q y hy => ?_, fun e m hm hnull => ?_⟩
  · rw [(σ.lists_attach kind kind p c node path x).trans (if_pos rfl)] at hy
    by_cases hq : q = p
    · subst hq
      rw [List.getElem?_modify_eq, hx] at hy
      cases hy
      rw [Function.update_self, List.length_cons, h.count q x hx, UInt32.ofNat_add]
      rfl
    · rw [List.getElem?_modify_ne _ _ (Ne.symm hq)] at hy
      rw [Function.update_of_ne hq]
      exact h.count q y hy
  · rw [hpasses.getElem?_nodes] at hm
    split_ifs at hm with he
    · cases hm
      simp [State.attachedNode] at hnull
    · exact h.unlinked e m hm hnull

/-- The other levels do not see a child being added. -/
theorem attach_other (h : ForestInv σ kind children) {kind' : Kind} (hkind : kind ≠ kind')
    {p c : ℕ} {path : Ptr CStr} {x : Children} {node : Node} :
    ForestInv (σ.attach kind' p c node path x) kind children :=
  h.same (by rw [State.lists_attach, if_neg hkind]) (by rw [State.nodes_attach, if_neg hkind])

/-! ## Every change -/

/-- The sibling lists do not see new objects. -/
theorem grow (h : ForestInv σ kind children) (hgrows : TreeGrows σ σ') :
    ForestInv σ' kind children := by
  obtain ⟨ls, hlists, hls⟩ := hgrows.lists kind
  obtain ⟨ns, hnodes, hns⟩ := hgrows.nodes kind
  exact h.append hlists hls hnodes fun n hn => ⟨(hns n hn).1, (hns n hn).2.2⟩

/-- The sibling lists after a change: only an addition changes one of them. -/
theorem change (h : ForestInv σ kind children) (hpointers : PointersInv σ) {op : Op}
    (hchange : Change op σ σ') : ∃ children', ForestInv σ' kind children' := by
  cases hchange.treeChange hpointers with
  | createDevice => exact ⟨children, h.grow (luaiCreateDevice_grows _ σ)⟩
  | createChild hcreates => exact ⟨children, h.grow hcreates.grows⟩
  | refused hpasses _ => exact ⟨children, h.refuse (State.node_eq_ok.mp hpasses.child).2 _⟩
  | @added kind' _ p c _ _ _ _ hpasses _ =>
    by_cases hkind : kind = kind'
    · subst hkind
      exact ⟨_, h.attach hpointers hpasses⟩
    · exact ⟨children, h.attach_other hkind⟩
  | frame hframe => exact ⟨children, h.grow hframe.grows⟩

/-- On every level of every reachable state the sibling lists form a forest. -/
theorem of_reachable (h : Reachable σ) (kind : Kind) : ∃ children, ForestInv σ kind children := by
  have hboth : PointersInv σ ∧ ∃ children, ForestInv σ kind children := by
    refine h.changeInduction (fun σ => PointersInv σ ∧ ∃ children, ForestInv σ kind children)
      (fun σ hσ => ⟨.of_isInitial hσ, _, .of_isInitial hσ kind⟩) ?_
    rintro op σ σ' - hchange ⟨hpointers, children, hforest⟩
    exact ⟨hpointers.change hchange, hforest.change hpointers hchange⟩
  exact hboth.2

end ForestInv

/-! ## Runs without finalisation -/

/-- As long as no finaliser is run, no object is finalised. -/
theorem finalised_eq_nil {σ : State} (h : ReachableBy Op.NoFini σ) : σ.finalised = [] := by
  refine h.changeInduction (fun σ => σ.finalised = []) (fun σ hσ => ?_)
    fun op σ σ' hop hchange hnil => ?_
  · obtain ⟨strings, buffers, fails, outOfMemory, rfl⟩ := hσ
    rfl
  · cases hchange with
    | createDevice => exact hnil
    | createService => exact hnil
    | createCharacteristic => exact hnil
    | createDescriptor => exact hnil
    | refused _ _ => simpa [State.refuse] using hnil
    | added _ _ => simpa [State.attach] using hnil
    | controller hinit =>
      obtain ⟨x, vc, oc, co, cc, -, rfl, -⟩ := deviceInitController_spec hinit
      exact hnil
    | registered _ _ => exact hnil
    | requested => exact hnil
    | asked => exact hnil
    | advertised hinit =>
      obtain ⟨x, strings, a, i, j, k, -, rfl, -⟩ := deviceInitAdvertisement_spec hinit
      exact hnil
    | listed _ _ => rw [State.listDevice_eq]; exact hnil
    | valued _ hframe =>
      obtain ⟨⟨b, cs, sent, rfl⟩, -⟩ := hframe
      exact hnil
    | answered hreply =>
      obtain rfl := onRegisterApplicationReply_spec hreply
      exact hnil
    | advertAnswered hreply =>
      obtain ⟨x, -, rfl⟩ := onRegisterAdvertReply_spec hreply
      exact hnil
    | reused => exact hnil
    | finalised _ => exact hop.elim

theorem notMem_finalised {σ : State} (h : ReachableBy Op.NoFini σ) (o : Obj) :
    o ∉ σ.finalised := by
  rw [finalised_eq_nil h]
  exact List.not_mem_nil

/-- The operations that build the tree; in between, freed memory may be reused. -/
def Op.Builds : Op → Prop
  | .createDevice _ | .createService _ | .createCharacteristic _ | .createDescriptor _
  | .add _ _ _ _ | .reuseMemory _ _ => True
  | _ => False

theorem Op.Builds.noFini {op : Op} (h : op.Builds) : op.NoFini := by
  cases op <;> trivial

/-- The UUID of an object, as the program reads it. -/
def State.uuidOf (σ : State) (kind : Kind) (c : ℕ) : Option CStr :=
  ((σ.nodes kind)[c]?).map fun n => σ.strings.read n.uuid

/-- The sibling lists of one level, in the terms of the program: for a parent `p` of the table,
`children p` are the objects met from the head of its list. -/
structure SiblingLists (σ : State) (kind : Kind) (children : ℕ → List ℕ) : Prop where
  chain : ∀ (p : ℕ) (x : Children), (σ.lists kind)[p]? = some x →
    Chain (σ.next kind) x.head (children p)
  /-- no object occurs twice, in one list or in two -/
  nodup : ∀ p, (children p).Nodup
  disjoint : ∀ p q c, c ∈ children p → c ∈ children q → p = q
  /-- every chain of `next` pointers ends, also from an object outside every list -/
  ends : ∀ c, ∃ l, Chain (σ.next kind) (σ.next kind c) l
  uuids : ∀ p, ((children p).map (σ.uuidOf kind)).Nodup
  /-- the count is an `unsigned int` -/
  count : ∀ (p : ℕ) (x : Children), (σ.lists kind)[p]? = some x →
    x.count.toNat = (children p).length % 2 ^ 32
  owned : ∀ (c : ℕ) (n : Node), (σ.nodes kind)[c]? = some n →
    (n.parentPath ≠ .null ↔ ∃ p, p < (σ.lists kind).length ∧ c ∈ children p)
  /-- a lookup returns the child with the UUID, if there is one -/
  lookup : ∀ p uuid, p < (σ.lists kind).length → ∃ r, getFrom kind p uuid σ = .ok r ∧
    ∀ c, r = some c ↔ c ∈ children p ∧ σ.uuidOf kind c = some uuid
  /-- an add function returns -/
  add : ∀ accepts p c, p < (σ.lists kind).length → c < (σ.nodes kind).length →
    ∃ b σ', addTo kind accepts p c σ = .ok (b, σ')

/-- The parents of a level are counted by its lists. -/
theorem State.parent_of_lt {σ : State} {kind : Kind} {p : ℕ} (hp : p < (σ.lists kind).length)
    (hfin : kind.parent p ∉ σ.finalised) :
    ∃ path x, σ.parent kind p = .ok (path, x) ∧ (σ.lists kind)[p]? = some x := by
  have hlen : (σ.parentPaths kind).length = (σ.lists kind).length := by
    cases kind <;> simp [State.parentPaths, State.lists]
  have hx := List.getElem?_eq_getElem hp
  have hpath := List.getElem?_eq_getElem (hlen ▸ hp : p < (σ.parentPaths kind).length)
  exact ⟨_, _, State.parent_eq_ok.mpr ⟨hfin, hpath, hx⟩, hx⟩

section Unfinalised

variable {σ : State} {kind : Kind} {children : ℕ → List ℕ} (h : ForestInv σ kind children)
  (hpointers : PointersInv σ) (halive : ∀ o : Obj, o ∉ σ.finalised)

include hpointers halive in
/-- The key of an object is its UUID. -/
theorem State.uuidOf_eq {c : ℕ} {n : Node} (hn : (σ.nodes kind)[c]? = some n) :
    σ.uuidOf kind c = (σ.forest kind).key c := by
  obtain ⟨id, u, huuid, hread⟩ := hpointers.read_uuid (State.node_eq_ok.mpr ⟨halive _, hn⟩)
  have hkey : (σ.forest kind).key c = some u := by
    simp [State.forest, hn, huuid, Ptr.contents?]
  rw [hkey, State.uuidOf, hn, Option.map_some, hread]

include h hpointers halive in
/-- A lookup finds the child with the UUID, as those of siblings differ. -/
theorem ForestInv.lookup {p : ℕ} (hp : p < (σ.lists kind).length) (uuid : CStr) :
    ∃ r, getFrom kind p uuid σ = .ok r ∧
      ∀ c, r = some c ↔ c ∈ children p ∧ σ.uuidOf kind c = some uuid := by
  obtain ⟨path, x, hparent, hx⟩ := State.parent_of_lt hp (halive _)
  have hget := h.getChild_eq hpointers hx (fun c _ => halive _) uuid
  refine ⟨_, by rw [getFrom_eq, hparent, ok_bind]; exact hget, fun c => ?_⟩
  constructor
  · intro hfind
    have hmem := List.mem_of_find?_eq_some hfind
    obtain ⟨n, hn, -⟩ := h.mem_nodes hmem
    have hfound := List.find?_some hfind
    exact ⟨hmem, (State.uuidOf_eq hpointers halive hn).trans (by simpa using hfound)⟩
  · intro ⟨hmem, huuid⟩
    obtain ⟨n, hn, -⟩ := h.mem_nodes hmem
    rw [State.uuidOf_eq hpointers halive hn] at huuid
    -- the UUIDs of siblings differ, so the first child found is `c`
    cases hfind : (children p).find? fun c => (σ.forest kind).key c = some uuid with
    | none =>
      have := List.find?_eq_none.mp hfind c hmem
      simp [huuid] at this
    | some e =>
      have hfound := List.find?_some hfind
      have hemem := List.mem_of_find?_eq_some hfind
      have hsame : (σ.forest kind).key e = (σ.forest kind).key c := by
        rw [huuid]
        simpa using hfound
      rw [List.inj_on_of_nodup_map (h.wellFormed.keys p) hemem hmem hsame]

include h in
/-- A chain that starts at an object ends: it is the rest of a list, or empty. -/
theorem ForestInv.ends (c : ℕ) : ∃ l, Chain (σ.next kind) (σ.next kind c) l := by
  cases hn : (σ.nodes kind)[c]? with
  | none =>
    refine ⟨[], ?_⟩
    simp only [State.next, hn]
    exact .nil
  | some n =>
    by_cases hnull : n.parentPath = .null
    · refine ⟨[], ?_⟩
      simp only [State.next, hn, Option.bind_some, h.unlinked c n hn hnull]
      exact .nil
    · obtain ⟨p, hp⟩ := (h.wellFormed.owned_iff c).mp ⟨n, hn, hnull⟩
      obtain ⟨l₁, l₂, -, hch⟩ := (h.wellFormed.chain p).tail_of_mem hp
      cases hch with
      | cons htail => exact ⟨l₂, htail⟩

include h hpointers halive in
/-- An add function returns, whichever of its checks fails. -/
theorem ForestInv.add_returns (accepts : Accepts) {p c : ℕ} (hp : p < (σ.lists kind).length)
    (hc : c < (σ.nodes kind).length) : ∃ b σ', addTo kind accepts p c σ = .ok (b, σ') := by
  obtain ⟨path, x, hparent, hx⟩ := State.parent_of_lt hp (halive _)
  have hchild : σ.node kind c = .ok _ :=
    State.node_eq_ok.mpr ⟨halive _, List.getElem?_eq_getElem hc⟩
  have hget := fun uuid => h.getChild_eq hpointers hx (fun c _ => halive _) uuid
  -- either every check passes, or the call returns false and changes nothing
  by_cases hpasses : ¬ Unpublished kind path ∧ (σ.nodes kind)[c].parentPath = .null ∧
      (children p).find? (fun e => (σ.forest kind).key e
        = some (σ.strings.read (σ.nodes kind)[c].uuid)) = none
  · rw [addTo_of_passes ⟨hparent, hchild, hpasses.1, hpasses.2.1, hpasses.2.2 ▸ hget _⟩ accepts]
    split_ifs
    · exact ⟨_, _, rfl⟩
    · exact ⟨_, _, rfl⟩
  · refine ⟨false, σ, ?_⟩
    rw [addTo_eq]
    simp only [hparent, ok_bind, hchild]
    split_ifs with hpath
    · rfl
    · simp only [addChild, hget, ok_bind]
      by_cases hnull : (σ.nodes kind)[c].parentPath = .null
      · cases hfind : (children p).find? fun e => (σ.forest kind).key e
            = some (σ.strings.read (σ.nodes kind)[c].uuid) with
        | none => exact absurd ⟨hpath, hnull, hfind⟩ hpasses
        | some e => simp [hnull]
      · simp [hnull]

include h hpointers halive in
/-- Where nothing is finalised, the invariant gives the sibling lists of the program. -/
theorem ForestInv.siblingLists : SiblingLists σ kind children := by
  refine ⟨fun p x hx => ?_, fun p => (h.wellFormed.chain p).nodup, h.wellFormed.disjoint, h.ends,
    fun p => ?_, fun p x hx => ?_, fun c n hn => ?_, fun p uuid hp => ?_,
    fun accepts p c hp hc => h.add_returns hpointers halive accepts hp hc⟩
  · have hchain := h.wellFormed.chain p
    simpa [State.forest, hx] using hchain
  · have hmap : (children p).map (σ.uuidOf kind) = (children p).map (σ.forest kind).key := by
      apply List.map_congr_left
      intro c hc
      obtain ⟨n, hn, -⟩ := h.mem_nodes hc
      exact State.uuidOf_eq hpointers halive hn
    rw [hmap]
    exact h.wellFormed.keys p
  · rw [h.count p x hx, UInt32.toNat_ofNat']
  · constructor
    · intro hne
      obtain ⟨p, hc⟩ := (h.wellFormed.owned_iff c).mp ⟨n, hn, hne⟩
      obtain ⟨x, hx⟩ := h.exists_list hc
      exact ⟨p, (List.getElem?_eq_some_iff.mp hx).1, hc⟩
    · rintro ⟨p, -, hc⟩
      obtain ⟨m, hm, hne⟩ := (h.wellFormed.owned_iff c).mpr ⟨p, hc⟩
      obtain rfl : n = m := Option.some.inj (hn.symm.trans hm)
      exact hne
  · exact h.lookup hpointers halive hp uuid

end Unfinalised

/-- After every run of operations that build the tree, on any objects, in any order and with any
path registrations refused, the sibling lists of each level are finite chains that share no
object, with distinct UUIDs; a count is the length of its list modulo `2 ^ 32`, a parent path is
set exactly on the listed objects, and lookups and add functions return. -/
theorem siblingLists_of_builds {σ : State} (h : ReachableBy Op.Builds σ) (kind : Kind) :
    ∃ children, SiblingLists σ kind children := by
  obtain ⟨children, hforest⟩ := ForestInv.of_reachable h.reachable kind
  exact ⟨children, hforest.siblingLists (.of_reachable h.reachable)
    (notMem_finalised (h.mono fun _ => Op.Builds.noFini))⟩

/-- The theorem at a run that builds one device with one service. -/
theorem siblingLists_of_builds_one_service : ∃ children, SiblingLists (State.after
    [.createDevice "lamp".toList, .createService "180F".toList,
      .add .service (fun _ _ => true) 0 0]) .service children := by
  refine siblingLists_of_builds (State.reachable_after (by decide) fun op hop => ?_) .service
  simp only [List.mem_cons, List.not_mem_nil, or_false] at hop
  rcases hop with rfl | rfl | rfl <;> trivial

/-! ## The counts wrap around -/

/-- A state that has been built with one device and `n` services, all of them in its list, the
`i`-th with the UUID `i`. -/
structure Numbered (σ : State) (children : ℕ → List ℕ) (n : ℕ) : Prop where
  reachable : ReachableBy Op.Builds σ
  devices : σ.devices.length = 1
  services : (σ.nodes .service).length = n
  forest : ForestInv σ .service children
  listed : ∀ c ∈ children 0, c < n
  length : (children 0).length = n
  keys : ∀ c < n, (σ.forest .service).key c = some (Decimal.decimal c)

namespace Numbered

/-- One device alone. -/
theorem zero : ∃ σ children, Numbered σ children 0 := by
  have hempty : ReachableBy Op.Builds State.empty :=
    ⟨_, [], [], State.isInitial_empty, by simp, rfl⟩
  have hreach := hempty.step (.createDevice []) trivial rfl
  obtain ⟨children, hforest⟩ := ForestInv.of_reachable hreach.reachable .service
  have hnil : children 0 = [] := (hforest.wellFormed.chain 0).unique .nil
  exact ⟨_, children, hreach, rfl, rfl, hforest, by simp [hnil], by simp [hnil], by simp⟩

variable {σ : State} {children : ℕ → List ℕ} {n : ℕ}

/-- The next service. -/
def nextNode (σ : State) (n : ℕ) : Node :=
  ⟨(σ.strings.alloc (Decimal.decimal n)).1, .null, .null, .lua, none⟩

theorem nodes_create (σ : State) (n : ℕ) :
    (luaiCreateService (Decimal.decimal n) σ).2.nodes .service =
      σ.nodes .service ++ [nextNode σ n] :=
  ((luaiCreateService_creates (Decimal.decimal n) σ).nodes .service).trans (if_pos rfl)

theorem reachable_create (h : Numbered σ children n) :
    ReachableBy Op.Builds (luaiCreateService (Decimal.decimal n) σ).2 :=
  h.reachable.step (.createService (Decimal.decimal n)) trivial rfl

theorem getElem?_create (h : Numbered σ children n) :
    ((luaiCreateService (Decimal.decimal n) σ).2.nodes .service)[n]? = some (nextNode σ n) := by
  have hservices := h.services
  rw [nodes_create, List.getElem?_append_right (by omega), hservices, Nat.sub_self]
  rfl

theorem forest_create (h : Numbered σ children n) :
    ForestInv (luaiCreateService (Decimal.decimal n) σ).2 .service children := by
  refine h.forest.append (List.append_nil _).symm (by simp) (nodes_create σ n) fun m hm => ?_
  rw [List.mem_singleton.mp hm]
  exact ⟨rfl, rfl⟩

theorem keys_create (h : Numbered σ children n) : ∀ c < n + 1,
    ((luaiCreateService (Decimal.decimal n) σ).2.forest .service).key c =
      some (Decimal.decimal c) := by
  intro c hc
  by_cases hcn : c = n
  · rw [hcn]
    simp [State.forest, h.getElem?_create, nextNode, Ptr.contents?]
  · have hold := h.keys c (by omega)
    have hservices := h.services
    simp only [State.forest, nodes_create] at hold ⊢
    rwa [List.getElem?_append_left (by omega)]

/-- No service has the new UUID yet, so the checks of the add function pass. -/
theorem passes_create (h : Numbered σ children n) : ∃ path x,
    Passes (luaiCreateService (Decimal.decimal n) σ).2 .service 0 n path x (nextNode σ n) := by
  have hpointers := PointersInv.of_reachable h.reachable_create.reachable
  have halive := notMem_finalised (h.reachable_create.mono fun _ => Op.Builds.noFini)
  have hchild := State.node_eq_ok.mpr ⟨halive (Kind.service.object n), h.getElem?_create⟩
  have hread : (luaiCreateService (Decimal.decimal n) σ).2.strings.read (nextNode σ n).uuid =
      Decimal.decimal n := by
    obtain ⟨id, u, huuid, hread⟩ := hpointers.read_uuid hchild
    rw [hread]
    have hu := congrArg Ptr.contents? huuid
    simpa [nextNode, Ptr.contents?] using hu.symm
  have hlt : 0 < ((luaiCreateService (Decimal.decimal n) σ).2.lists .service).length := by
    simp [State.lists, luaiCreateService, h.devices]
  obtain ⟨path, x, hparent, hx⟩ := State.parent_of_lt hlt (halive _)
  refine ⟨path, x, hparent, hchild, fun hunpublished => hunpublished.1 rfl, rfl, ?_⟩
  rw [hread, h.forest_create.getChild_eq hpointers hx fun c _ => halive _, Except.ok.injEq,
    List.find?_eq_none]
  intro c hc
  have hcn := h.listed c hc
  rw [h.keys_create c (by omega)]
  have hne : Decimal.decimal c ≠ Decimal.decimal n := by
    intro heq
    have := Decimal.decimal_injective heq
    omega
  simpa using hne

/-- One service more. -/
theorem succ (h : Numbered σ children n) : ∃ σ' children', Numbered σ' children' (n + 1) := by
  obtain ⟨path, x, hpasses⟩ := h.passes_create
  have hpointers := PointersInv.of_reachable h.reachable_create.reachable
  have hkeys := h.keys_create
  have hget := h.getElem?_create
  set σ₁ := (luaiCreateService (Decimal.decimal n) σ).2 with hσ₁
  have hadd := addTo_of_passes hpasses fun _ _ => true
  rw [if_pos rfl] at hadd
  have hreach := h.reachable_create.step (.add .service (fun _ _ => true) 0 n) trivial
    (bind_eq_ok.mpr ⟨_, hadd, rfl⟩)
  have hnodes := (σ₁.nodes_attach .service .service 0 n (nextNode σ n) path x).trans (if_pos rfl)
  refine ⟨_, _, hreach, ?_, ?_, h.forest_create.attach hpointers hpasses, ?_, ?_, ?_⟩
  · simp [State.attach, State.setChildren, hσ₁, luaiCreateService, h.devices]
  · rw [hnodes, List.length_modify, nodes_create, List.length_append, h.services,
      List.length_singleton]
  · intro c hc
    rw [Function.update_self] at hc
    rcases List.mem_cons.mp hc with rfl | hc
    · omega
    · have := h.listed c hc
      omega
  · rw [Function.update_self, List.length_cons, h.length]
  · intro c hc
    rw [← hkeys c hc]
    simp only [State.forest, hnodes]
    by_cases hcn : c = n
    · rw [hcn, List.getElem?_modify_eq, hget]
      rfl
    · rw [List.getElem?_modify_ne _ _ (Ne.symm hcn)]

theorem all (n : ℕ) : ∃ σ children, Numbered σ children n := by
  induction n with
  | zero => exact zero
  | succ n ih =>
    obtain ⟨σ, children, h⟩ := ih
    exact h.succ

end Numbered

/-- A device with `2 ^ 32` services has the count 0. -/
theorem count_ne_length_of_builds : ¬ ∀ σ, ReachableBy Op.Builds σ →
    ∀ (kind : Kind) (p : ℕ) (x : Children) (l : List ℕ), (σ.lists kind)[p]? = some x →
      Chain (σ.next kind) x.head l → x.count.toNat = l.length := by
  intro h
  obtain ⟨σ, children, hn⟩ := Numbered.all (2 ^ 32)
  have hlists := hn.forest.siblingLists (.of_reachable hn.reachable.reachable)
    (notMem_finalised (hn.reachable.mono fun _ => Op.Builds.noFini))
  obtain ⟨x, hx⟩ : ∃ x, (σ.lists .service)[0]? = some x :=
    ⟨_, List.getElem?_eq_getElem (by simp [State.lists, hn.devices])⟩
  have hcount := h σ hn.reachable .service 0 _ _ hx (hlists.chain 0 _ hx)
  rw [hlists.count 0 _ hx, hn.length] at hcount
  simp at hcount

end BleSim
