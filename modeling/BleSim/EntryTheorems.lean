import BleSim.PathTheorems

/-!
# The reply to `GetManagedObjects` and what is registered

The entries of the reply are those of the objects below the device, each after the object that
contains it, and their paths are the registered paths below the path of the device but for the
path of the advertisement (`managed_objects_faithful`). This rests on the counters: with
`2 ^ 32 + 1` devices, two of them share a path, and with it what is registered below.
-/

namespace BleSim

open Outcomes WriteOnce Intrusive

/-! ## Reading entries -/

/-- The path of an entry. -/
def entryPath : DBusValue → Option CStr
  | .dictEntry (.objectPath path) _ => some path
  | _ => none

/-- The properties an entry tells of its only interface. -/
def entryProperties : DBusValue → List DBusValue
  | .dictEntry _ (.array _ [.dictEntry _ (.array _ properties)]) => properties
  | _ => []

/-- The object path that an entry gives for a property. -/
def entryObjectPath (entry : DBusValue) (name : CStr) : Option CStr :=
  (entryProperties entry).findSome? fun
    | .dictEntry (.string n) (.variant _ (.objectPath path)) => if n = name then some path else none
    | _ => none

/-- The entry of a child holds its paths. -/
theorem State.entry_object {σ : State} {kind : Kind} {c : ℕ} {n : Node}
    (hn : (σ.nodes kind)[c]? = some n) : ∃ entry, σ.entry (kind.object c) = some entry ∧
      entryPath entry = some (σ.strings.read n.objectPath) ∧
      entryObjectPath entry kind.parentProperty = some (σ.strings.read n.parentPath) := by
  cases kind with
  | service =>
    simp only [State.nodes, List.getElem?_map, Option.map_eq_some_iff] at hn
    obtain ⟨x, hx, rfl⟩ := hn
    refine ⟨serviceEntry σ x, by simp [State.entry, Kind.object, hx], rfl, rfl⟩
  | characteristic =>
    simp only [State.nodes, List.getElem?_map, Option.map_eq_some_iff] at hn
    obtain ⟨x, hx, rfl⟩ := hn
    exact ⟨characteristicEntry σ x, by simp [State.entry, Kind.object, hx], rfl, rfl⟩
  | descriptor =>
    simp only [State.nodes, List.getElem?_map, Option.map_eq_some_iff] at hn
    obtain ⟨x, hx, rfl⟩ := hn
    exact ⟨descriptorEntry σ x, by simp [State.entry, Kind.object, hx], rfl, rfl⟩

/-! ## The order of the entries -/

section Order

variable {σ : State} {children : Kind → ℕ → List ℕ}

/-- Every object below a device is listed once. -/
theorem Forests.nodup_managedObjects (h : Forests σ children) (d : ℕ) :
    (managedObjects children d).Nodup := by
  have hnodup : ∀ kind p, (children kind p).Nodup := fun kind p =>
    ((h kind).wellFormed.chain p).nodup
  -- below one service: an object that comes twice would have two parents
  have hcharacteristics : ∀ s, (characteristicObjects children s).Nodup := by
    intro s
    unfold characteristicObjects
    rw [List.nodup_flatMap]
    refine ⟨fun c _ => ?_, (hnodup .characteristic s).imp fun {c e} hne o hc he => ?_⟩
    · rw [List.nodup_cons]
      refine ⟨by simp [descriptorObjects], ?_⟩
      exact (hnodup .descriptor c).map fun k k' hk => Obj.descriptor.inj hk
    · simp only [descriptorObjects, List.mem_cons, List.mem_map] at hc he
      rcases hc with rfl | ⟨k, hk, rfl⟩
      · rcases he with he | ⟨k, -, he⟩
        · exact hne (Obj.characteristic.inj he)
        · cases he
      · rcases he with he | ⟨k', hk', he⟩
        · cases he
        · rw [Obj.descriptor.inj he] at hk'
          exact hne ((h .descriptor).wellFormed.disjoint c e k hk hk')
  unfold managedObjects
  rw [List.nodup_flatMap]
  refine ⟨fun s _ => ?_, (hnodup .service d).imp fun {s t} hne o hs ht => ?_⟩
  · rw [List.nodup_cons]
    exact ⟨by simp [characteristicObjects, descriptorObjects], hcharacteristics s⟩
  · simp only [characteristicObjects, descriptorObjects, List.mem_cons, List.mem_flatMap,
      List.mem_map] at hs ht
    -- two services have no characteristic in common, so no descriptor either
    have hcharacteristic : ∀ c, c ∈ children .characteristic s → c ∈ children .characteristic t →
        False := fun c hc hc' => hne ((h .characteristic).wellFormed.disjoint s t c hc hc')
    rcases hs with rfl | ⟨c, hc, rfl | ⟨k, hk, rfl⟩⟩
    · rcases ht with ht | ⟨c, -, ht | ⟨k, -, ht⟩⟩
      · exact hne (Obj.service.inj ht)
      · cases ht
      · cases ht
    · rcases ht with ht | ⟨c', hc', ht | ⟨k, -, ht⟩⟩
      · cases ht
      · rw [← Obj.characteristic.inj ht] at hc'
        exact hcharacteristic c hc hc'
      · cases ht
    · rcases ht with ht | ⟨c', hc', ht | ⟨k', hk', ht⟩⟩
      · cases ht
      · cases ht
      · rw [Obj.descriptor.inj ht] at hk'
        rw [← (h .descriptor).wellFormed.disjoint c c' k hk hk'] at hc'
        exact hcharacteristic c hc hc'

/-- Where a list goes through some objects, each before what is below it. -/
theorem exists_flatMap_eq {α β : Type} (f : α → β) (g : α → List β) {a : α} {l : List α}
    (ha : a ∈ l) : ∃ m₁ m₂, (l.flatMap fun a => f a :: g a) = m₁ ++ f a :: (g a ++ m₂) := by
  obtain ⟨l₁, l₂, rfl⟩ := List.append_of_mem ha
  exact ⟨l₁.flatMap fun a => f a :: g a, l₂.flatMap fun a => f a :: g a, by simp⟩

/-- A child of a service or a characteristic is listed behind it. -/
theorem Forests.parent_before (h : Forests σ children) {d p c : ℕ} {kind : Kind}
    (hkind : kind ≠ .service) (hc : c ∈ children kind p)
    (hmem : kind.object c ∈ managedObjects children d) :
    ∃ m₁ m₂, managedObjects children d = m₁ ++ kind.parent p :: m₂ ∧ kind.object c ∈ m₂ := by
  simp only [managedObjects, characteristicObjects, descriptorObjects, List.mem_flatMap,
    List.mem_cons, List.mem_map] at hmem
  obtain ⟨s, hs, hrest⟩ := hmem
  -- a service is followed by everything below it
  obtain ⟨m₁, m₂, hservices⟩ :
      ∃ m₁ m₂, managedObjects children d =
        m₁ ++ .service s :: (characteristicObjects children s ++ m₂) :=
    exists_flatMap_eq Obj.service (characteristicObjects children) hs
  cases kind with
  | service => exact absurd rfl hkind
  | characteristic =>
    obtain ⟨e, he, heq⟩ : ∃ e ∈ children .characteristic s,
        Obj.characteristic c = .characteristic e := by
      rcases hrest with hrest | ⟨e, he, heq | ⟨k, -, heq⟩⟩
      · cases hrest
      · exact ⟨e, he, heq⟩
      · cases heq
    cases heq
    obtain rfl := (h .characteristic).wellFormed.disjoint s p c he hc
    refine ⟨m₁, _, hservices, List.mem_append_left m₂ ?_⟩
    exact List.mem_flatMap.mpr ⟨c, hc, List.mem_cons_self⟩
  | descriptor =>
    obtain ⟨e, he, hk⟩ : ∃ e ∈ children .characteristic s, c ∈ children .descriptor e := by
      rcases hrest with hrest | ⟨e, he, heq | ⟨k, hk, heq⟩⟩
      · cases hrest
      · cases heq
      · cases heq
        exact ⟨e, he, hk⟩
    obtain rfl := (h .descriptor).wellFormed.disjoint e p c hk hc
    -- and a characteristic by its descriptors
    obtain ⟨e₁, e₂, hcharacteristics⟩ : ∃ e₁ e₂, characteristicObjects children s =
        e₁ ++ .characteristic e :: (descriptorObjects children e ++ e₂) :=
      exists_flatMap_eq Obj.characteristic (descriptorObjects children) he
    refine ⟨m₁ ++ .service s :: e₁, descriptorObjects children e ++ (e₂ ++ m₂), ?_, ?_⟩
    · rw [hservices, hcharacteristics]
      simp [Kind.parent]
    · exact List.mem_append_left _ (List.mem_map.mpr ⟨c, hk, rfl⟩)

end Order

/-! ## What lies below a device -/

/-- Below a device are its children, theirs, and theirs again. -/
theorem Managed.object {σ : State} {d : ℕ} {o : Obj} (h : Managed σ d o) :
    ∃ kind p c, o = kind.object c ∧ ListedChild σ kind p c := by
  cases h with
  | @service s hs => exact ⟨.service, d, s, rfl, hs⟩
  | @characteristic s c _ hc => exact ⟨.characteristic, s, c, rfl, hc⟩
  | @descriptor s c k _ _ hk => exact ⟨.descriptor, c, k, rfl, hk⟩

section Below

variable {σ : State} {children : Kind → ℕ → List ℕ}

theorem Forests.exists_childAt (h : Forests σ children) {kind : Kind} {p c : ℕ}
    (hc : ListedChild σ kind p c) : ∃ i, σ.ChildAt kind p i c := by
  obtain ⟨l₁, l₂, hsplit⟩ := List.append_of_mem ((h kind).listedChild_iff.mp hc)
  exact ⟨_, (h kind).childAt_iff.mpr ⟨l₁, l₂, hsplit, rfl⟩⟩

theorem Forests.listedChild (h : Forests σ children) {kind : Kind} {p i c : ℕ}
    (hc : σ.ChildAt kind p i c) : ListedChild σ kind p c := by
  obtain ⟨l₁, l₂, hsplit, -⟩ := (h kind).childAt_iff.mp hc
  exact (h kind).listedChild_iff.mpr (hsplit ▸ List.mem_append_right _ List.mem_cons_self)

/-- What is below a device has a position below the device. -/
theorem Managed.placed (h : Forests σ children) {d : ℕ} (hd : d < σ.devices.length) {o : Obj}
    (hmanaged : Managed σ d o) : ∃ kind parent i, Placed σ o (.child kind parent i) ∧
      parent.root = UInt32.ofNat d := by
  have hservice : ∀ s, ListedChild σ .service d s → ∃ i,
      Placed σ (.service s) (.child .service (.device (UInt32.ofNat d)) i) := by
    intro s hs
    obtain ⟨i, hi⟩ := h.exists_childAt hs
    exact ⟨_, .child (.device hd) hi⟩
  have hcharacteristic : ∀ s c, ListedChild σ .service d s → ListedChild σ .characteristic s c →
      ∃ i j, Placed σ (.characteristic c)
        (.child .characteristic (.child .service (.device (UInt32.ofNat d)) i) j) := by
    intro s c hs hc
    obtain ⟨i, hplaced⟩ := hservice s hs
    obtain ⟨j, hj⟩ := h.exists_childAt hc
    exact ⟨i, _, .child hplaced hj⟩
  cases hmanaged with
  | service hs =>
    obtain ⟨i, hplaced⟩ := hservice _ hs
    exact ⟨_, _, i, hplaced, rfl⟩
  | characteristic hs hc =>
    obtain ⟨i, j, hplaced⟩ := hcharacteristic _ _ hs hc
    exact ⟨_, _, j, hplaced, rfl⟩
  | descriptor hs hc hk =>
    obtain ⟨i, j, hplaced⟩ := hcharacteristic _ _ hs hc
    obtain ⟨k, hk⟩ := h.exists_childAt hk
    exact ⟨_, _, _, .child hplaced hk, rfl⟩

/-- The position of a child goes on from that of its parent. -/
theorem Placed.parent {kind : Kind} {c : ℕ} {pos : Position} (h : Placed σ (kind.object c) pos) :
    ∃ p i parent, pos = .child kind parent (UInt32.ofNat i) ∧ Placed σ (kind.parent p) parent ∧
      σ.ChildAt kind p i c := by
  generalize ho : kind.object c = o at h
  cases h with
  | device _ => cases kind <;> cases ho
  | advertisement _ => cases kind <;> cases ho
  | @child kind' p i e parent hparent hchild =>
    obtain ⟨rfl, rfl⟩ := Kind.object_injective ho
    exact ⟨p, i, parent, rfl, hparent, hchild⟩

theorem Placed.of_device {d : ℕ} {pos : Position} (h : Placed σ (.device d) pos) :
    pos = .device (UInt32.ofNat d) := by
  generalize ho : Obj.device d = o at h
  cases h with
  | device _ => cases ho; rfl
  | advertisement _ => cases ho
  | @child kind _ _ _ _ _ _ => cases kind <;> cases ho

theorem Placed.of_advertisement {d : ℕ} {pos : Position} (h : Placed σ (.advertisement d) pos) :
    pos = .advertisement (UInt32.ofNat d) := by
  generalize ho : Obj.advertisement d = o at h
  cases h with
  | device _ => cases ho
  | advertisement _ => cases ho; rfl
  | @child kind _ _ _ _ _ _ => cases kind <;> cases ho

/-- As long as no counter wraps around, a child at a position below a device is below it. -/
theorem Placed.managed (h : Forests σ children) (hfit : CountersFit σ) {d : ℕ}
    (hd : d < σ.devices.length) {kind : Kind} {c : ℕ} {pos : Position}
    (hplaced : Placed σ (kind.object c) pos) (hroot : pos.root = UInt32.ofNat d) :
    Managed σ d (kind.object c) := by
  have hservice : ∀ (s : ℕ) (pos : Position), Placed σ (.service s) pos →
      pos.root = UInt32.ofNat d → ListedChild σ .service d s := by
    intro s pos hplaced hroot
    obtain ⟨e, i, parent, rfl, hparent, hchild⟩ := @Placed.parent σ .service _ _ hplaced
    have he : e < σ.devices.length := by
      obtain ⟨x, -, -, hx, -⟩ := hchild
      simpa [State.lists] using (List.getElem?_eq_some_iff.mp hx).1
    -- the root tells the device as long as the numbers of devices do not wrap around
    rw [Position.root, Placed.of_device hparent] at hroot
    obtain rfl := eq_of_ofNat_eq (he.trans hfit.devices) (hd.trans hfit.devices) hroot
    exact h.listedChild hchild
  have hcharacteristic : ∀ (c : ℕ) (pos : Position), Placed σ (.characteristic c) pos →
      pos.root = UInt32.ofNat d →
      ∃ s, ListedChild σ .service d s ∧ ListedChild σ .characteristic s c := by
    intro c pos hplaced hroot
    obtain ⟨s, i, parent, rfl, hparent, hchild⟩ := @Placed.parent σ .characteristic _ _ hplaced
    exact ⟨s, hservice s parent hparent hroot, h.listedChild hchild⟩
  cases kind with
  | service => exact .service (hservice c pos hplaced hroot)
  | characteristic =>
    obtain ⟨s, hs, hc⟩ := hcharacteristic c pos hplaced hroot
    exact .characteristic hs hc
  | descriptor =>
    obtain ⟨e, i, parent, rfl, hparent, hchild⟩ := @Placed.parent σ .descriptor _ _ hplaced
    obtain ⟨s, hs, hc⟩ := hcharacteristic e parent hparent hroot
    exact .descriptor hs hc (h.listedChild hchild)

end Below

/-! ## The reply -/

/-- The entries tell exactly about the objects below the device `d`, each once, with the registered
paths below the path of the device, and name the objects they are contained in. -/
structure FaithfulReply (σ : State) (d : ℕ) (x : Device) (objects : List Obj)
    (entries : List DBusValue) : Prop where
  managed : ∀ o, o ∈ objects ↔ Managed σ d o
  once : objects.Nodup
  told : entries.map some = objects.map σ.entry
  distinct : (entries.map entryPath).Nodup
  registered : ∀ path, some path ∈ entries.map entryPath ↔ path ∈ σ.bus.paths ∧
    PathBelow (σ.strings.read x.objectPath) path ∧
    path ≠ objectPathString (σ.strings.read x.objectPath) advertisementObjectName 0
  /-- the property of the container holds its path, which an earlier entry has unless the container
  is the device -/
  container : ∀ (l₁ : List Obj) (kind : Kind) (c : ℕ) (l₂ : List Obj) (p : ℕ),
    objects = l₁ ++ kind.object c :: l₂ → ListedChild σ kind p c →
    ∃ entry path list, σ.entry (kind.object c) = some entry ∧ σ.parent kind p = .ok (path, list) ∧
      entryObjectPath entry kind.parentProperty = some (σ.strings.read path) ∧
      (kind ≠ .service → ∃ earlier, some earlier ∈ l₁.map σ.entry ∧
        entryPath earlier = some (σ.strings.read path))

section Reply

variable {σ : State} {children : Kind → ℕ → List ℕ}

/-- The entry of a child in a list, in a state in which nothing is finalised. -/
theorem PlacementInv.entry_eq (h : PlacementInv σ children)
    (halive : ∀ o : Obj, o ∉ σ.finalised) {kind : Kind} {p c : ℕ}
    (hc : ListedChild σ kind p c) : ∃ entry text parentText,
      σ.entry (kind.object c) = some entry ∧ entryPath entry = some text ∧
      σ.pathOf (kind.object c) = some text ∧ text ∈ σ.bus.paths ∧
      entryObjectPath entry kind.parentProperty = some parentText ∧
      σ.pathOf (kind.parent p) = some parentText := by
  obtain ⟨l₁, l₂, hsplit⟩ := List.append_of_mem ((h.forests kind).listedChild_iff.mp hc)
  obtain ⟨n, parentText, hn, hparent, hparentPath, -⟩ := h.paths.listed kind p l₁ c l₂ hsplit
  have hattached : n.parentPath ≠ .null := by
    intro hnull
    rw [hnull] at hparentPath
    cases hparentPath
  have halive : σ.node kind c = .ok n :=
    State.node_eq_ok.mpr ⟨halive _, hn⟩
  -- the object path is the one that has been registered
  obtain ⟨id, text, hpath, hmem⟩ := h.registration.attached kind c n hn hattached
  obtain ⟨entry, hentry, hentryPath, hentryParent⟩ := State.entry_object hn
  have hread : σ.strings.read n.objectPath = text :=
    h.pointers.read_attached halive hattached (show n.field .objectPath = _ from hpath)
  -- the parent path is a copy of the path the parent had
  obtain ⟨id', parentText', hparentPath'⟩ :=
    (h.pointers.nodes kind n (List.mem_of_getElem? hn)).parentPath hattached
  have hreadParent : σ.strings.read n.parentPath = parentText' :=
    h.pointers.read_attached halive hattached (show n.field .parentPath = _ from hparentPath')
  have hsame : parentText' = parentText := by
    rw [hparentPath'] at hparentPath
    exact Option.some.inj hparentPath
  refine ⟨entry, text, parentText, hentry, hread ▸ hentryPath, ?_, ?_, ?_, hparent⟩
  · rw [State.pathOf_object, hn, Option.bind_some, hpath]
    rfl
  · exact List.mem_map.mpr ⟨_, hmem, rfl⟩
  · rw [hentryParent, hreadParent, hsame]

/-- The path of a parent, as the program reads it. -/
theorem PlacementInv.read_parent (h : PlacementInv σ children) (halive : ∀ o : Obj, o ∉ σ.finalised)
    {kind : Kind} {p c : ℕ} (hc : ListedChild σ kind p c) {text : CStr}
    (htext : σ.pathOf (kind.parent p) = some text) :
    ∃ path list, σ.parent kind p = .ok (path, list) ∧ σ.strings.read path = text := by
  obtain ⟨list, hlist⟩ := (h.forests kind).exists_list ((h.forests kind).listedChild_iff.mp hc)
  obtain ⟨path, list, hparent, -⟩ := State.parent_of_lt (List.getElem?_eq_some_iff.mp hlist).1
    (halive _)
  refine ⟨path, list, hparent, ?_⟩
  have hpublished : ¬ Unpublished kind path := by
    intro ⟨hservice, hnull⟩
    obtain ⟨-, hpath, -⟩ := State.parent_eq_ok.mp hparent
    obtain ⟨kind₀, hkind, hpaths⟩ := kind.parent_eq.resolve_left hservice
    rw [hpaths, List.getElem?_map, Option.map_eq_some_iff] at hpath
    obtain ⟨n, hn, hobject⟩ := hpath
    rw [hkind, State.pathOf_object, hn, Option.bind_some, hobject, hnull] at htext
    cases htext
  obtain ⟨text', hpoints, htext'⟩ := h.paths.pointsTo_parent h.pointers hparent hpublished
  rw [htext, Option.some.injEq] at htext'
  rw [hpoints.read, htext']

/-- Listing the entries of objects that have one. -/
theorem State.map_some_entries {objects : List Obj}
    (h : ∀ o ∈ objects, ∃ entry, σ.entry o = some entry) :
    (σ.entries objects).map some = objects.map σ.entry := by
  induction objects with
  | nil => rfl
  | cons o objects ih =>
    obtain ⟨entry, hentry⟩ := h o List.mem_cons_self
    have hrest := ih fun o ho => h o (List.mem_cons_of_mem _ ho)
    rw [State.entries, List.filterMap_cons_some hentry, List.map_cons, List.map_cons, hentry]
    exact congrArg _ hrest

/-- An object below a device has an entry, which gives its path, and the path is registered. -/
theorem PlacementInv.entry_managed (h : PlacementInv σ children)
    (halive : ∀ o : Obj, o ∉ σ.finalised) {d : ℕ} {o : Obj}
    (ho : o ∈ managedObjects children d) : ∃ entry text, σ.entry o = some entry ∧
      entryPath entry = some text ∧ σ.pathOf o = some text ∧ text ∈ σ.bus.paths := by
  obtain ⟨kind, p, c, rfl, hc⟩ := (h.forests.managed_iff.mpr ho).object
  obtain ⟨entry, text, -, hentry, hpath, htext, hmem, -⟩ := h.entry_eq halive hc
  exact ⟨entry, text, hentry, hpath, htext, hmem⟩

/-- The entries are those of the objects below the device. -/
theorem PlacementInv.map_some_entries (h : PlacementInv σ children)
    (halive : ∀ o : Obj, o ∉ σ.finalised) (d : ℕ) :
    (σ.entries (managedObjects children d)).map some =
      (managedObjects children d).map σ.entry := by
  apply State.map_some_entries
  intro o ho
  obtain ⟨entry, -, hentry, -⟩ := h.entry_managed halive ho
  exact ⟨entry, hentry⟩

/-- The paths of the entries are those of the objects. -/
theorem PlacementInv.map_entryPath (h : PlacementInv σ children)
    (halive : ∀ o : Obj, o ∉ σ.finalised) (d : ℕ) :
    (σ.entries (managedObjects children d)).map entryPath =
      (managedObjects children d).map σ.pathOf := by
  have hbind := congrArg (List.map fun entry => entry.bind entryPath) (h.map_some_entries halive d)
  rw [List.map_map, List.map_map] at hbind
  show (σ.entries (managedObjects children d)).map
    ((fun entry : Option DBusValue => entry.bind entryPath) ∘ some) = _
  rw [hbind]
  apply List.map_congr_left
  intro o ho
  obtain ⟨entry, text, hentry, hpath, htext, -⟩ := h.entry_managed halive ho
  rw [Function.comp_apply, hentry, Option.bind_some, hpath, htext]

/-- No two objects below a device have the same path. -/
theorem PlacementInv.nodup_paths (h : PlacementInv σ children) (hfit : CountersFit σ) {d : ℕ}
    (hd : d < σ.devices.length) : ((managedObjects children d).map σ.pathOf).Nodup := by
  apply (h.forests.nodup_managedObjects d).map_on
  intro o ho o' ho' hsame
  obtain ⟨kind, parent, i, hplaced, -⟩ := (h.forests.managed_iff.mpr ho).placed h.forests hd
  obtain ⟨kind', parent', i', hplaced', -⟩ := (h.forests.managed_iff.mpr ho').placed h.forests hd
  rw [h.paths.pathOf_eq h.forests hplaced, h.paths.pathOf_eq h.forests hplaced',
    Option.some.injEq] at hsame
  rw [Position.path_injective hsame] at hplaced
  exact hplaced.unique hfit h.forests hplaced'

/-- The path of an object below a device is below that of the device, and is not that of the
advertisement. -/
theorem PlacementInv.below_of_managed (h : PlacementInv σ children) {d : ℕ}
    (hd : d < σ.devices.length) {o : Obj} (ho : o ∈ managedObjects children d) {path : CStr}
    (hpath : σ.pathOf o = some path) : PathBelow (devicePath d) path ∧
      path ≠ objectPathString (devicePath d) advertisementObjectName 0 := by
  obtain ⟨kind, parent, i, hplaced, hroot⟩ := (h.forests.managed_iff.mpr ho).placed h.forests hd
  have hpos := h.paths.pathOf_eq h.forests hplaced
  rw [hpath, Option.some.injEq] at hpos
  constructor
  · rw [hpos]
    exact Position.pathBelow_device_iff.mpr ⟨hroot, by simp⟩
  · intro hadvert
    have hsame := Position.path_injective (hpos.symm.trans
      (show path = (Position.advertisement (UInt32.ofNat d)).path from hadvert))
    cases hsame

/-- What is registered below the path of a device, the advertisement apart, is the path of an object
below the device. -/
theorem PlacementInv.managed_of_below (h : PlacementInv σ children) (hfit : CountersFit σ) {d : ℕ}
    (hd : d < σ.devices.length) {path : CStr} (hmem : path ∈ σ.bus.paths)
    (hbelow : PathBelow (devicePath d) path)
    (hadvert : path ≠ objectPathString (devicePath d) advertisementObjectName 0) :
    ∃ o ∈ managedObjects children d, σ.pathOf o = some path := by
  obtain ⟨⟨path', o⟩, hentry, rfl⟩ := List.mem_map.mp hmem
  obtain ⟨pos, hplaced, hpos⟩ := h.registered hentry
  simp only [] at hpos hadvert hbelow ⊢
  rw [hpos] at hbelow
  obtain ⟨hroot, hdevice⟩ := Position.pathBelow_device_iff.mp
    (show PathBelow (Position.device (UInt32.ofNat d)).path pos.path from hbelow)
  have hchild : ∀ (kind : Kind) (c : ℕ), o = kind.object c →
      ∃ o ∈ managedObjects children d, σ.pathOf o = some path' := by
    intro kind c ho
    subst ho
    have hmanaged := hplaced.managed h.forests hfit hd hroot
    refine ⟨kind.object c, h.forests.managed_iff.mp hmanaged, ?_⟩
    rw [h.paths.pathOf_eq h.forests hplaced, hpos]
  -- by the kind of what is registered: a device is not below one, an advertisement is excepted
  cases o with
  | device e =>
    obtain rfl := hplaced.of_device
    exact absurd (congrArg Position.device hroot) hdevice
  | advertisement e =>
    obtain rfl := hplaced.of_advertisement
    rw [show UInt32.ofNat e = UInt32.ofNat d from hroot] at hpos
    exact absurd hpos hadvert
  | service s => exact hchild .service s rfl
  | characteristic c => exact hchild .characteristic c rfl
  | descriptor k => exact hchild .descriptor k rfl

/-- Wherever a child of a service or a characteristic stands, its parent stands before it. -/
theorem Forests.parent_mem_before (h : Forests σ children) {d p c : ℕ} {kind : Kind}
    (hkind : kind ≠ .service) (hc : c ∈ children kind p) {l₁ l₂ : List Obj}
    (hsplit : managedObjects children d = l₁ ++ kind.object c :: l₂) : kind.parent p ∈ l₁ := by
  have hmem : kind.object c ∈ managedObjects children d := by
    rw [hsplit]
    exact List.mem_append_right _ List.mem_cons_self
  obtain ⟨m₁, m₂, hsplit', hbehind⟩ := h.parent_before hkind hc hmem
  obtain ⟨m₃, m₄, rfl⟩ := List.append_of_mem hbehind
  -- the child is in the list once, so it is the one behind the parent
  have hnotMem : ∀ {l r : List Obj}, managedObjects children d = l ++ kind.object c :: r →
      kind.object c ∉ l := by
    intro l r heq hl
    have hnodup := h.nodup_managedObjects d
    rw [heq, List.nodup_append] at hnodup
    exact hnodup.2.2 _ hl _ List.mem_cons_self rfl
  have hsplit'' : managedObjects children d =
      (m₁ ++ kind.parent p :: m₃) ++ kind.object c :: m₄ := by
    rw [hsplit']
    simp
  have hbefore := (Decimal.eq_of_append_delimiter (hnotMem hsplit) (hnotMem hsplit'')
    (hsplit.symm.trans hsplit'')).1
  rw [hbefore]
  exact List.mem_append_right _ List.mem_cons_self

/-- In a state in which nothing is finalised and no counter has wrapped around, the entries of the
objects below a device are a faithful reply. -/
theorem PlacementInv.faithfulReply (h : PlacementInv σ children) (hfit : CountersFit σ)
    (halive : ∀ o : Obj, o ∉ σ.finalised) {d : ℕ} {x : Device} (hx : σ.device d = .ok x) :
    FaithfulReply σ d x (managedObjects children d) (σ.entries (managedObjects children d)) := by
  have hlt := (List.getElem?_eq_some_iff.mp (State.device_eq_ok.mp hx).2).1
  refine ⟨fun o => h.forests.managed_iff.symm, h.forests.nodup_managedObjects d,
    h.map_some_entries halive d, ?_, fun path => ?_, fun l₁ kind c l₂ p hsplit hc => ?_⟩
  · rw [h.map_entryPath halive]
    exact h.nodup_paths hfit hlt
  · -- the paths told are the registered ones below the path of the device
    rw [h.map_entryPath halive, h.pointers.read_devicePath hx, List.mem_map]
    constructor
    · intro ⟨o, ho, hpath⟩
      obtain ⟨-, text, -, -, htext, hmem⟩ := h.entry_managed halive ho
      obtain rfl : path = text := Option.some.inj (hpath.symm.trans htext)
      exact ⟨hmem, h.below_of_managed hlt ho hpath⟩
    · intro ⟨hmem, hbelow, hadvert⟩
      exact h.managed_of_below hfit hlt hmem hbelow hadvert
  · -- the entry of the parent comes before the entry of the child
    obtain ⟨entry, -, parentText, hentry, -, -, -, hparentText, hparent⟩ := h.entry_eq halive hc
    obtain ⟨path, list, hok, hread⟩ := h.read_parent halive hc hparent
    refine ⟨entry, path, list, hentry, hok, by rw [hread, hparentText], fun hservice => ?_⟩
    have hbefore := h.forests.parent_mem_before hservice
      ((h.forests kind).listedChild_iff.mp hc) hsplit
    obtain ⟨earlier, text, hearlier, hpath, htext, -⟩ := h.entry_managed halive
      (show kind.parent p ∈ managedObjects children d from
        hsplit ▸ List.mem_append_left _ hbefore)
    rw [hparent, Option.some.injEq] at htext
    refine ⟨earlier, ?_, by rw [hpath, hread, htext]⟩
    rw [← hearlier]
    exact List.mem_map_of_mem hbefore

/-- What is below a device can be read when nothing is finalised and the values fit into arrays. -/
theorem PlacementInv.complete (h : PlacementInv σ children)
    (halive : ∀ o : Obj, o ∉ σ.finalised) {d : ℕ}
    (hvalues : ∀ c y, Obj.characteristic c ∈ managedObjects children d →
      σ.characteristic c = .ok y → y.valueSize.toNat ≤ dbusMaximumArrayLength) {o : Obj}
    (ho : o ∈ managedObjects children d) : Complete σ o := by
  obtain ⟨kind, p, c, rfl, hc⟩ := (h.forests.managed_iff.mpr ho).object
  cases kind with
  | service => exact halive _
  | descriptor => exact halive _
  | characteristic =>
    obtain ⟨n, hn, -⟩ := (h.forests .characteristic).mem_nodes
      ((h.forests .characteristic).listedChild_iff.mp hc)
    simp only [State.nodes, List.getElem?_map, Option.map_eq_some_iff] at hn
    obtain ⟨y, hy, -⟩ := hn
    have hok : σ.characteristic c = .ok y := State.characteristic_eq_ok.mpr ⟨halive _, hy⟩
    exact ⟨y, hok, hvalues c y ho hok⟩

/-- The library takes both paths of an object below a device. -/
theorem PlacementInv.paths_taken (h : PlacementInv σ children)
    (halive : ∀ o : Obj, o ∉ σ.finalised) {d : ℕ} (hd : d < σ.devices.length) {kind : Kind} {c : ℕ}
    {n : Node} (ho : kind.object c ∈ managedObjects children d) (hn : σ.node kind c = .ok n) :
    isObjectPath (σ.strings.read n.objectPath) = true ∧
      isObjectPath (σ.strings.read n.parentPath) = true := by
  obtain ⟨kind', parent', i', hplaced, -⟩ := (h.forests.managed_iff.mpr ho).placed h.forests hd
  obtain ⟨p, i, parent, -, hparent, hchild⟩ := hplaced.parent
  obtain ⟨entry, text, parentText, hentry, hpath, hpathOf, -, hparentPath, hparentOf⟩ :=
    h.entry_eq halive (h.forests.listedChild hchild)
  obtain ⟨entry', hentry', hpath', hparentPath'⟩ := State.entry_object (State.node_eq_ok.mp hn).2
  obtain rfl : entry = entry' := Option.some.inj (hentry.symm.trans hentry')
  -- both are the paths of positions
  rw [h.paths.pathOf_eq h.forests hplaced, Option.some.injEq] at hpathOf
  rw [h.paths.pathOf_eq h.forests hparent, Option.some.injEq] at hparentOf
  rw [← Option.some.inj (hpath.symm.trans hpath'), ← hpathOf,
    ← Option.some.inj (hparentPath.symm.trans hparentPath'), ← hparentOf]
  exact ⟨(Position.validObjectPath _).isObjectPath, parent.validObjectPath.isObjectPath⟩

/-- An object below a device can be told if it can be read and its UUID is UTF-8. -/
theorem PlacementInv.describable (h : PlacementInv σ children)
    (halive : ∀ o : Obj, o ∉ σ.finalised) {d : ℕ} (hd : d < σ.devices.length) {o : Obj}
    (ho : o ∈ managedObjects children d) (hcomplete : Complete σ o)
    (huuid : ∀ kind c n, o = Kind.object kind c → σ.node kind c = .ok n →
      validUtf8 (σ.strings.read n.uuid) = true) : Describable σ o := by
  refine ⟨⟨hcomplete, fun kind c n heq hn => ?_⟩, fun kind c n heq hn => ?_⟩
  · subst heq
    exact ⟨huuid kind c n rfl hn, (h.paths_taken halive hd ho hn).2⟩
  · subst heq
    exact (h.paths_taken halive hd ho hn).1

/-- If there is a reply, it is made from the entries of the objects below the device. -/
theorem PlacementInv.reply_eq (h : PlacementInv σ children) (hvalues : ValuesInv σ) {d : ℕ}
    {x : Device} (hx : σ.device d = .ok x) {message reply : Message} {σ' : State}
    (hreply : deviceGetManagedObjects d message σ = .ok (some reply, σ')) :
    reply = methodReturn
      [.array "{oa{sa{sv}}}".toList (σ.entries (managedObjects children d))] := by
  cases hmemory : σ.bus.outOfMemory with
  | true =>
    -- without memory for a reply there is none
    unfold deviceGetManagedObjects at hreply
    rw [dbusMessageNewMethodReturn, if_pos hmemory] at hreply
    cases hreply
  | false =>
    obtain ⟨-, hrun⟩ | ⟨-, e, he⟩ :=
      deviceGetManagedObjects_decides h.pointers hvalues h.forests hx hmemory message
    · rw [hrun] at hreply
      cases hreply
      rfl
    · rw [he] at hreply
      cases hreply

/-- In every run without finalisers in which the library refuses registered paths only and no
counter wraps around, the reply to `GetManagedObjects` is faithful; it is sent as soon as the
values fit into arrays, the UUIDs are UTF-8 and there is memory for it. -/
theorem managed_objects_faithful {σ₀ σ : State} (hinit : σ₀.IsInitial) {ops : List Op}
    {replies : List Reply} (hops : ∀ op ∈ ops, op.NoFini ∧ op.FreshAccepted)
    (hfit : AllSteps exec (fun _ σ => CountersFit σ) ops σ₀)
    (hrun : execAll ops σ₀ = .ok (replies, σ)) (hfinal : CountersFit σ) {d : ℕ} {x : Device}
    (hx : σ.device d = .ok x) (message : Message) :
    ∃ objects entries, FaithfulReply σ d x objects entries ∧
      (∀ reply σ', deviceGetManagedObjects d message σ = .ok (some reply, σ') →
        reply = methodReturn [.array "{oa{sa{sv}}}".toList entries]) ∧
      (σ.bus.outOfMemory = false → (∀ c y, Obj.characteristic c ∈ objects →
          σ.characteristic c = .ok y → y.valueSize.toNat ≤ dbusMaximumArrayLength) →
        (∀ kind c n, Kind.object kind c ∈ objects → σ.node kind c = .ok n →
          validUtf8 (σ.strings.read n.uuid) = true) →
        deviceGetManagedObjects d message σ =
          .ok (some (methodReturn [.array "{oa{sa{sv}}}".toList entries]), σ)) := by
  have hreach : ReachableBy Op.NoFini σ :=
    ⟨σ₀, ops, replies, hinit, fun op hop => (hops op hop).1, hrun⟩
  have halive := notMem_finalised hreach
  -- the placement of the children is what a run preserves
  have hstep : ∀ (op : Op) (τ : State) (r : Reply) (τ' : State),
      (op.NoFini ∧ op.FreshAccepted) ∧ CountersFit τ → (∃ children, PlacementInv τ children) →
      exec op τ = .ok (r, τ') → ∃ children, PlacementInv τ' children := by
    intro op τ r τ' ⟨⟨_, hfresh⟩, hfit⟩ ⟨children, hinv⟩ hexec
    exact hinv.step hfit (fun _ _ _ _ => hfresh.add) hexec
  obtain ⟨children, hinv⟩ := AllSteps.invariant hstep ((allSteps_of_forall hops σ₀).and hfit)
    ⟨_, .of_isInitial hinit⟩ hrun
  have hvalues := ValuesInv.of_reachable hreach.reachable
  refine ⟨_, _, hinv.faithfulReply hfinal halive hx, ?_, ?_⟩
  · intro reply σ' hreply
    exact hinv.reply_eq hvalues hx hreply
  · intro hmemory hvaluesFit huuids
    have hlt := (List.getElem?_eq_some_iff.mp (State.device_eq_ok.mp hx).2).1
    have hdescribable : ∀ o ∈ managedObjects children d, Describable σ o := by
      intro o ho
      refine hinv.describable halive hlt ho (hinv.complete halive hvaluesFit ho) ?_
      rintro kind c n rfl hn
      exact huuids kind c n ho hn
    obtain ⟨-, hrun⟩ | ⟨hnot, -⟩ :=
      deviceGetManagedObjects_decides hinv.pointers hvalues hinv.forests hx hmemory message
    · exact hrun
    · exact absurd hdescribable hnot

end Reply

/-- The theorem for one object of each kind. -/
theorem managed_objects_faithful_one_of_each : ∃ objects entries,
    FaithfulReply (State.after oneOfEach) 0 ((State.after oneOfEach).devices.get ⟨0, by decide⟩)
      objects entries ∧
    deviceGetManagedObjects 0 (methodReturn []) (State.after oneOfEach) =
      .ok (some (methodReturn [.array "{oa{sa{sv}}}".toList entries]), State.after oneOfEach) := by
  have hops : ∀ op ∈ oneOfEach, op.NoFini ∧ op.FreshAccepted := by
    intro op hop
    refine ⟨?_, (freshAccepted_oneOfEach op hop).1⟩
    simp only [oneOfEach, List.mem_cons, List.not_mem_nil, or_false] at hop
    rcases hop with rfl | rfl | rfl | rfl | rfl | rfl | rfl | rfl | rfl <;> trivial
  have hfinal : CountersFit (State.after oneOfEach) :=
    .of_shortTables (State.reachable_after (by decide) fun _ _ => trivial) (by decide)
  have hrun : execAll oneOfEach State.empty = .ok (_, State.after oneOfEach) := rfl
  obtain ⟨objects, entries, hfaithful, -, hsent⟩ :=
    managed_objects_faithful State.isInitial_empty hops
      (CountersFit.allSteps State.isInitial_empty shortTables_oneOfEach) hrun hfinal
      (show (State.after oneOfEach).device 0 = .ok _ from rfl) (methodReturn [])
  refine ⟨objects, entries, hfaithful, hsent rfl (fun c y _ hy => ?_) fun kind c n _ hn => ?_⟩
  · have hsizes : ∀ y ∈ (State.after oneOfEach).characteristics,
        y.valueSize.toNat ≤ dbusMaximumArrayLength := by decide
    exact hsizes y (List.mem_of_getElem? (State.characteristic_eq_ok.mp hy).2)
  · have huuids : ∀ n ∈ (State.after oneOfEach).nodes kind,
        validUtf8 ((State.after oneOfEach).strings.read n.uuid) = true := by
      cases kind <;> decide
    exact huuids n (List.mem_of_getElem? (State.node_eq_ok.mp hn).2)

/-! ## Two devices with one path -/

/-- Any number of devices, and nothing else. -/
theorem exists_devices (n : ℕ) : ∃ σ, ReachableBy (fun op => op.NoFini ∧ op.FreshAccepted) σ ∧
    σ.devices.length = n ∧ σ.services = [] ∧ σ.bus = State.empty.bus := by
  induction n with
  | zero => exact ⟨State.empty, ⟨_, [], [], State.isInitial_empty, by simp, rfl⟩, rfl, rfl, rfl⟩
  | succ n ih =>
    obtain ⟨σ, hreach, hlength, hservices, hbus⟩ := ih
    refine ⟨_, hreach.step (.createDevice []) ⟨trivial, trivial⟩ rfl, ?_, hservices, hbus⟩
    show (σ.devices ++ [_]).length = n + 1
    rw [List.length_append, hlength]
    rfl

/-- Any number of devices, and a service that has not been added to any of them. -/
theorem exists_devices_and_service (n : ℕ) : ∃ σ children x,
    ReachableBy (fun op => op.NoFini ∧ op.FreshAccepted) σ ∧ Forests σ children ∧
      σ.devices.length = n ∧ σ.bus = State.empty.bus ∧ σ.node .service 0 = .ok x ∧
      x.parentPath = .null ∧ ∀ p, children .service p = [] := by
  obtain ⟨σ, hreach, hlength, hservices, hbus⟩ := exists_devices n
  have hreach₁ : ReachableBy (fun op => op.NoFini ∧ op.FreshAccepted)
      (luaiCreateService [] σ).2 := hreach.step (.createService []) ⟨trivial, trivial⟩ rfl
  have halive := notMem_finalised (hreach₁.mono fun _ hop => hop.1)
  have hnodes : (luaiCreateService [] σ).2.nodes .service =
      [⟨(σ.strings.alloc []).1, .null, .null, .lua, none⟩] := by
    have hcreates := (luaiCreateService_creates [] σ).nodes .service
    have hnone : σ.nodes .service = [] := by simp [State.nodes, hservices]
    rwa [if_pos rfl, hnone] at hcreates
  obtain ⟨children, hforests⟩ := Forests.of_reachable hreach₁.reachable
  refine ⟨_, children, ⟨(σ.strings.alloc []).1, .null, .null, .lua, none⟩, hreach₁, hforests,
    hlength, hbus, State.node_eq_ok.mpr ⟨halive _, ?_⟩, rfl, ?_⟩
  · rw [hnodes]
    rfl
  · -- the new service is in no list, so all lists of services are empty
    intro p
    apply List.eq_nil_iff_forall_not_mem.mpr
    intro c hc
    obtain ⟨x, hx, hattached⟩ := (hforests .service).mem_nodes hc
    rw [hnodes] at hx
    rw [List.mem_singleton.mp (List.mem_of_getElem? hx)] at hattached
    exact hattached rfl

/-- With `2 ^ 32 + 1` devices the last one has the path of the first. A service of the last one is
registered below that path, and the first device has no entry for it. -/
theorem exists_registered_below : ∃ σ x,
    ReachableBy (fun op => op.NoFini ∧ op.FreshAccepted) σ ∧ σ.device 0 = .ok x ∧
      "/dev0/serv0".toList ∈ σ.bus.paths ∧ deviceGetManagedObjects 0 (methodReturn []) σ =
        .ok (some (methodReturn [.array "{oa{sa{sv}}}".toList []]), σ) := by
  obtain ⟨σ₁, children, node, hreach, hforests, hlength, hbus, hnode, hunattached, hempty⟩ :=
    exists_devices_and_service (2 ^ 32 + 1)
  have hpointers := PointersInv.of_reachable hreach.reachable
  have halive := notMem_finalised (hreach.mono fun _ hop => hop.1)
  have hlt : 2 ^ 32 < (σ₁.lists .service).length := by
    simp [State.lists, hlength]
  obtain ⟨path, y, hparent, hy⟩ := State.parent_of_lt hlt (halive _)
  have hpasses : Passes σ₁ .service (2 ^ 32) 0 path y node := by
    refine ⟨hparent, hnode, fun h => h.1 rfl, hunattached, ?_⟩
    rw [(hforests .service).getChild_eq hpointers hy fun _ _ => halive _, hempty]
    rfl
  -- the number in the path of the last device has wrapped around
  have hnew : σ₁.childPath .service path y = "/dev0/serv0".toList := by
    obtain ⟨-, hpath, -⟩ := State.parent_eq_ok.mp hparent
    simp only [State.parentPaths, List.getElem?_map, Option.map_eq_some_iff] at hpath
    obtain ⟨x, hx, rfl⟩ := hpath
    rw [State.childPath, hpointers.read_devicePath (State.device_eq_ok.mpr ⟨halive _, hx⟩),
      (hforests .service).count _ _ hy, hempty]
    rfl
  have haccept : refusesRegistered σ₁.bus.paths (σ₁.childPath .service path y) = true := by
    apply acceptsFresh_refusesRegistered
    rw [hbus]
    exact List.not_mem_nil
  have hadd := addTo_of_passes hpasses refusesRegistered
  rw [if_pos haccept] at hadd
  set σ₂ := σ₁.attach .service (2 ^ 32) 0 node path y with hσ₂
  have hreach₂ : ReachableBy (fun op => op.NoFini ∧ op.FreshAccepted) σ₂ :=
    hreach.step (.add .service refusesRegistered (2 ^ 32) 0)
      ⟨trivial, acceptsFresh_refusesRegistered⟩ (bind_eq_ok.mpr ⟨_, hadd, rfl⟩)
  have hmanaged : managedObjects (childrenPush children .service (2 ^ 32) 0) 0 = [] := by
    rw [managedObjects, childrenPush_of_ne children 0 (by decide), hempty]
    rfl
  obtain ⟨x, hx⟩ : ∃ x, σ₂.device 0 = .ok x := by
    have hlength₂ : 0 < σ₂.devices.length := by
      simp [hσ₂, State.attach, State.setChildren, hlength]
    have halive₂ := notMem_finalised (hreach₂.mono fun _ hop => hop.1)
    exact ⟨_, State.device_eq_ok.mpr ⟨halive₂ _, List.getElem?_eq_getElem hlength₂⟩⟩
  have hmemory : σ₂.bus.outOfMemory = false := by
    simp [hσ₂, State.attach, hbus, State.empty, State.initial]
  have hreply := (deviceGetManagedObjects_serves (PointersInv.of_reachable hreach₂.reachable)
    (ValuesInv.of_reachable hreach₂.reachable) (hforests.attach hpointers hpasses) hx hmemory
    (methodReturn [])).1 (by rw [hmanaged]; simp)
  rw [hmanaged] at hreply
  refine ⟨σ₂, x, hreach₂, hx, ?_, hreply⟩
  simp [hσ₂, State.attach, Connection.paths, hnew]

/-- So without the bound on the counters replies are not faithful. -/
theorem not_managed_objects_faithful : ¬ ∀ (σ : State),
    ReachableBy (fun op => op.NoFini ∧ op.FreshAccepted) σ →
    ∀ (d : ℕ) (x : Device) (message reply : Message) (σ' : State), σ.device d = .ok x →
      deviceGetManagedObjects d message σ = .ok (some reply, σ') → ∃ objects entries,
        reply = methodReturn [.array "{oa{sa{sv}}}".toList entries] ∧
          FaithfulReply σ d x objects entries := by
  intro h
  obtain ⟨σ, x, hreach, hx, hpath, hreply⟩ := exists_registered_below
  obtain ⟨objects, entries, heq, hfaithful⟩ := h σ hreach 0 x _ _ _ hx hreply
  obtain rfl : entries = [] := by
    have hbody := congrArg Message.body heq
    simpa [methodReturn] using hbody.symm
  have hread := (PointersInv.of_reachable hreach.reachable).read_devicePath hx
  refine absurd ((hfaithful.registered "/dev0/serv0".toList).mpr ⟨hpath, ?_, ?_⟩) List.not_mem_nil
  · rw [hread]
    exact ⟨"serv0".toList, rfl⟩
  · rw [hread]
    decide

end BleSim
