import BleSim.FreeTheorems
import BleSim.IsolationTheorems
import BleSim.ScriptTheorems

/-!
# Careful runs

A few rules keep the simulator within defined behaviour: the script chooses UUIDs in UTF-8, sets no
value that overruns its block or does not fit into a message, and switches notifications on for
characteristics that have been added to a service only; clients name the interface they call, and
write arrays of items of fixed size (`Op.Careful`). Whatever else scripts pass to the API and
clients ask for, in whatever order, a run of such steps goes through, and frees only what is there
(`StaysSafe`).
-/

namespace BleSim

open Outcomes WriteOnce Refinement

/-! ## What keeps the server defined -/

theorem exists_mapM {α β : Type} {f : α → Option β} {l : List α}
    (h : ∀ a ∈ l, (f a).isSome = true) : ∃ bs, l.mapM f = some bs := by
  induction l with
  | nil => exact ⟨[], rfl⟩
  | cons a l ih =>
    obtain ⟨b, hb⟩ := Option.isSome_iff_exists.mp (h a List.mem_cons_self)
    obtain ⟨bs, hbs⟩ := ih fun a' ha' => h a' (List.mem_cons_of_mem a ha')
    exact ⟨b :: bs, by simp [hb, hbs]⟩

/-- Facts that go into a message can be told together. -/
theorem exists_entries {facts : List Fact} (h : ∀ fact ∈ facts, fact.value.isSome = true) :
    ∃ entries, facts.mapM Fact.entry = some entries :=
  exists_mapM fun fact hfact => by simp [Fact.entry, h fact hfact]

namespace Server

/-- Notifications are on only where there is a path to send them from, every UUID and every value
goes into a message, and every registered device has an adapter. -/
structure Safe (g : Server) : Prop where
  texts : ∀ (kind : Kind), ∀ a ∈ g.attributes kind, validUtf8 a.uuid = true
  told : ∀ (c : ℕ) (cell : Cell), g.cells[c]? = some cell → cell.notifying = true →
    (g.place .characteristic c).isSome = true
  fits : ∀ (c : ℕ) (cell : Cell), g.cells[c]? = some cell →
    cell.bytes.length ≤ dbusMaximumArrayLength
  adapters : ∀ d ∈ g.listed, ∃ x path, g.devices[d]? = some x ∧ x.adapter = some path

variable {g : Server}

theorem safe_empty : Safe Server.empty := by
  constructor <;> simp [Server.empty]

theorem exists_of_place {kind : Kind} {c : ℕ} (h : (g.place kind c).isSome = true) :
    ∃ uuid place, g.attributeAt kind c = some ⟨uuid, some place⟩ := by
  obtain ⟨place, hplace⟩ := Option.isSome_iff_exists.mp h
  obtain ⟨⟨uuid, _⟩, ha, rfl⟩ := Option.bind_eq_some_iff.mp hplace
  exact ⟨uuid, place, ha⟩

namespace Safe

variable (h : g.Safe)

include h

/-- What a characteristic may come to show. -/
theorem setCell {c : ℕ} {cell : Cell} (hfits : cell.bytes.length ≤ dbusMaximumArrayLength)
    (htold : cell.notifying = true → (g.place .characteristic c).isSome = true) :
    (g.setCell c cell).Safe := by
  refine ⟨h.texts, fun e cell' hcell hnotifying => ?_, fun e cell' hcell => ?_, h.adapters⟩
  all_goals
    simp only [Server.setCell, List.getElem?_set] at hcell
    split_ifs at hcell with hsame
  · cases hcell
    exact hsame ▸ htold hnotifying
  · exact h.told e cell' hcell hnotifying
  · cases hcell
    exact hfits
  · exact h.fits e cell' hcell

/-- Attributes keep their places when there are more of them. -/
theorem create (kind : Kind) {uuid : CStr} (huuid : validUtf8 uuid = true) :
    (g.create kind uuid).Safe := by
  have hcells : ∀ (c : ℕ) (cell : Cell), (g.create kind uuid).cells[c]? = some cell →
      g.cells[c]? = some cell ∨ cell = ⟨[], false⟩ := by
    intro c cell hcell
    simp only [Server.create] at hcell
    split_ifs at hcell
    · rw [List.getElem?_append] at hcell
      split_ifs at hcell with hlt
      · exact Or.inl hcell
      · exact Or.inr (List.mem_singleton.mp (List.mem_of_getElem? hcell))
    · exact Or.inl hcell
  refine ⟨fun kind' a ha => ?_, fun c cell hcell hnotifying => ?_, fun c cell hcell => ?_,
    h.adapters⟩
  · by_cases hkind : kind' = kind
    · subst hkind
      simp only [Server.create, Function.update_self, List.mem_append, List.mem_singleton] at ha
      rcases ha with ha | rfl
      · exact h.texts kind' a ha
      · exact huuid
    · simp only [Server.create, Function.update_of_ne hkind] at ha
      exact h.texts kind' a ha
  · rcases hcells c cell hcell with hold | rfl
    · obtain ⟨uuid', place, ha⟩ := exists_of_place (h.told c cell hold hnotifying)
      rw [Server.place, attributeAt_create ha]
      rfl
    · cases hnotifying
  · rcases hcells c cell hcell with hold | rfl
    · exact h.fits c cell hold
    · exact Nat.zero_le _

theorem attach {kind : Kind} {c : ℕ} {uuid : CStr}
    (ha : g.attributeAt kind c = some ⟨uuid, none⟩) (p : ℕ) (path : CStr) :
    (g.attach kind p c path).Safe := by
  refine ⟨fun kind' a ha' => ?_, fun e cell hcell hnotifying => ?_, h.fits, h.adapters⟩
  · by_cases hkind : kind' = kind
    · subst hkind
      simp only [Server.attach, Function.update_self] at ha'
      obtain ⟨b, hb, rfl | rfl⟩ := State.exists_of_mem_modify ha'
      · exact h.texts kind' _ hb
      · exact h.texts kind' b hb
    · simp only [Server.attach, Function.update_of_ne hkind] at ha'
      exact h.texts kind' a ha'
  · obtain ⟨uuid', place, he⟩ := exists_of_place (h.told e cell hcell hnotifying)
    rw [Server.place, attributeAt_attach ha he]
    rfl

theorem createDevice (deviceName : CStr) :
    Safe { g with devices := g.devices ++ [⟨deviceName, none⟩] } := by
  refine ⟨h.texts, h.told, h.fits, fun d hd => ?_⟩
  obtain ⟨x, path, hx, hpath⟩ := h.adapters d hd
  exact ⟨x, path, (List.getElem?_append_left (List.getElem?_eq_some_iff.mp hx).1).trans hx, hpath⟩

theorem afterRegister {d : ℕ} (hd : d < g.devices.length) (env : RegisterEnv) :
    (g.afterRegister env d).Safe := by
  refine ⟨h.texts, h.told, h.fits, fun e he => ?_⟩
  have hmodify : ∀ {x : Peripheral}, g.devices[e]? = some x → e = d ∨ x.adapter.isSome = true →
      ∃ y path, (g.afterRegister env d).devices[e]? = some y ∧ y.adapter = some path := by
    intro x hx hcase
    by_cases hde : d = e
    · subst hde
      refine ⟨{ x with adapter := some (adapterPath g.controllers) }, _, ?_, rfl⟩
      simp [Server.afterRegister, hx]
    · obtain ⟨path, hpath⟩ := Option.isSome_iff_exists.mp (hcase.resolve_left (Ne.symm hde))
      refine ⟨x, path, ?_, hpath⟩
      simp only [Server.afterRegister, List.getElem?_modify_ne _ _ hde, hx]
  simp only [Server.afterRegister] at he
  split_ifs at he
  · rcases List.mem_cons.mp he with rfl | he
    · exact hmodify (List.getElem?_eq_getElem hd) (Or.inl rfl)
    · obtain ⟨x, path, hx, hpath⟩ := h.adapters e he
      exact hmodify hx (Or.inr (by rw [hpath]; rfl))
  · obtain ⟨x, path, hx, hpath⟩ := h.adapters e he
    exact hmodify hx (Or.inr (by rw [hpath]; rfl))

/-! ### What it tells -/

/-- The UUIDs go into messages. -/
theorem uuidFact_isSome {kind : Kind} {c : ℕ} {uuid : CStr} {place : Option Place}
    (ha : g.attributeAt kind c = some ⟨uuid, place⟩) : (uuidFact uuid).value.isSome = true := by
  rw [uuidFact, if_pos (h.texts kind _ (List.mem_of_getElem? ha))]
  rfl

/-- Whatever an object tells about itself goes into a message. -/
theorem value_isSome {o : Obj} {fact : Fact} (hfact : fact ∈ g.facts o) :
    fact.value.isSome = true := by
  have hkind : ∀ (kind : Kind) (c : ℕ), fact ∈ g.kindFacts kind c → fact.value.isSome = true := by
    intro kind c hmem
    unfold kindFacts at hmem
    split at hmem
    · rename_i ha
      have huuid := h.uuidFact_isSome ha
      cases kind with
      | characteristic =>
        have hbytes : (g.bytes c).length ≤ dbusMaximumArrayLength := by
          unfold Server.bytes
          cases hcell : g.cells[c]? with
          | none => exact Nat.zero_le _
          | some cell => exact h.fits c cell hcell
        simp only [attributeFacts, characteristicFacts, if_pos hbytes, List.mem_cons,
          List.not_mem_nil, or_false] at hmem
        rcases hmem with rfl | rfl | rfl | rfl
        · exact huuid
        all_goals rfl
      | service =>
        simp only [attributeFacts, serviceFacts, List.mem_cons, List.not_mem_nil, or_false] at hmem
        rcases hmem with rfl | rfl | rfl
        · exact huuid
        all_goals rfl
      | descriptor =>
        simp only [attributeFacts, descriptorFacts, List.mem_cons, List.not_mem_nil,
          or_false] at hmem
        rcases hmem with rfl | rfl | rfl | rfl
        · exact huuid
        all_goals rfl
    · cases hmem
  cases o with
  | device d => cases hfact
  | advertisement d =>
    simp only [facts, advertisementFacts, List.mem_cons, List.not_mem_nil, or_false] at hfact
    rcases hfact with rfl | rfl | rfl | rfl | rfl | rfl | rfl | rfl | rfl <;> rfl
  | service s => exact hkind .service s hfact
  | characteristic c => exact hkind .characteristic c hfact
  | descriptor k => exact hkind .descriptor k hfact

/-- A device can tell about everything below it. -/
theorem exists_managedEntries {d : ℕ} (hkinds : ∀ o ∈ managedObjects g.children d,
    ∃ kind c uuid place, o = Kind.object kind c ∧ g.attributeAt kind c = some ⟨uuid, some place⟩) :
    ∃ entries, g.managedEntries d = some entries := by
  refine exists_mapM fun o ho => ?_
  obtain ⟨kind, c, uuid, place, rfl, ha⟩ := hkinds o ho
  have hfacts : ∀ fact ∈ g.kindFacts kind c, fact.value.isSome = true := fun fact hfact =>
    h.value_isSome (o := kind.object c) (by cases kind <;> exact hfact)
  obtain ⟨entries, hentries⟩ := exists_entries hfacts
  have hentry : g.entry (kind.object c) = g.kindEntry kind c := by cases kind <;> rfl
  rw [hentry, kindEntry, Server.place, ha]
  simp [hentries]

/-! ### What it is asked -/

/-- Calls of the interface of properties are defined, and change nothing. -/
theorem properties (o : Obj) (m : Message) : ∃ t, g.properties o m = some t := by
  have hall : ∀ fact ∈ g.facts o, fact.value.isSome = true := fun fact => h.value_isSome
  obtain ⟨entries, hentries⟩ := exists_entries hall
  unfold Server.properties
  split_ifs
  · split
    · exact ⟨_, rfl⟩
    · split
      · exact ⟨_, rfl⟩
      · rename_i fact hfind
        obtain ⟨v, hv⟩ := Option.isSome_iff_exists.mp (hall fact (List.mem_of_find?_eq_some hfind))
        exact ⟨_, by rw [hv]; rfl⟩
  · exact ⟨_, rfl⟩
  · exact ⟨_, by rw [hentries]; rfl⟩
  · exact ⟨_, rfl⟩

end Safe

end Server

/-! ## Careful steps -/

/-- A client that writes a value to a characteristic hands over an array of items of fixed size, and
no more of them than fit into a message. -/
def Message.WritesArray (m : Message) : Prop :=
  m.isMethodCall bluezGattCharacteristicInterface bluezMethodWriteValue = true →
    ∃ elem items rest, m.body = .array elem items :: rest ∧ isFixedSignature elem = true ∧
      items.length ≤ dbusMaximumArrayLength

/-- What scripts and clients keep to. -/
def Op.Careful (op : Op) (σ : State) : Prop :=
  match op with
  | .createService uuid | .createCharacteristic uuid | .createDescriptor uuid =>
    validUtf8 uuid = true
  | .add kind accepts p c =>
    AcceptsFresh accepts ∧ σ.Created (kind.parent p) ∧ σ.Created (kind.object c)
  | .registerDevice _ d | .setPowered _ d _ | .setDiscoverable _ d _ => σ.Created (.device d)
  | .setNotifying c notifying =>
    σ.Created (.characteristic c) ∧ (notifying = true → HasParent σ .characteristic c)
  | .setValue c v t => σ.Created (.characteristic c) ∧ ∀ type,
    luaiCheckTypeBleDataType t = .ret type → overruns type v = false ∧
      ∀ bytes, convertedBytes type v = some bytes → bytes.length ≤ dbusMaximumArrayLength
  | .deliver o m => m.WellTyped ∧ m.interface ≠ none ∧
    ((∃ c, o = .characteristic c) → m.WritesArray)
  | .fini _ => False
  | _ => True

theorem Op.Ordinary.noFini {op : Op} (h : op.Ordinary) : op.NoFini := by
  cases op with
  | fini o => exact h
  | _ => trivial

theorem Op.Careful.ordinary {op : Op} {σ : State} (h : op.Careful σ) : op.Ordinary := by
  cases op with
  | add kind accepts p c => exact h.1
  | deliver o m => exact h.1
  | fini o => exact h
  | _ => trivial

namespace Represents

variable {σ : State} {g : Server} (h : Represents σ g)

include h

/-! ### Objects that have been created -/

theorem exists_attribute_of_created {kind : Kind} {c : ℕ} (hcreated : σ.Created (kind.object c)) :
    ∃ a, g.attributeAt kind c = some a := by
  have hlt : c < (g.attributes kind).length := by
    rw [← h.length_attributes]
    cases kind <;> simpa [State.nodes, State.Created, Kind.object] using hcreated
  exact ⟨_, List.getElem?_eq_getElem hlt⟩

theorem exists_cell_of_created {c : ℕ} (hcreated : σ.Created (.characteristic c)) :
    ∃ cell, g.cells[c]? = some cell :=
  ⟨_, List.getElem?_eq_getElem (h.length ▸ hcreated)⟩

theorem exists_device_of_created {d : ℕ} (hcreated : σ.Created (.device d)) :
    ∃ x, g.devices[d]? = some x :=
  ⟨_, List.getElem?_eq_getElem (h.length_devices ▸ hcreated)⟩

theorem exists_parentPath_of_created {kind : Kind} {p : ℕ} (hcreated : σ.Created (kind.parent p)) :
    ∃ path, g.parentPath kind p = some path := by
  have hlt : p < (σ.lists kind).length := by
    cases kind <;> simpa [State.lists, State.Created, Kind.parent] using hcreated
  exact ⟨_, by rw [h.parentPath_eq, if_pos hlt]⟩

theorem place_of_hasParent {c : ℕ} (hparent : HasParent σ .characteristic c) :
    (g.place .characteristic c).isSome = true := by
  obtain ⟨-, uuid, place, -, -, -, ha, -⟩ := h.exists_attached hparent
  rw [Server.place, ha]
  rfl

variable (hsafe : g.Safe)

include hsafe

/-! ### Steps -/

theorem careful_add {kind : Kind} {accepts : Accepts} {p c : ℕ}
    (hcareful : (Op.add kind accepts p c).Careful σ) :
    ∃ r, g.add kind p c = some r ∧ r.2.Safe := by
  obtain ⟨-, hp, hc⟩ := hcareful
  obtain ⟨path, hpath⟩ := h.exists_parentPath_of_created hp
  obtain ⟨a, ha⟩ := h.exists_attribute_of_created hc
  have hdefined : ∃ r, g.add kind p c = some r := by
    unfold Server.add
    simp only [hpath, ha, Option.bind_eq_bind, Option.bind_some]
    cases path with
    | none => exact ⟨_, rfl⟩
    | some path =>
      dsimp only
      split_ifs <;> exact ⟨_, rfl⟩
  obtain ⟨r, hr⟩ := hdefined
  refine ⟨r, hr, ?_⟩
  rcases Server.add_next hr with heq | ⟨path, uuid, ha, heq⟩
  · exact heq ▸ hsafe
  · exact heq ▸ hsafe.attach ha p path

theorem careful_setAdapterProperty {d : ℕ} (hd : σ.Created (.device d)) (property : CStr)
    (env : PropertyEnv) (value : Bool) :
    ∃ t, g.setAdapterProperty property env d value = some t ∧ t.next.Safe := by
  obtain ⟨x, hx⟩ := h.exists_device_of_created hd
  have hdefined : ∃ t, g.setAdapterProperty property env d value = some t := by
    unfold Server.setAdapterProperty
    simp only [hx, Option.bind_eq_bind, Option.bind_some]
    split_ifs with hlisted hmessage
    · obtain ⟨y, path, hy, hpath⟩ := hsafe.adapters d hlisted
      obtain rfl : x = y := Option.some.inj (hx.symm.trans hy)
      exact ⟨_, by rw [hpath]; rfl⟩
    · obtain ⟨y, path, hy, hpath⟩ := hsafe.adapters d hlisted
      obtain rfl : x = y := Option.some.inj (hx.symm.trans hy)
      exact ⟨_, by rw [hpath]; rfl⟩
    · exact ⟨_, rfl⟩
  obtain ⟨t, ht⟩ := hdefined
  exact ⟨t, ht, (Server.setAdapterProperty_next ht).symm ▸ hsafe⟩

theorem careful_setNotifying {c : ℕ} {notifying : Bool}
    (hcareful : (Op.setNotifying c notifying).Careful σ) :
    ∃ g', g.notify c notifying = some g' ∧ g'.Safe := by
  obtain ⟨hc, hparent⟩ := hcareful
  obtain ⟨cell, hcell⟩ := h.exists_cell_of_created hc
  refine ⟨g.setCell c { cell with notifying }, by simp [Server.notify, hcell], ?_⟩
  exact hsafe.setCell (hsafe.fits c cell hcell) fun hon => h.place_of_hasParent (hparent hon)

theorem careful_setValue {c : ℕ} {v t : LuaValue} (hcareful : (Op.setValue c v t).Careful σ) :
    ∃ u, g.setValue c v t = some u ∧ u.next.Safe := by
  obtain ⟨hc, hvalue⟩ := hcareful
  obtain ⟨cell, hcell⟩ := h.exists_cell_of_created hc
  unfold Server.setValue
  cases htype : luaiCheckTypeBleDataType t with
  | raise => exact ⟨_, rfl, hsafe⟩
  | ret type =>
    obtain ⟨hruns, hbytes⟩ := hvalue type htype
    dsimp only
    rw [if_neg (by rw [hruns]; decide)]
    cases hconv : convertedBytes type v with
    | none => exact ⟨_, rfl, hsafe⟩
    | some bytes =>
      have hlength := hbytes bytes hconv
      dsimp only
      rw [narrowed_of_le hlength, Server.store, hcell]
      simp only [Option.bind_eq_bind, Option.bind_some]
      have hset : (g.setCell c { cell with bytes }).Safe :=
        hsafe.setCell hlength fun hon => hsafe.told c cell hcell hon
      split_ifs with hsame hon
      · exact ⟨_, rfl, hsafe⟩
      · -- there is a path to send the signal from
        obtain ⟨place, hplace⟩ := Option.isSome_iff_exists.mp (hsafe.told c cell hcell hon)
        exact ⟨_, by rw [hplace]; rfl, hset⟩
      · exact ⟨_, rfl, hset⟩

theorem careful_characteristicCall {c : ℕ} {cell : Cell} (hcell : g.cells[c]? = some cell)
    (hregistered : .characteristic c ∈ σ.registeredObjects) {m : Message}
    (harray : m.WritesArray) : ∃ t, g.characteristicCall c cell m = some t ∧ t.next.Safe := by
  have hfits := hsafe.fits c cell hcell
  have hparent : HasParent σ .characteristic c := h.attached_of_registered hregistered
  have hplace := h.place_of_hasParent hparent
  unfold Server.characteristicCall
  split_ifs with hread hwrite
  · exact ⟨_, rfl, hsafe⟩
  · obtain ⟨elem, items, rest, hbody, helem, hlength⟩ := harray hwrite
    unfold Server.write
    rw [hbody]
    dsimp only
    rw [if_pos helem]
    cases items with
    | nil => exact ⟨_, rfl, hsafe⟩
    | cons item items =>
      refine ⟨_, rfl, hsafe.setCell ?_ fun _ => hplace⟩
      -- no more bytes are stored than there are items
      have htake : (writtenBytes (item :: items)).length ≤ (item :: items).length := by
        rw [writtenBytes, List.length_take, UInt32.toNat_ofNat']
        exact (Nat.min_le_left _ _).trans (Nat.mod_le _ _)
      exact htake.trans hlength
  · exact ⟨_, rfl, hsafe.setCell hfits fun _ => hplace⟩
  · exact ⟨_, rfl, hsafe.setCell hfits fun hon => by cases hon⟩
  · exact ⟨_, rfl, hsafe⟩

theorem careful_deliver {o : Obj} {m : Message} (hcareful : (Op.deliver o m).Careful σ) :
    ∃ t, g.deliver o m = some t ∧ t.next.Safe := by
  obtain ⟨-, hinterface, harray⟩ := hcareful
  unfold Server.deliver
  split_ifs with ho
  swap
  · exact ⟨_, rfl, hsafe⟩
  obtain ⟨interface, hinterface⟩ := Option.ne_none_iff_exists'.mp hinterface
  rw [hinterface, Option.bind_some]
  split_ifs
  · obtain ⟨t, ht⟩ := hsafe.properties o m
    exact ⟨t, ht, (Server.properties_next ht).symm ▸ hsafe⟩
  · cases o with
    | device d =>
      unfold Server.call
      dsimp only
      split_ifs
      · obtain ⟨entries, hentries⟩ := hsafe.exists_managedEntries (d := d) fun o ho => by
          obtain ⟨kind, c, rfl, hattached⟩ := h.exists_kind_of_managed ho
          obtain ⟨-, uuid, place, -, -, -, ha, -⟩ := h.exists_attached hattached
          exact ⟨kind, c, uuid, place, rfl, ha⟩
        exact ⟨_, by rw [hentries]; rfl, hsafe⟩
      · exact ⟨_, rfl, hsafe⟩
    | characteristic c =>
      have hregistered := h.mem_objects.mp ho
      obtain ⟨cell, hcell⟩ : ∃ cell, g.cells[c]? = some cell := by
        obtain ⟨n, hn, -⟩ : HasParent σ .characteristic c := h.attached_of_registered hregistered
        refine h.exists_cell_of_created ?_
        simpa [State.nodes, State.Created] using (List.getElem?_eq_some_iff.mp hn).1
      obtain ⟨t, ht, hnext⟩ := h.careful_characteristicCall hsafe hcell hregistered
        (harray ⟨c, rfl⟩)
      exact ⟨t, by simp only [Server.call, hcell, Option.bind_some, ht], hnext⟩
    | _ => exact ⟨_, rfl, hsafe⟩

/-- A careful step goes through, and keeps the server safe. -/
theorem careful {op : Op} (hcareful : op.Careful σ) :
    ∃ t, Server.step op g = some t ∧ t.next.Safe := by
  cases op with
  | createDevice deviceName => exact ⟨_, rfl, hsafe.createDevice deviceName⟩
  | createService uuid | createCharacteristic uuid | createDescriptor uuid =>
    exact ⟨_, rfl, hsafe.create _ hcareful⟩
  | add kind accepts p c =>
    obtain ⟨r, hr, hnext⟩ := h.careful_add hsafe hcareful
    exact ⟨_, by rw [Server.step, hr]; rfl, hnext⟩
  | registerDevice env d =>
    have hd : d < g.devices.length := h.length_devices ▸ hcareful
    simp only [Server.step, Server.register, if_pos hd]
    split_ifs
    · exact ⟨_, rfl, hsafe⟩
    · exact ⟨_, rfl, hsafe.afterRegister hd env⟩
  | setPowered env d powered => exact h.careful_setAdapterProperty hsafe hcareful _ env powered
  | setDiscoverable env d discoverable =>
    exact h.careful_setAdapterProperty hsafe hcareful _ env discoverable
  | setNotifying c notifying =>
    obtain ⟨g', hg', hnext⟩ := h.careful_setNotifying hsafe hcareful
    exact ⟨_, by rw [Server.step, hg']; rfl, hnext⟩
  | setValue c v t => exact h.careful_setValue hsafe hcareful
  | deliver o m => exact h.careful_deliver hsafe hcareful
  | applicationReply d success | advertReply d success | reuseMemory strings buffers =>
    exact ⟨_, rfl, hsafe⟩
  | fini o => exact absurd hcareful id

end Represents

/-! ## Careful runs -/

/-- The step of `System` behind a step is careful, if there is one. -/
def ScriptStep.Careful (step : ScriptStep) (σ : State) : Prop :=
  step.Satisfies fun op => op.Careful σ

/-- What a careful run keeps, with room for so many more steps: nothing has been finalised, and the
objects stand for a server that is safe. -/
structure StaysSafe (n : ℕ) (σ : State) : Prop where
  reachable : ReachableBy Op.NoFini σ
  server : ∃ g, Represents σ g ∧ g.Safe ∧ g.Room n

namespace StaysSafe

variable {σ : State} {n : ℕ}

theorem of_isInitial (hinit : σ.IsInitial) (hfails : σ.buffers.NeverFails)
    (hmemory : σ.bus.outOfMemory = false) (hn : n < 2 ^ 32) : StaysSafe n σ where
  reachable := ⟨σ, [], [], hinit, by simp, rfl⟩
  server := ⟨_, .of_isInitial hinit hfails hmemory, Server.safe_empty, Server.room_empty hn⟩

/-- Room for more is room for less. -/
theorem fewer (h : StaysSafe (n + 1) σ) : StaysSafe n σ := by
  obtain ⟨g, hrepresents, hsafe, hroom⟩ := h.server
  exact ⟨h.reachable, g, hrepresents, hsafe, hroom.same rfl fun _ => rfl⟩

/-- A careful step goes through, and another one can follow. -/
theorem step (h : StaysSafe (n + 1) σ) {step : ScriptStep} (hcareful : step.Careful σ) :
    ∃ r σ', scriptExec step σ = .ok (r, σ') ∧ StaysSafe n σ' := by
  rw [scriptExec_eq, FrontEnd.step]
  cases hread : scriptFrontEnd.read step with
  | error r => exact ⟨r, σ, rfl, h.fewer⟩
  | ok op =>
    have hop := hcareful op hread
    obtain ⟨g, hrepresents, hsafe, hroom⟩ := h.server
    obtain ⟨t, ht, hnext⟩ := hrepresents.careful hsafe hop
    obtain ⟨σ', hexec, -, hrepresents'⟩ :=
      exec_refines.returns hrepresents ⟨hop.ordinary, hroom.short⟩ ht
    refine ⟨scriptFrontEnd.tell step t.reply, σ', by simp only [hexec, ok_bind], ?_, ?_⟩
    · exact h.reachable.step op hop.ordinary.noFini hexec
    · exact ⟨t.next, hrepresents', hnext, hroom.step ht⟩

/-- A careful run goes through. -/
theorem run {steps : List ScriptStep} : ∀ {σ : State}, StaysSafe (steps.length + n) σ →
    AllSteps scriptExec ScriptStep.Careful steps σ →
    ∃ replies σ', runAll scriptExec steps σ = .ok (replies, σ') ∧ StaysSafe n σ' := by
  induction steps with
  | nil =>
    intro σ h _
    exact ⟨[], σ, rfl, by simpa using h⟩
  | cons first steps ih =>
    intro σ h hall
    rw [List.length_cons, Nat.add_right_comm] at h
    obtain ⟨r, σ₁, hexec, h₁⟩ := h.step hall.1
    have hrest := hall.2
    rw [hexec] at hrest
    obtain ⟨replies, σ', hrun, h'⟩ := ih h₁ hrest
    exact ⟨r :: replies, σ', runAll_cons_eq_ok.mpr ⟨r, σ₁, replies, hexec, hrun, rfl⟩, h'⟩

end StaysSafe

end BleSim
