import BleSim.RegistryTheorems
import BleSim.Represents

/-!
# What the script does to the server

One lemma for each step of the script: in states that stand for each other the simulator and the
server do the same.
-/

namespace BleSim

open Outcomes WriteOnce Intrusive Refinement

/-- In `σ` the simulator does with `op` what the server says: it returns the reply, sends the
messages and stands for the next state of the server, or it fails where the server is undefined. -/
def Matches (op : Op) (σ : State) (answer : Option Answer) : Prop :=
  match answer with
  | some t => ∃ σ', exec op σ = .ok (t.reply, σ') ∧ σ'.bus.sent = σ.bus.sent ++ t.logged ∧
      Represents σ' t.next
  | none => ∃ e, exec op σ = .error e

/-- A request to set a boolean property of an object whose path is known. -/
theorem dbusutilsSetPropertyBasic_boolean {strings : Heap CStr} {field : Ptr CStr} {path : CStr}
    (hpath : libraryPath strings field = .ok path) {iface property : CStr}
    (hiface : validUtf8 iface = true) (hproperty : validUtf8 property = true) (value : Bool)
    (env : PropertyEnv) (bus : Connection) :
    dbusutilsSetPropertyBasic strings field iface property ['b'] (.boolean value) env bus =
      if env.message then .ok (env.answered, dbusConnectionSend bus ⟨.methodCall,
        some path, some dbusInterfaceProperties, some dbusMethodSet,
        [.string iface, .string property, .variant ['b'] (.boolean value)]⟩)
      else .ok (false, bus) := by
  rw [dbusutilsSetPropertyBasic, hpath, ok_bind]
  cases env.message with
  | false => rfl
  | true =>
    simp only [Bool.not_true, Bool.false_eq_true, ↓reduceIte]
    rw [Writer.appendBasic_string (Writer.zero_eq_depth _) hiface, ok_bind,
      Writer.push_initAppend, Writer.appendBasic_string (Writer.zero_eq_depth _) hproperty, ok_bind]
    rfl

namespace Represents

variable {σ σ' : State} {g g' : Server} (h : Represents σ g)

include h

/-- After a step that is no call on a value the characteristics show what they showed. -/
theorem elsewhere {op : Op} {r : Reply} (hop : op.Elsewhere) (hexec : exec op σ = .ok (r, σ'))
    (hstanding : Standing σ' g'.children g'.listed)
    (hattributes : ∀ kind, (σ'.nodes kind).map Node.texts =
      (g'.attributes kind).map Attribute.texts)
    (hdevices : σ'.devices.map Device.texts = g'.devices.map Peripheral.texts)
    (hcells : g'.cells = g.cells)
    (hlength : σ'.characteristics.length = σ.characteristics.length)
    (hregistered : σ'.bus.registered = g'.registered)
    (hcontrollers : σ'.controllerCount = g'.controllers) : Represents σ' g' := by
  have hkeeps := exec_keeps hop hexec
  refine ⟨hstanding, hattributes, hdevices, fun c cell hc => ?_, ?_, hregistered, hcontrollers, ?_,
    hkeeps.outOfMemory.trans h.memory⟩
  · exact hkeeps.shows (h.cells c cell (hcells ▸ hc))
  · rw [hlength, h.length, hcells]
  · unfold Heap.NeverFails
    rw [hkeeps.fails]
    exact h.fails

/-- A step that neither adds nor registers anything, and leaves the objects alone. -/
theorem unchanged {op : Op} {r : Reply} (hop : op.Elsewhere) (hexec : exec op σ = .ok (r, σ'))
    (hadd : ∀ kind accepts p c, op ≠ .add kind accepts p c)
    (hregister : ∀ env d, op ≠ .registerDevice env d)
    (hservices : σ'.services = σ.services) (hcharacteristics : σ'.characteristics =
      σ.characteristics) (hdescriptors : σ'.descriptors = σ.descriptors)
    (hdevices : σ'.devices.map Device.texts = σ.devices.map Device.texts)
    (hregistered : σ'.bus.registered = σ.bus.registered)
    (hcontrollers : σ'.controllerCount = σ.controllerCount) : Represents σ' g := by
  have hnofini : op.NoFini := by
    cases op with
    | fini => exact absurd hop id
    | _ => trivial
  refine h.elsewhere hop hexec (h.standing.step hnofini hexec hadd hregister) (fun kind => ?_)
    (hdevices.trans h.devices) rfl (by rw [hcharacteristics]) (hregistered.trans h.registered)
    (hcontrollers.trans h.controllers)
  rw [State.nodes_congr hservices hcharacteristics hdescriptors]
  exact h.attributes kind

/-! ### Creating objects -/

theorem createDevice (deviceName : CStr) :
    Matches (.createDevice deviceName) σ (Server.step (.createDevice deviceName) g) := by
  have hexec : exec (.createDevice deviceName) σ =
      .ok (.created (.device g.devices.length), (luaiCreateDevice deviceName σ).2) := by
    rw [← h.length_devices]
    rfl
  have hnofini : Op.NoFini (.createDevice deviceName) := trivial
  have helsewhere : Op.Elsewhere (.createDevice deviceName) := trivial
  refine ⟨_, hexec, (List.append_nil _).symm, h.elsewhere helsewhere hexec
    (h.standing.step hnofini hexec (by simp) (by simp)) (fun kind => ?_) ?_ rfl rfl h.registered
    h.controllers⟩
  · rw [State.nodes_congr rfl rfl rfl]
    exact h.attributes kind
  · show (σ.devices ++ [_]).map Device.texts = (g.devices ++ [_]).map Peripheral.texts
    rw [List.map_append, List.map_append, h.devices]
    rfl

/-- The attributes after one of a kind has been created. -/
theorem attributes_create {kind : Kind} {uuid : CStr} (hcreates : CreatesChild σ σ' kind uuid)
    (kind' : Kind) : (σ'.nodes kind').map Node.texts =
      ((g.create kind uuid).attributes kind').map Attribute.texts := by
  rw [hcreates.nodes kind']
  show _ = (Function.update g.attributes kind _ kind').map Attribute.texts
  by_cases hk : kind' = kind
  · subst hk
    rw [if_pos rfl, Function.update_self, List.map_append, List.map_append, h.attributes]
    rfl
  · rw [if_neg hk, Function.update_of_ne hk]
    exact h.attributes kind'

theorem createService (uuid : CStr) :
    Matches (.createService uuid) σ (Server.step (.createService uuid) g) := by
  have hexec : exec (.createService uuid) σ = .ok
      (.created (.service (g.attributes .service).length), (luaiCreateService uuid σ).2) := by
    rw [← h.length_attributes, State.nodes, List.length_map]
    rfl
  have hnofini : Op.NoFini (.createService uuid) := trivial
  have helsewhere : Op.Elsewhere (.createService uuid) := trivial
  exact ⟨_, hexec, (List.append_nil _).symm, h.elsewhere helsewhere hexec
    (h.standing.step hnofini hexec (by simp) (by simp))
    (h.attributes_create (luaiCreateService_creates uuid σ)) h.devices rfl rfl h.registered
    h.controllers⟩

theorem createDescriptor (uuid : CStr) :
    Matches (.createDescriptor uuid) σ (Server.step (.createDescriptor uuid) g) := by
  have hexec : exec (.createDescriptor uuid) σ = .ok
      (.created (.descriptor (g.attributes .descriptor).length),
        (luaiCreateDescriptor uuid σ).2) := by
    rw [← h.length_attributes, State.nodes, List.length_map]
    rfl
  have hnofini : Op.NoFini (.createDescriptor uuid) := trivial
  have helsewhere : Op.Elsewhere (.createDescriptor uuid) := trivial
  exact ⟨_, hexec, (List.append_nil _).symm, h.elsewhere helsewhere hexec
    (h.standing.step hnofini hexec (by simp) (by simp))
    (h.attributes_create (luaiCreateDescriptor_creates uuid σ)) h.devices rfl rfl h.registered
    h.controllers⟩

/-- A characteristic that has been created is empty and silent. -/
theorem createCharacteristic (uuid : CStr) :
    Matches (.createCharacteristic uuid) σ (Server.step (.createCharacteristic uuid) g) := by
  have hexec : exec (.createCharacteristic uuid) σ = .ok
      (.created (.characteristic (g.attributes .characteristic).length),
        (luaiCreateCharacteristic uuid σ).2) := by
    rw [← h.length_attributes, State.nodes, List.length_map]
    rfl
  have hnofini : Op.NoFini (.createCharacteristic uuid) := trivial
  have helsewhere : Op.Elsewhere (.createCharacteristic uuid) := trivial
  have hkeeps := exec_keeps helsewhere hexec
  refine ⟨_, hexec, (List.append_nil _).symm, h.standing.step hnofini hexec (by simp) (by simp),
    h.attributes_create (luaiCreateCharacteristic_creates uuid σ), h.devices,
    fun c cell hc => ?_, ?_, h.registered, h.controllers, h.fails, h.memory⟩
  · have hcell : (g.cells ++ [⟨[], false⟩])[c]? = some cell := hc
    rw [State.getElem?_concat] at hcell
    split_ifs at hcell with hlast
    · obtain rfl := Option.some.inj hcell
      have hnew : (luaiCreateCharacteristic uuid σ).2.characteristics[c]? = some _ :=
        (State.getElem?_concat _ _ c).trans (if_pos (hlast.trans h.length.symm))
      exact hkeeps.shows_new (h.length.trans hlast.symm).le
        (State.characteristic_eq_ok.mpr ⟨h.standing.notMem_finalised _, hnew⟩)
    · exact hkeeps.shows (h.cells c cell hcell)
  · show (σ.characteristics ++ [_]).length = (g.cells ++ [_]).length
    rw [List.length_append, List.length_append, h.length]
    rfl

/-! ### Adding a child -/

omit h in
/-- Tables with the same texts have the same texts after a change of one row each. -/
theorem map_modify_eq {α β γ : Type} {l : List α} {l' : List β} {u : α → γ} {v : β → γ}
    (hl : l.map u = l'.map v) {i : ℕ} {f : α → α} {f' : β → β}
    (hf : ∀ a b, l[i]? = some a → l'[i]? = some b → u (f a) = v (f' b)) :
    (l.modify i f).map u = (l'.modify i f').map v := by
  apply List.ext_getElem?
  intro j
  have hj : (l[j]?).map u = (l'[j]?).map v := by
    rw [← List.getElem?_map, hl, List.getElem?_map]
  simp only [List.getElem?_map, List.getElem?_modify]
  by_cases hij : i = j
  · subst hij
    cases ha : l[i]? with
    | none =>
      rw [ha, Option.map_none, eq_comm, Option.map_eq_none_iff] at hj
      rw [hj]
      rfl
    | some a =>
      rw [ha, Option.map_some, eq_comm, Option.map_eq_some_iff] at hj
      obtain ⟨b, hb, -⟩ := hj
      rw [hb]
      simp [hf a b ha hb]
  · simpa [hij] using hj

/-- An addition that is turned away changes nothing. -/
theorem add_rejected {kind : Kind} {accepts : Accepts} {p c : ℕ}
    (hadd : addTo kind accepts p c σ = .ok (false, σ)) :
    Matches (.add kind accepts p c) σ (some ⟨.bool false, [], g⟩) :=
  ⟨σ, bind_eq_ok.mpr ⟨_, hadd, rfl⟩, (List.append_nil _).symm, h⟩

/-- The lookup for a sibling finds one if the UUID is taken. -/
theorem getChild_isSome {kind : Kind} {p : ℕ} {x : Children} (hx : (σ.lists kind)[p]? = some x)
    (uuid : CStr) : ∃ found, getChild kind x uuid σ = .ok found ∧
      (found.isSome = true ↔ some uuid ∈ (g.children kind p).map (g.uuid kind)) := by
  refine ⟨_, (h.standing.forests kind).getChild_eq h.standing.pointers hx
    (fun c _ => h.standing.notMem_finalised _) uuid, ?_⟩
  simp only [List.find?_isSome, decide_eq_true_eq, List.mem_map, h.uuid_eq]

/-- The state in which a child has been added stands for the server that has it. -/
theorem attached {kind : Kind} {accepts : Accepts} {p c : ℕ} {ptr : Ptr CStr} {x : Children}
    {node : Node} {a : Attribute} {text : CStr} (hpasses : Passes σ kind p c ptr x node)
    (ha : g.attributeAt kind c = some a) (htexts : node.texts = a.texts)
    (hparent : σ.pathOf (kind.parent p) = some text)
    (hexec : exec (.add kind accepts p c) σ = .ok (.bool true, σ.attach kind p c node ptr x)) :
    Represents (σ.attach kind p c node ptr x) (g.attach kind p c text) := by
  have hframe := deviceFrame_attach σ kind p c node ptr x
  have hnofini : Op.NoFini (.add kind accepts p c) := trivial
  have helsewhere : Op.Elsewhere (.add kind accepts p c) := trivial
  -- the string of the parent's path is read for both strings of the child
  obtain ⟨text', hpoints, hparent'⟩ :=
    h.standing.paths.pointsTo_parent h.standing.pointers hpasses.parent hpasses.published
  obtain rfl : text = text' := Option.some.inj (hparent.symm.trans hparent')
  have hchild : σ.childPath kind ptr x = g.nextPath kind p text := by
    rw [State.childPath, hpoints.read,
      (h.standing.forests kind).count p x (State.parent_eq_ok.mp hpasses.parent).2.2]
    rfl
  have hnew : (σ.attachedNode kind node ptr x).texts =
      (some a.uuid, some text, some (g.nextPath kind p text)) := by
    have huuid : node.uuid.contents? = some a.uuid := congrArg Prod.fst htexts
    have hread : (σ.strings.alloc (σ.childPath kind ptr x)).2.read ptr = text :=
      ((Heap.Extends.alloc _ _).pointsTo hpoints).read
    rw [← hchild, ← hread]
    exact congrArg (fun u => (u, _, _)) huuid
  refine h.elsewhere helsewhere hexec ⟨h.standing.reachable.step _ hnofini hexec,
    h.standing.forests.attach h.standing.pointers hpasses,
    h.standing.paths.attach h.standing.forests h.standing.pointers hpasses,
    h.standing.list.of_frame (hframe.map_eq _ fun _ => rfl) hframe.deviceListHead
      hframe.registered⟩ (fun kind' => ?_) ?_ rfl ?_ ?_ ?_
  · rw [State.nodes_attach]
    show _ = (Function.update g.attributes kind _ kind').map Attribute.texts
    by_cases hk : kind' = kind
    · subst hk
      rw [if_pos rfl, Function.update_self]
      refine map_modify_eq (h.attributes kind') fun n b _ hb => ?_
      obtain rfl : a = b := Option.some.inj (ha.symm.trans hb)
      exact hnew
    · rw [if_neg hk, Function.update_of_ne hk]
      exact h.attributes kind'
  · exact (hframe.map_eq _ fun _ => rfl).trans h.devices
  · unfold State.attach
    cases kind <;> simp [State.setChildren, State.setNode]
  · rw [State.registered_attach, h.registered, hchild]
    rfl
  · exact hframe.controllerCount.trans h.controllers

/-- The library refuses no path but one that is registered already. -/
theorem add {kind : Kind} {accepts : Accepts} (haccepts : AcceptsFresh accepts)
    (hshort : g.Short) (p c : ℕ) :
    Matches (.add kind accepts p c) σ (Server.step (.add kind accepts p c) g) := by
  have hfails : ∀ e, addTo kind accepts p c σ = .error e →
      ∃ e, exec (.add kind accepts p c) σ = .error e := by
    intro e he
    exact ⟨e, by rw [exec, he, error_bind]⟩
  simp only [Server.step, Server.add, Option.bind_eq_bind]
  -- the parent and the child have to be there
  cases hpath : g.parentPath kind p with
  | none =>
    obtain ⟨e, he⟩ := h.no_parent hpath
    exact hfails e (by rw [addTo_eq, he, error_bind])
  | some path =>
    obtain ⟨ptr, x, hparent, hx, hsame⟩ := h.exists_parent hpath
    cases ha : g.attributeAt kind c with
    | none =>
      refine hfails .noObject ?_
      simp only [addTo_eq, hparent, ok_bind, h.no_node ha, error_bind]
    | some a =>
      obtain ⟨node, hget, hnode, htexts⟩ := h.exists_node ha
      simp only [Option.bind_some]
      have hrun : addTo kind accepts p c σ = if Unpublished kind ptr then .ok (false, σ)
          else addChild kind accepts p ptr x c node σ := by
        simp only [addTo_eq, hparent, ok_bind, hnode]
      cases path with
      | none =>
        refine h.add_rejected ?_
        rw [hrun, if_pos ((h.unpublished_iff hparent).mpr hsame)]
      | some path =>
        dsimp only
        have hpublished : ¬ Unpublished kind ptr := by
          rw [h.unpublished_iff hparent, hsame]
          simp
        rw [if_neg hpublished] at hrun
        obtain ⟨found, hfound, hiff⟩ := h.getChild_isSome hx (σ.strings.read node.uuid)
        rw [h.read_uuid hnode htexts] at hiff
        have hplace := h.place_isSome_iff hget htexts
        by_cases hreject : a.place.isSome = true ∨
            some a.uuid ∈ (g.children kind p).map (g.uuid kind)
        · -- the child hangs somewhere, or a sibling has its UUID
          rw [if_pos hreject, Option.map_some]
          refine h.add_rejected (hrun.trans ?_)
          unfold addChild
          by_cases howned : node.parentPath ≠ .null
          · rw [if_pos howned]
          · have htaken := hreject.resolve_left fun hp => howned (hplace.mp hp)
            rw [if_neg howned, hfound, ok_bind, if_pos (hiff.mpr htaken)]
        · obtain ⟨hfree, hnew⟩ := not_or.mp hreject
          rw [if_neg hreject, Option.map_some]
          have hnone : found = none := by
            cases found with
            | none => rfl
            | some e => exact absurd (hiff.mp rfl) hnew
          have hpasses : Passes σ kind p c ptr x node :=
            ⟨hparent, hnode, hpublished, not_not.mp fun hne => hfree (hplace.mpr hne),
              hnone ▸ hfound⟩
          have hadd := h.standing.placement.addTo_eq (h.countersFit hshort) hpasses haccepts
          have hexec : exec (.add kind accepts p c) σ =
              .ok (.bool true, σ.attach kind p c node ptr x) := bind_eq_ok.mpr ⟨_, hadd, rfl⟩
          refine ⟨_, hexec, ?_, h.attached hpasses ha htexts hsame hexec⟩
          simp [State.attach]

/-! ### Registering devices -/

/-- The state after a registration stands for the server after it. -/
theorem afterRegister {env : RegisterEnv} {d : ℕ} {strings : Heap CStr} {a : Advertisement}
    {sent : List Message}
    (hregister : deviceRegister env d σ =
      .ok (env.succeeds σ.bus.paths d, σ.afterRegister env d strings a sent)) :
    Represents (σ.afterRegister env d strings a sent) (g.afterRegister env d) := by
  have hexec : exec (.registerDevice env d) σ =
      .ok (.bool (env.succeeds σ.bus.paths d), σ.afterRegister env d strings a sent) :=
    bind_eq_ok.mpr ⟨_, hregister, rfl⟩
  have hnofini : Op.NoFini (.registerDevice env d) := trivial
  have helsewhere : Op.Elsewhere (.registerDevice env d) := trivial
  have hplacement := h.standing.placement.changes (exec_changes hexec) (by simp)
  have hpaths : σ.bus.paths = g.paths := congrArg (List.map Prod.fst) h.registered
  have hlist := (h.standing.list.deviceRegister h.standing.pointers hregister).2
  rw [hpaths] at hlist
  refine h.elsewhere helsewhere hexec ⟨h.standing.reachable.step _ hnofini hexec,
    hplacement.forests, hplacement.paths, hlist⟩ (fun kind => ?_) ?_ rfl rfl ?_ ?_
  · rw [State.nodes_congr rfl rfl rfl]
    exact h.attributes kind
  · refine map_modify_eq h.devices fun x x' hx hx' => ?_
    have hname := h.nameOf_eq d
    rw [State.nameOf, hx, hx', Option.bind_some, Option.map_some] at hname
    show (x.deviceName.contents?, some (adapterPath σ.controllerCount)) = _
    rw [hname, h.controllers]
    rfl
  · show σ.bus.registered ++ _ = g.registered ++ _
    rw [hpaths, h.registered]
  · show σ.controllerCount + _ = g.controllers + _
    rw [h.controllers]

theorem registerDevice (env : RegisterEnv) (d : ℕ) :
    Matches (.registerDevice env d) σ (Server.step (.registerDevice env d) g) := by
  simp only [Server.step, Server.register]
  by_cases hlt : d < g.devices.length
  · rw [if_pos hlt]
    obtain ⟨y, hy, -⟩ := h.exists_device (List.getElem?_eq_getElem hlt)
    obtain ⟨found, hfound, htaken⟩ := h.deviceGetDevice_isSome hy
    cases found with
    | some e =>
      have hregister := deviceRegister_of_found hy hfound env
      rw [if_pos (htaken.mp rfl)]
      exact ⟨σ, bind_eq_ok.mpr ⟨_, hregister, rfl⟩, (List.append_nil _).symm, h⟩
    | none =>
      rw [if_neg fun hname => Bool.false_ne_true (htaken.mpr hname)]
      obtain ⟨strings, a, -, -, hregister⟩ :=
        deviceRegister_eq h.standing.pointers hy hfound env
      have hpaths : σ.bus.paths = g.paths := congrArg (List.map Prod.fst) h.registered
      refine ⟨_, bind_eq_ok.mpr ⟨_, hregister, ?_⟩, ?_, h.afterRegister hregister⟩
      · rw [hpaths]
      · rw [← hpaths, ← h.controllers]
        rfl
  · rw [if_neg hlt]
    refine ⟨.noObject, ?_⟩
    rw [exec, deviceRegister, h.no_device (List.getElem?_eq_none (Nat.not_lt.mp hlt)), error_bind,
      error_bind]

/-! ### Adapters -/

/-- A device is initialised if it is one of the registered devices. -/
theorem initialised_iff {d : ℕ} {y : Device} (hy : σ.device d = .ok y) :
    y.initialised = true ↔ d ∈ g.listed := by
  have hget := (State.device_eq_ok.mp hy).2
  rw [h.standing.list.listed]
  constructor
  · intro hinit
    exact ⟨y, hget, hinit⟩
  · intro ⟨z, hz, hinit⟩
    obtain rfl : y = z := Option.some.inj (hget.symm.trans hz)
    exact hinit

omit h in
/-- An initialised device is named after its controller. -/
theorem controller_eq (hreach : ReachableBy Op.NoFini σ) {d : ℕ} {y : Device}
    (hy : σ.device d = .ok y) (hinit : y.initialised = true) :
    ∃ i, σ.strings.PointsTo y.controller (adapterPath i) ∧
      y.controller.contents? = some (adapterPath i) := by
  obtain ⟨l, hregistry⟩ := RegistryInv.of_reachable hreach
  have hget := (State.device_eq_ok.mp hy).2
  obtain ⟨handle, hhandle⟩ :=
    Option.isSome_iff_exists.mp (hregistry.handles.initialised d y hget hinit)
  obtain ⟨-, id, hcontroller⟩ := hregistry.controllers.named d y handle hget hhandle
  refine ⟨_, (PointersInv.of_reachable hreach.reachable).pointsTo_device hy
    (show y.field .controller = _ from hcontroller), ?_⟩
  rw [hcontroller]
  rfl

/-- What the function behind `powered` and `discoverable` does. -/
theorem deviceSetAdapterProperty_matches {property : CStr} (hproperty : validUtf8 property = true)
    {env : PropertyEnv} {d : ℕ}
    {value : Bool} {op : Op} (hop : op.Elsewhere)
    (hadd : ∀ kind accepts p c, op ≠ .add kind accepts p c)
    (hregister : ∀ env d, op ≠ .registerDevice env d)
    (hexec : exec op σ = do
      let (success, σ) ← deviceSetAdapterProperty property env d value σ
      .ok (.bool success, σ)) :
    Matches op σ (g.setAdapterProperty property env d value) := by
  have hstay : ∀ {τ : State} {b : Bool},
      deviceSetAdapterProperty property env d value σ = .ok (b, τ) →
      τ = { σ with bus := τ.bus } → τ.bus.registered = σ.bus.registered →
      exec op σ = .ok (.bool b, τ) ∧ Represents τ g := by
    intro τ b hrun hsame hregistered
    have hrun' : exec op σ = .ok (.bool b, τ) := by rw [hexec, hrun, ok_bind]
    refine ⟨hrun', h.unchanged hop hrun' hadd hregister ?_ ?_ ?_ ?_ hregistered ?_⟩
    all_goals rw [hsame]
  unfold Server.setAdapterProperty
  cases hx : g.devices[d]? with
  | none =>
    refine ⟨.noObject, ?_⟩
    rw [hexec, deviceSetAdapterProperty, h.no_device hx, error_bind, error_bind]
  | some x =>
    obtain ⟨y, hy, htexts⟩ := h.exists_device hx
    simp only [Option.bind_eq_bind, Option.bind_some]
    have hinit := h.initialised_iff hy
    by_cases hd : d ∈ g.listed
    · rw [if_pos hd]
      have hrun : deviceSetAdapterProperty property env d value σ =
          dbusutilsSetPropertyBasic σ.strings y.controller bluezAdapterInterface property ['b']
            (.boolean value) env σ.bus >>= fun r => .ok (r.1, { σ with bus := r.2 }) := by
        rw [deviceSetAdapterProperty, hy, ok_bind, hinit.mpr hd]
        rfl
      have hadapter : y.controller.contents? = x.adapter := congrArg Prod.snd htexts
      obtain ⟨i, hpoints, hcontents⟩ :=
        controller_eq h.standing.reachable hy (hinit.mpr hd)
      have hpath : libraryPath σ.strings y.controller = .ok (adapterPath i) :=
        libraryPath_eq_ok.mpr ⟨hpoints, (validObjectPath_adapterPath i).isObjectPath⟩
      rw [dbusutilsSetPropertyBasic_boolean hpath (by decide) hproperty] at hrun
      rw [← hadapter, hcontents]
      simp only [Option.bind_some]
      cases hmessage : env.message with
      | false =>
        simp only [hmessage, Bool.false_eq_true, ↓reduceIte, ok_bind] at hrun
        obtain ⟨hrun', hrepresents⟩ := hstay hrun rfl rfl
        exact ⟨_, hrun', (List.append_nil _).symm, hrepresents⟩
      | true =>
        simp only [hmessage, ↓reduceIte, ok_bind] at hrun
        obtain ⟨hrun', hrepresents⟩ := hstay hrun rfl rfl
        exact ⟨_, hrun', rfl, hrepresents⟩
    · rw [if_neg hd]
      have hfalse : y.initialised = false := by
        rw [← Bool.not_eq_true, hinit]
        exact hd
      have hrun : deviceSetAdapterProperty property env d value σ = .ok (false, σ) := by
        rw [deviceSetAdapterProperty, hy, ok_bind, hfalse]
        rfl
      obtain ⟨hrun', hrepresents⟩ := hstay hrun rfl rfl
      exact ⟨_, hrun', (List.append_nil _).symm, hrepresents⟩

theorem setPowered (env : PropertyEnv) (d : ℕ) (powered : Bool) :
    Matches (.setPowered env d powered) σ (Server.step (.setPowered env d powered) g) :=
  h.deviceSetAdapterProperty_matches (by decide)
    (show Op.Elsewhere (.setPowered env d powered) from trivial) (by simp) (by simp) rfl

theorem setDiscoverable (env : PropertyEnv) (d : ℕ) (discoverable : Bool) :
    Matches (.setDiscoverable env d discoverable) σ
      (Server.step (.setDiscoverable env d discoverable) g) :=
  h.deviceSetAdapterProperty_matches (by decide)
    (show Op.Elsewhere (.setDiscoverable env d discoverable) from trivial) (by simp) (by simp) rfl

/-! ### What goes unnoticed -/

/-- A device with a pending request is still there. -/
theorem pending_device {o : Obj} (ho : o ∈ σ.bus.pending) {d : ℕ}
    (hd : o = .device d ∨ o = .advertisement d) : ∃ y, σ.device d = .ok y := by
  obtain ⟨path, hpath⟩ := mem_registeredObjects.mp (h.standing.pointed.pending o ho)
  have hlt : d < σ.devices.length := by
    rcases hd with rfl | rfl
    · exact (h.standing.registration.devices d path hpath).2
    · obtain ⟨-, y, hy, -⟩ := h.standing.registration.adverts d path hpath
      exact (List.getElem?_eq_some_iff.mp hy).1
  exact ⟨_, State.device_eq_ok.mpr ⟨h.standing.notMem_finalised _, List.getElem?_eq_getElem hlt⟩⟩

/-- A step that returns nothing, sends nothing and changes nothing the server knows of. -/
theorem unnoticed {op : Op} (hop : op.Elsewhere) (hexec : exec op σ = .ok (.none, σ'))
    (hadd : ∀ kind accepts p c, op ≠ .add kind accepts p c)
    (hregister : ∀ env d, op ≠ .registerDevice env d) (hservices : σ'.services = σ.services)
    (hcharacteristics : σ'.characteristics = σ.characteristics)
    (hdescriptors : σ'.descriptors = σ.descriptors)
    (hdevices : σ'.devices.map Device.texts = σ.devices.map Device.texts)
    (hregistered : σ'.bus.registered = σ.bus.registered)
    (hcontrollers : σ'.controllerCount = σ.controllerCount) (hsent : σ'.bus.sent = σ.bus.sent) :
    Matches op σ (some ⟨.none, [], g⟩) := by
  refine ⟨σ', hexec, by rw [hsent, List.append_nil], ?_⟩
  exact h.unchanged hop hexec hadd hregister hservices hcharacteristics hdescriptors hdevices
    hregistered hcontrollers

theorem applicationReply (d : ℕ) (success : Bool) :
    Matches (.applicationReply d success) σ (Server.step (.applicationReply d success) g) := by
  have helsewhere : Op.Elsewhere (.applicationReply d success) := trivial
  by_cases hpending : Obj.device d ∈ σ.bus.pending
  · obtain ⟨y, hy⟩ := h.pending_device hpending (Or.inl rfl)
    have hreply : ∃ τ, onRegisterApplicationReply d success (σ.answer (.device d)) = .ok τ ∧
        τ = { σ.answer (.device d) with devices := τ.devices } ∧
        τ.devices.map Device.texts = σ.devices.map Device.texts := by
      unfold onRegisterApplicationReply
      rw [show (σ.answer (.device d)).device d = .ok y from hy, ok_bind]
      cases success with
      | false => exact ⟨_, rfl, rfl, rfl⟩
      | true => exact ⟨_, rfl, rfl, State.map_modify_same _ _ _ _ fun _ => rfl⟩
    obtain ⟨τ, hreply, hsame, hdevices⟩ := hreply
    have hexec : exec (.applicationReply d success) σ = .ok (.none, τ) := by
      rw [exec, if_pos hpending, hreply]
      rfl
    refine h.unnoticed helsewhere hexec (by simp) (by simp) ?_ ?_ ?_ hdevices ?_ ?_ ?_
    all_goals
      rw [hsame]
      rfl
  · have hexec : exec (.applicationReply d success) σ = .ok (.none, σ) := if_neg hpending
    exact h.unnoticed helsewhere hexec (by simp) (by simp) rfl rfl rfl rfl rfl rfl rfl

theorem advertReply (d : ℕ) (success : Bool) :
    Matches (.advertReply d success) σ (Server.step (.advertReply d success) g) := by
  have helsewhere : Op.Elsewhere (.advertReply d success) := trivial
  by_cases hpending : Obj.advertisement d ∈ σ.bus.pending
  · obtain ⟨y, hy⟩ := h.pending_device hpending (Or.inr rfl)
    have hreply : ∃ τ, onRegisterAdvertReply d success (σ.answer (.advertisement d)) = .ok τ ∧
        τ = { σ.answer (.advertisement d) with devices := τ.devices } ∧
        τ.devices.map Device.texts = σ.devices.map Device.texts := by
      unfold onRegisterAdvertReply
      rw [show (σ.answer (.advertisement d)).device d = .ok y from hy, ok_bind]
      cases success with
      | false => exact ⟨_, rfl, rfl, rfl⟩
      | true => exact ⟨_, rfl, rfl, State.map_modify_same _ _ _ _ fun _ => rfl⟩
    obtain ⟨τ, hreply, hsame, hdevices⟩ := hreply
    have hexec : exec (.advertReply d success) σ = .ok (.none, τ) := by
      rw [exec, if_pos hpending, hreply]
      rfl
    refine h.unnoticed helsewhere hexec (by simp) (by simp) ?_ ?_ ?_ hdevices ?_ ?_ ?_
    all_goals
      rw [hsame]
      rfl
  · have hexec : exec (.advertReply d success) σ = .ok (.none, σ) := if_neg hpending
    exact h.unnoticed helsewhere hexec (by simp) (by simp) rfl rfl rfl rfl rfl rfl rfl

/-- Freed memory may read as anything: no string or value the server knows of is freed. -/
theorem reuseMemory (strings : Ptr CStr → CStr) (buffers : Ptr Bytes → Bytes) :
    Matches (.reuseMemory strings buffers) σ (Server.step (.reuseMemory strings buffers) g) := by
  have helsewhere : Op.Elsewhere (.reuseMemory strings buffers) := trivial
  have hexec : exec (.reuseMemory strings buffers) σ = .ok (.none, { σ with
      strings := { σ.strings with stale := strings }
      buffers := { σ.buffers with stale := buffers } }) := rfl
  exact h.unnoticed helsewhere hexec (by simp) (by simp) rfl rfl rfl rfl rfl rfl rfl

end Represents

end BleSim
