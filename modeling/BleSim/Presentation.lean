import BleSim.ForestTheorems
import BleSim.LifetimeTheorems

/-!
# What objects tell about themselves

The values in the property tables, the entries of `GetManagedObjects`, and when they can be
written: an object that is gone cannot be read, and a value that is too long for a D-Bus array
is not written.
-/

namespace BleSim

open Outcomes WriteOnce Intrusive

/-! ## Code that writes or fails -/

/-- `get` appends one value if it is `ready`, and fails if not. The library takes the texts in the
value if `texts`. -/
structure Decides (get : Iter → Writer → Outcome Writer) (ready texts : Prop) : Prop where
  writes : ready → ∃ v, Writes get v ∧ (v.validTexts = true ↔ texts)
  fails : ¬ ready → Fails get

/-- `get` appends `vs` to whatever iterator it is given if it is `ready`, and fails if not. -/
def Serves (get : Iter → Writer → Outcome Writer) (ready : Prop) (vs : List DBusValue) : Prop :=
  ∀ (w : Writer) (iter : Iter), iter = w.depth →
    (ready → get iter w = w.appendAll vs) ∧ (¬ ready → ∃ e, get iter w = .error e)

theorem Decides.of_writes {get : Iter → Writer → Outcome Writer} {v : DBusValue}
    (h : Writes get v) {ready texts : Prop} (hready : ready)
    (htexts : v.validTexts = true ↔ texts) : Decides get ready texts :=
  ⟨fun _ => ⟨v, h, htexts⟩, fun hnot => absurd hready hnot⟩

/-- Code that is ready appends a value the library takes, and other code fails. -/
theorem Decides.cases {get : Iter → Writer → Outcome Writer} {ready texts : Prop}
    (h : Decides get ready texts) :
    ((ready ∧ texts) ∧ ∃ v, Writes get v ∧ v.validTexts = true) ∨
      (¬ (ready ∧ texts) ∧ Fails get) := by
  by_cases hready : ready
  · obtain ⟨v, hv, htexts⟩ := h.writes hready
    by_cases hvalid : v.validTexts = true
    · exact Or.inl ⟨⟨hready, htexts.mp hvalid⟩, v, hv, hvalid⟩
    · refine Or.inr ⟨fun hboth => hvalid (htexts.mpr hboth.2), fun w iter hiter => ?_⟩
      exact ⟨.invalidText, by rw [hv w iter hiter, Writer.append, if_neg hvalid]⟩
  · exact Or.inr ⟨fun hboth => hready hboth.1, h.fails hready⟩

/-- A getter that has to follow an object pointer first. -/
theorem getFromObject_decides {σ : State} {o : Obj} {α : Type} {table : List α} {i : ℕ} {x : α}
    (hx : table[i]? = some x) {get : α → Iter → Writer → Outcome Writer} {ready texts : Prop}
    (h : o ∉ σ.finalised → Decides (get x) ready texts) (hready : ready → o ∉ σ.finalised) :
    Decides (getFromObject (σ.access o table i) get) ready texts := by
  by_cases hfin : o ∈ σ.finalised
  · refine ⟨fun hr => absurd hfin (hready hr), fun _ w iter _ => ⟨.noObject, ?_⟩⟩
    simp [getFromObject, State.access, hfin]
  · rw [State.access_eq_ok.mpr ⟨hfin, hx⟩]
    exact h hfin

/-- A getter that writes as soon as the object is there. -/
theorem getFromObject_writes {σ : State} {o : Obj} {α : Type} {table : List α} {i : ℕ} {x : α}
    (hx : table[i]? = some x) {get : α → Iter → Writer → Outcome Writer} {v : DBusValue}
    {texts : Prop} (h : o ∉ σ.finalised → Writes (get x) v ∧ (v.validTexts = true ↔ texts)) :
    Decides (getFromObject (σ.access o table i) get) (o ∉ σ.finalised) texts :=
  getFromObject_decides hx (fun hfin => .of_writes (h hfin).1 hfin (h hfin).2) id

/-- The texts in a dump are the names of the rows and those in the values. -/
theorem validTextsAll_tableEntries {table : List Property} {values : List DBusValue}
    {texts : Property → Prop} (hnames : ∀ p ∈ table, validUtf8 p.name = true)
    (h : List.Forall₂ (fun p v => DBusValue.validTexts v = true ↔ texts p) table values) :
    DBusValue.validTextsAll (tableEntries table values) = true ↔ ∀ p ∈ table, texts p := by
  induction h with
  | nil => simp [tableEntries, DBusValue.validTextsAll]
  | @cons p v table values hv _ ih =>
    obtain ⟨hname, hnames⟩ := List.forall_mem_cons.mp hnames
    have hentry : (propertyEntry p.name p.signature v).validTexts = v.validTexts := by
      simp only [propertyEntry, DBusValue.validTexts, hname, Bool.true_and]
    have hrest := ih hnames
    rw [tableEntries] at hrest ⊢
    rw [List.zipWith_cons_cons, DBusValue.validTextsAll, hentry, Bool.and_eq_true,
      List.forall_mem_cons, hv, hrest]

/-- A table is dumped if all its getters write, and else the first that fails stops it. -/
theorem dbusutilsGetObjectPropertyData_decides {table : List Property}
    {ready texts : Property → Prop} (hnames : ∀ p ∈ table, validUtf8 p.name = true)
    (h : ∀ p ∈ table, Decides p.get (ready p) (texts p)) :
    Decides (dbusutilsGetObjectPropertyData table) (∀ p ∈ table, ready p)
      (∀ p ∈ table, texts p) := by
  -- either all rows can be written, or there is a first one that cannot
  have hsplit : (∃ values, WritesTable table values ∧
        List.Forall₂ (fun p v => DBusValue.validTexts v = true ↔ texts p) table values) ∧
        (∀ p ∈ table, ready p) ∨
      ∃ before values p after, table = before ++ p :: after ∧ WritesTable before values ∧
        ¬ ready p ∧ Fails p.get := by
    clear hnames
    induction table with
    | nil => exact Or.inl ⟨⟨[], .nil, .nil⟩, fun p hp => by cases hp⟩
    | cons p table ih =>
      by_cases hready : ready p
      · obtain ⟨v, hv, htexts⟩ := (h p List.mem_cons_self).writes hready
        rcases ih fun q hq => h q (List.mem_cons_of_mem p hq) with
          ⟨⟨values, hvalues, hall⟩, hrest⟩ | ⟨before, values, q, after, rfl, hvalues, hnot, hfails⟩
        · exact Or.inl ⟨⟨v :: values, .cons hv hvalues, .cons htexts hall⟩,
            List.forall_mem_cons.mpr ⟨hready, hrest⟩⟩
        · exact Or.inr ⟨p :: before, v :: values, q, after, rfl, .cons hv hvalues, hnot, hfails⟩
      · exact Or.inr ⟨[], [], p, table, rfl, .nil, hready, (h p List.mem_cons_self).fails hready⟩
  rcases hsplit with
    ⟨⟨values, hvalues, htexts⟩, hall⟩ | ⟨before, values, p, after, rfl, hvalues, hnot, hfails⟩
  · exact ⟨fun _ => ⟨_, dbusutilsGetObjectPropertyData_writes hvalues,
      validTextsAll_tableEntries hnames htexts⟩, fun hnot => absurd hall hnot⟩
  · exact ⟨fun hall => absurd (hall p (by simp)) hnot, fun _ =>
      dbusutilsGetObjectPropertyData_fails hvalues p after hfails⟩

namespace Serves

variable {get get' : Iter → Writer → Outcome Writer} {ready ready' : Prop}
  {vs vs' : List DBusValue}

theorem of_writes {v : DBusValue} (hwrites : ready → Writes get v)
    (hfails : ¬ ready → Fails get) : Serves get ready [v] := fun w iter hiter =>
  ⟨fun h => (hwrites h).all w iter hiter, fun h => hfails h w iter hiter⟩

/-- One piece of code after another. -/
theorem seq (h : Serves get ready vs) (h' : Serves get' ready' vs') :
    Serves (fun iter w => get iter w >>= get' iter) (ready ∧ ready') (vs ++ vs') := by
  intro w iter hiter
  beta_reduce
  by_cases hready : ready
  · have hdepth : iter = (w.pushAll vs).depth := by rw [Writer.depth_pushAll, hiter]
    rw [(h w iter hiter).1 hready, ← Writer.appendAll_append]
    obtain hok | herror := w.appendAll_cases vs
    · rw [hok, ok_bind, ok_bind]
      exact ⟨fun hboth => (h' _ _ hdepth).1 hboth.2, fun hnot => (h' _ _ hdepth).2 fun hready' =>
        hnot ⟨hready, hready'⟩⟩
    · rw [herror]
      exact ⟨fun _ => rfl, fun _ => ⟨_, rfl⟩⟩
  · obtain ⟨e, he⟩ := (h w iter hiter).2 hready
    rw [he]
    exact ⟨fun hboth => absurd hboth.1 hready, fun _ => ⟨e, rfl⟩⟩

/-- A loop over a list. -/
theorem foldlM {α : Type} {get : α → Iter → Writer → Outcome Writer} {ready : α → Prop}
    {vs : α → List DBusValue} : ∀ {l : List α}, (∀ a ∈ l, Serves (get a) (ready a) (vs a)) →
      Serves (fun iter w => l.foldlM (fun w a => get a iter w) w) (∀ a ∈ l, ready a)
        (l.flatMap vs)
  | [], _ => fun _ _ _ => ⟨fun _ => rfl, fun hnot => absurd (fun _ ha => by cases ha) hnot⟩
  | a :: l, h => by
    have hseq := (h a List.mem_cons_self).seq (foldlM fun b hb => h b (List.mem_cons_of_mem a hb))
    intro w iter hiter
    beta_reduce
    rw [List.foldlM_cons, List.flatMap_cons, List.forall_mem_cons]
    exact hseq w iter hiter

/-- Code behind the access to an object. -/
theorem access {α : Type} {object : Outcome α} {get : α → Iter → Writer → Outcome Writer}
    (h : ∀ x, object = .ok x → Serves (get x) ready vs)
    (hobject : ready → ∃ x, object = .ok x) :
    Serves (fun iter w => object >>= fun x => get x iter w) ready vs := by
  intro w iter hiter
  cases hx : object with
  | ok x => exact h x hx w iter hiter
  | error e =>
    refine ⟨fun hready => ?_, fun _ => ⟨e, rfl⟩⟩
    obtain ⟨x, hok⟩ := hobject hready
    rw [hx] at hok
    cases hok

end Serves

/-! ## Values of properties -/

/-- A reply with the given body. -/
def methodReturn (body : List DBusValue) : Message := ⟨.methodReturn, none, none, none, body⟩

/-- A reply with one value, which the library lets be built if it takes the texts in the value. -/
def replyWith (v : DBusValue) : Outcome Message :=
  if v.validTexts then .ok (methodReturn [v]) else .error .invalidText

/-- The bytes a characteristic reports. -/
def Characteristic.bytes (σ : State) (x : Characteristic) : Bytes :=
  (σ.buffers.read x.value).take x.valueSize.toNat

def serviceValues (σ : State) (x : Service) : List DBusValue :=
  [.string (σ.strings.read x.node.uuid), .objectPath (σ.strings.read x.node.parentPath),
    .boolean x.primary]

def characteristicValues (σ : State) (x : Characteristic) : List DBusValue :=
  [.string (σ.strings.read x.node.uuid), .objectPath (σ.strings.read x.node.parentPath),
    .array ['s'] (flagNames characteristicFlags x.flags), .byteArray (x.bytes σ)]

def descriptorValues (σ : State) (x : Descriptor) : List DBusValue :=
  [.string (σ.strings.read x.node.uuid), .objectPath (σ.strings.read x.node.parentPath),
    .array ['s'] (flagNames descriptorFlags x.flags.toUInt32), .byteArray []]

/-- What the paths and the UUID of a child in a list hold: texts that have not been freed. -/
structure Node.Published (strings : Heap CStr) (n : Node) : Prop where
  uuid : ∃ text, strings.PointsTo n.uuid text
  parentPath : ∃ text, strings.PointsTo n.parentPath text
  objectPath : ∃ text, strings.PointsTo n.objectPath text

/-- An attached child that is still there is published. -/
theorem PointersInv.published {σ : State} (h : PointersInv σ) {kind : Kind} {c : ℕ} {n : Node}
    (hn : σ.node kind c = .ok n) (hattached : n.parentPath ≠ .null) :
    n.Published σ.strings := by
  have hwf := h.nodes kind n (List.mem_of_getElem? (State.node_eq_ok.mp hn).2)
  have hpoints : ∀ f : NodeField, (∃ id a, n.field f = .block id a) →
      ∃ text, σ.strings.PointsTo (n.field f) text := fun f hf => by
    obtain ⟨id, a, hblock⟩ := hf
    exact ⟨a, h.pointsTo_attached hn hattached hblock⟩
  exact ⟨hpoints .uuid hwf.uuid, hpoints .parentPath (hwf.parentPath hattached),
    hpoints .objectPath (hwf.objectPath (hwf.attached hattached))⟩

/-- A text that is there is written as it is read. -/
theorem appendField_read {strings : Heap CStr} {mk : CStr → DBusValue} {field : Ptr CStr}
    (h : ∃ text, strings.PointsTo field text) :
    Writes (appendField strings mk field) (mk (strings.read field)) := by
  obtain ⟨text, hpoints⟩ := h
  rw [hpoints.read]
  exact appendField_writes hpoints

/-- An entry with a path that is there is written as it is read. -/
theorem dbusutilsGetObjectData_read {strings : Heap CStr} {table : List Property}
    {values : List DBusValue} {objectPath : Ptr CStr} (h : ∃ text, strings.PointsTo objectPath text)
    (hwrites : WritesTable table values) (interface : CStr) :
    Writes (dbusutilsGetObjectData strings table objectPath interface)
      (objectEntry (strings.read objectPath) interface (tableEntries table values)) := by
  obtain ⟨text, hpoints⟩ := h
  rw [hpoints.read]
  exact dbusutilsGetObjectData_writes hpoints hwrites

section Getters

variable {σ : State}

theorem serviceProperties_writes {x : Service} (h : x.node.Published σ.strings) :
    WritesTable (serviceProperties σ (.ok x)) (serviceValues σ x) :=
  .cons (appendField_read h.uuid) (.cons (appendField_read h.parentPath)
    (.cons (appendBasic_writes _) .nil))

theorem descriptorGetValue_writes {x : Descriptor} (hvalue : x.content = (.null, 0)) :
    Writes (descriptorGetValue σ x) (.byteArray []) := by
  have hwrites : Writes (appendValue (σ.buffers.read x.value) 0) _ :=
    appendValue_writes (Nat.zero_le _) (Nat.zero_le _)
  rw [descriptorGetValue, show x.valueSize = 0 from congrArg Prod.snd hvalue]
  exact hwrites

theorem descriptorProperties_writes {x : Descriptor} (h : x.node.Published σ.strings)
    (hvalue : x.content = (.null, 0)) :
    WritesTable (descriptorProperties σ (.ok x)) (descriptorValues σ x) :=
  .cons (appendField_read h.uuid) (.cons (appendField_read h.parentPath)
    (.cons (appendFlags_writes _ _) (.cons (descriptorGetValue_writes hvalue) .nil)))

/-- The bytes of a characteristic are read if they fit into an array. -/
theorem characteristicGetValue_decides (hvalues : ValuesInv σ) {c : ℕ} {x : Characteristic}
    (hx : σ.characteristic c = .ok x) :
    (x.valueSize.toNat ≤ dbusMaximumArrayLength →
      Writes (characteristicGetValue σ x) (.byteArray (x.bytes σ))) ∧
    (¬ x.valueSize.toNat ≤ dbusMaximumArrayLength →
      Fails (characteristicGetValue σ x)) := by
  obtain ⟨bytes, hholds⟩ := hvalues.holds hx
  obtain ⟨hsize, htake⟩ := ValuesInv.read_take hx hholds
  rw [hsize, Characteristic.bytes, htake]
  exact ⟨characteristicGetValue_writes hholds hx, fun hmax =>
    characteristicGetValue_fails hholds hx (Nat.not_le.mp hmax)⟩

theorem characteristicProperties_writes (hvalues : ValuesInv σ) {c : ℕ} {x : Characteristic}
    (hx : σ.characteristic c = .ok x) (h : x.node.Published σ.strings)
    (hmax : x.valueSize.toNat ≤ dbusMaximumArrayLength) :
    WritesTable (characteristicProperties σ (.ok x)) (characteristicValues σ x) :=
  .cons (appendField_read h.uuid) (.cons (appendField_read h.parentPath)
    (.cons (appendFlags_writes _ _)
      (.cons ((characteristicGetValue_decides hvalues hx).1 hmax) .nil)))

theorem characteristicProperties_fails (hvalues : ValuesInv σ) {c : ℕ} {x : Characteristic}
    (hx : σ.characteristic c = .ok x) (h : x.node.Published σ.strings)
    (hmax : ¬ x.valueSize.toNat ≤ dbusMaximumArrayLength) :
    Fails (dbusutilsGetObjectPropertyData (characteristicProperties σ (.ok x))) := by
  have hbefore : WritesTable ((characteristicProperties σ (.ok x)).take 3)
      ((characteristicValues σ x).take 3) :=
    .cons (appendField_read h.uuid) (.cons (appendField_read h.parentPath)
      (.cons (appendFlags_writes _ _) .nil))
  exact dbusutilsGetObjectPropertyData_fails hbefore ⟨_, _, _⟩ []
    ((characteristicGetValue_decides hvalues hx).2 hmax)

/-- The dictionary of manufacturer data has one entry. -/
theorem advertisementGetManufacturerData_writes {x : Advertisement}
    (hmax : x.manufacturerData.length ≤ advertisementDataMaxSize) :
    Writes (advertisementGetManufacturerData x) (.array "{qv}".toList
      [.dictEntry (.uint16 x.manufacturerId)
        (.variant ['a', 'y'] (.byteArray x.manufacturerData))]) := by
  have hlength : x.manufacturerData.length ≤ dbusMaximumArrayLength :=
    Nat.le_trans hmax (by decide)
  exact (dbusutilsIterAppendDictEntryFixedArray_writes _ hlength).all.array _

end Getters

/-! ## Registered objects -/

/-- Whether a registered object can read the property with the given name. `Includes` is a
constant; `Value` of a characteristic has to fit into an array. -/
def Readable (σ : State) (o : Obj) (name : CStr) : Prop :=
  match o with
  | .characteristic c => ∃ x, σ.characteristic c = .ok x ∧
      (name = blePropertyValue → x.valueSize.toNat ≤ dbusMaximumArrayLength)
  | .advertisement d => name = blePropertyIncludes ∨ .device d ∉ σ.finalised
  | o => o ∉ σ.finalised

/-- Whether a registered object can read all about itself. -/
def Complete (σ : State) (o : Obj) : Prop :=
  match o with
  | .characteristic c => ∃ x, σ.characteristic c = .ok x ∧
      x.valueSize.toNat ≤ dbusMaximumArrayLength
  | o => o.lifetime ∉ σ.finalised

/-- The property that tells the path of the parent. -/
def Kind.parentProperty : Kind → CStr
  | .service => blePropertyDevice
  | .characteristic => blePropertyService
  | .descriptor => blePropertyCharacteristic

/-- Whether the library takes the text of a property of a child: the UUID is UTF-8, and the path of
the parent is a path. -/
def Node.TextTaken (strings : Heap CStr) (kind : Kind) (n : Node) (name : CStr) : Prop :=
  (name = blePropertyUuid → validUtf8 (strings.read n.uuid) = true) ∧
    (name = kind.parentProperty → isObjectPath (strings.read n.parentPath) = true)

/-- Whether the library takes both texts of a child. -/
def Node.TextsTaken (strings : Heap CStr) (n : Node) : Prop :=
  validUtf8 (strings.read n.uuid) = true ∧ isObjectPath (strings.read n.parentPath) = true

/-- Whether the library takes the text of a property of an object. Only children tell texts that the
program has not made itself. -/
def TextTaken (σ : State) (o : Obj) (name : CStr) : Prop :=
  ∀ kind c n, o = Kind.object kind c → σ.node kind c = .ok n → n.TextTaken σ.strings kind name

/-- Whether the library takes the texts of all properties of an object. -/
def TextsTaken (σ : State) (o : Obj) : Prop :=
  ∀ kind c n, o = Kind.object kind c → σ.node kind c = .ok n → n.TextsTaken σ.strings

/-- Whether a registered object can tell the property with the given name. -/
def Gettable (σ : State) (o : Obj) (name : CStr) : Prop := Readable σ o name ∧ TextTaken σ o name

/-- Whether a registered object can tell all about itself. -/
def Presentable (σ : State) (o : Obj) : Prop := Complete σ o ∧ TextsTaken σ o

theorem Node.textTaken_uuid {strings : Heap CStr} {kind : Kind} {n : Node} :
    n.TextTaken strings kind blePropertyUuid ↔ validUtf8 (strings.read n.uuid) = true := by
  have hne : blePropertyUuid ≠ kind.parentProperty := by cases kind <;> decide
  simp [TextTaken, hne]

theorem Node.textTaken_parentProperty {strings : Heap CStr} {kind : Kind} {n : Node} :
    n.TextTaken strings kind kind.parentProperty ↔
      isObjectPath (strings.read n.parentPath) = true := by
  have hne : kind.parentProperty ≠ blePropertyUuid := by cases kind <;> decide
  simp [TextTaken, hne]

/-- The other properties hold no text that could be wrong. -/
theorem Node.textTaken_other {strings : Heap CStr} {kind : Kind} {n : Node} {name : CStr}
    (huuid : name ≠ blePropertyUuid) (hparent : name ≠ kind.parentProperty) :
    n.TextTaken strings kind name := ⟨fun h => absurd h huuid, fun h => absurd h hparent⟩

theorem textTaken_iff {σ : State} {kind : Kind} {c : ℕ} {n : Node} (hn : σ.node kind c = .ok n)
    (name : CStr) : TextTaken σ (kind.object c) name ↔ n.TextTaken σ.strings kind name := by
  constructor
  · exact fun h => h kind c n rfl hn
  · intro h kind' c' n' heq hn'
    obtain ⟨rfl, rfl⟩ := Kind.object_injective heq
    obtain rfl : n = n' := by simpa using hn.symm.trans hn'
    exact h

section Rows

variable {σ : State} {kind : Kind} {c : ℕ} {n : Node} (hn : σ.node kind c = .ok n)
include hn

/-- The texts of the values that a child gives for its properties. -/
theorem texts_uuid : (DBusValue.string (σ.strings.read n.uuid)).validTexts = true ↔
    TextTaken σ (kind.object c) blePropertyUuid :=
  Node.textTaken_uuid.symm.trans (textTaken_iff hn _).symm

theorem texts_parentProperty :
    (DBusValue.objectPath (σ.strings.read n.parentPath)).validTexts = true ↔
      TextTaken σ (kind.object c) kind.parentProperty :=
  Node.textTaken_parentProperty.symm.trans (textTaken_iff hn _).symm

theorem texts_other {v : DBusValue} (hv : v.validTexts = true) (name : CStr)
    (huuid : name ≠ blePropertyUuid) (hparent : name ≠ kind.parentProperty) :
    v.validTexts = true ↔ TextTaken σ (kind.object c) name :=
  iff_of_true hv ((textTaken_iff hn _).mpr (Node.textTaken_other huuid hparent))

end Rows

theorem textsTaken_iff {σ : State} {kind : Kind} {c : ℕ} {n : Node} (hn : σ.node kind c = .ok n) :
    TextsTaken σ (kind.object c) ↔ n.TextsTaken σ.strings := by
  constructor
  · exact fun h => h kind c n rfl hn
  · intro h kind' c' n' heq hn'
    obtain ⟨rfl, rfl⟩ := Kind.object_injective heq
    obtain rfl : n = n' := by simpa using hn.symm.trans hn'
    exact h

/-- The names of the properties are literals. -/
theorem validUtf8_names (σ : State) (o : Obj) :
    ∀ p ∈ (objectData σ o).properties, validUtf8 p.name = true := by
  have hnames : ((objectData σ o).properties.map Property.name).all validUtf8 = true := by
    cases o <;> rfl
  intro p hp
  exact List.all_eq_true.mp hnames _ (List.mem_map_of_mem hp)

/-- The table of an object that is no device can be read if the object can read all about itself. -/
theorem forall_readable_iff {σ : State} {o : Obj} :
    (∀ p ∈ (objectData σ o).properties, Readable σ o p.name) ↔
      ((∀ d, o ≠ .device d) → Complete σ o) := by
  constructor
  · intro h hdevice
    cases o with
    | device d => exact absurd rfl (hdevice d)
    | advertisement d =>
      have hrow := h ⟨blePropertyType, ['s'], _⟩ List.mem_cons_self
      exact hrow.resolve_left (show blePropertyType ≠ blePropertyIncludes by decide)
    | service s => exact h ⟨blePropertyUuid, ['s'], _⟩ List.mem_cons_self
    | descriptor k => exact h ⟨blePropertyUuid, ['s'], _⟩ List.mem_cons_self
    | characteristic c =>
      -- the value is the one property that can be too long
      obtain ⟨x, hx, hmax⟩ := h ⟨blePropertyValue, ['a', 'y'],
        getFromObject (σ.characteristic c) (characteristicGetValue σ)⟩ (by
          simp [objectData, characteristicProperties])
      exact ⟨x, hx, hmax rfl⟩
  · intro h p hp
    cases o with
    | device d => cases hp
    | advertisement d => exact Or.inr (h (by simp))
    | service s => exact h (by simp)
    | descriptor k => exact h (by simp)
    | characteristic c =>
      obtain ⟨x, hx, hmax⟩ := h (by simp)
      exact ⟨x, hx, fun _ => hmax⟩

/-- The first two rows of the table of a child are its texts. -/
theorem forall_textTaken_iff {σ : State} {o : Obj} :
    (∀ p ∈ (objectData σ o).properties, TextTaken σ o p.name) ↔ TextsTaken σ o := by
  constructor
  · intro h kind c n ho hn
    have hrows : blePropertyUuid ∈ (objectData σ o).properties.map Property.name ∧
        kind.parentProperty ∈ (objectData σ o).properties.map Property.name := by
      rw [ho]
      cases kind <;> exact ⟨.head _, .tail _ (.head _)⟩
    obtain ⟨⟨p, hp, hname⟩, q, hq, hname'⟩ := hrows.imp List.mem_map.mp List.mem_map.mp
    have huuid := h p hp kind c n ho hn
    have hparent := h q hq kind c n ho hn
    rw [hname] at huuid
    rw [hname'] at hparent
    exact ⟨Node.textTaken_uuid.mp huuid, Node.textTaken_parentProperty.mp hparent⟩
  · intro h p _ kind c n ho hn
    obtain ⟨huuid, hparent⟩ := h kind c n ho hn
    exact ⟨fun _ => huuid, fun _ => hparent⟩

/-- The table of an object that is no device can be dumped if the object can tell all about
itself. -/
theorem forall_gettable_iff {σ : State} {o : Obj} :
    ((∀ p ∈ (objectData σ o).properties, Readable σ o p.name) ∧
      ∀ p ∈ (objectData σ o).properties, TextTaken σ o p.name) ↔
      ((∀ d, o ≠ .device d) → Presentable σ o) := by
  rw [forall_readable_iff, forall_textTaken_iff]
  constructor
  · exact fun h hdevice => ⟨h.1 hdevice, h.2⟩
  · intro h
    refine ⟨fun hdevice => (h hdevice).1, fun kind c n ho hn => ?_⟩
    have hchild : ∀ d, o ≠ .device d := by
      rintro d rfl
      cases kind <;> cases ho
    exact (h hchild).2 kind c n ho hn

/-- An advertisement only tells texts that the program has made. -/
theorem textTaken_advertisement (σ : State) (d : ℕ) (name : CStr) :
    TextTaken σ (.advertisement d) name := by
  intro kind c n ho
  cases kind <;> cases ho

/-- The names of flags are literals. -/
theorem validTexts_flagNames {table : List ObjectFlag}
    (htable : (table.map ObjectFlag.flagValue).all validUtf8 = true) (flags : UInt32) :
    (DBusValue.array ['s'] (flagNames table flags)).validTexts = true := by
  rw [DBusValue.validTexts, DBusValue.validTextsAll_iff]
  intro v hv
  obtain ⟨flag, hflag, rfl⟩ := List.mem_map.mp hv
  exact List.all_eq_true.mp htable _ (List.mem_map_of_mem (List.mem_of_mem_filter hflag))

section Registered

variable {σ : State} (hpointers : PointersInv σ) (hregistration : RegistrationInv σ)

include hpointers hregistration

/-- The node of a registered child. -/
theorem published_of_registered (kind : Kind) {c : ℕ}
    (hregistered : kind.object c ∈ σ.registeredObjects) :
    ∃ n, (σ.nodes kind)[c]? = some n ∧ (kind.object c ∉ σ.finalised →
      σ.node kind c = .ok n ∧ n.Published σ.strings) := by
  obtain ⟨path, hmem⟩ := mem_registeredObjects.mp hregistered
  obtain ⟨n, id, hn, hattached, -⟩ := hregistration.nodes kind c path hmem
  refine ⟨n, hn, fun hfin => ?_⟩
  have hnode : σ.node kind c = .ok n := State.node_eq_ok.mpr ⟨hfin, hn⟩
  exact ⟨hnode, hpointers.published hnode hattached⟩

theorem serviceProperties_decides {s : ℕ} (hregistered : Obj.service s ∈ σ.registeredObjects) :
    ∀ p ∈ serviceProperties σ (σ.service s), Decides p.get (Readable σ (.service s) p.name)
      (TextTaken σ (.service s) p.name) := by
  obtain ⟨n, hn, hpublished⟩ := published_of_registered hpointers hregistration .service hregistered
  simp only [State.nodes, List.getElem?_map, Option.map_eq_some_iff] at hn
  obtain ⟨x, hx, rfl⟩ := hn
  simp only [serviceProperties, List.forall_mem_cons, List.not_mem_nil, false_imp_iff,
    implies_true, and_true]
  exact ⟨getFromObject_writes hx fun hfin => ⟨appendField_read (hpublished hfin).2.uuid,
      texts_uuid (hpublished hfin).1⟩,
    getFromObject_writes hx fun hfin => ⟨appendField_read (hpublished hfin).2.parentPath,
      texts_parentProperty (hpublished hfin).1⟩,
    getFromObject_writes hx fun hfin => ⟨appendBasic_writes _,
      texts_other (hpublished hfin).1 rfl _ (by decide) (by decide)⟩⟩

theorem descriptorProperties_decides (hvalues : ValuesInv σ) {k : ℕ}
    (hregistered : Obj.descriptor k ∈ σ.registeredObjects) :
    ∀ p ∈ descriptorProperties σ (σ.descriptor k),
      Decides p.get (Readable σ (.descriptor k) p.name) (TextTaken σ (.descriptor k) p.name) := by
  obtain ⟨n, hn, hpublished⟩ :=
    published_of_registered hpointers hregistration .descriptor hregistered
  simp only [State.nodes, List.getElem?_map, Option.map_eq_some_iff] at hn
  obtain ⟨x, hx, rfl⟩ := hn
  have hvalue := hvalues.descriptors x (List.mem_of_getElem? hx)
  simp only [descriptorProperties, List.forall_mem_cons, List.not_mem_nil, false_imp_iff,
    implies_true, and_true]
  exact ⟨getFromObject_writes hx fun hfin => ⟨appendField_read (hpublished hfin).2.uuid,
      texts_uuid (hpublished hfin).1⟩,
    getFromObject_writes hx fun hfin => ⟨appendField_read (hpublished hfin).2.parentPath,
      texts_parentProperty (hpublished hfin).1⟩,
    getFromObject_writes hx fun hfin => ⟨appendFlags_writes _ _, texts_other (hpublished hfin).1
      (validTexts_flagNames (by decide) _) _ (by decide) (by decide)⟩,
    getFromObject_writes hx fun hfin => ⟨descriptorGetValue_writes hvalue,
      texts_other (hpublished hfin).1 (DBusValue.validTexts_byteArray _) _ (by decide) (by decide)⟩⟩

/-- Only the value of a characteristic can be too long. -/
theorem characteristicProperties_decides (hvalues : ValuesInv σ) {c : ℕ}
    (hregistered : Obj.characteristic c ∈ σ.registeredObjects) :
    ∀ p ∈ characteristicProperties σ (σ.characteristic c), Decides p.get
      (Readable σ (.characteristic c) p.name) (TextTaken σ (.characteristic c) p.name) := by
  obtain ⟨n, hn, hpublished⟩ :=
    published_of_registered hpointers hregistration .characteristic hregistered
  simp only [State.nodes, List.getElem?_map, Option.map_eq_some_iff] at hn
  obtain ⟨x, hx, rfl⟩ := hn
  have hok : Obj.characteristic c ∉ σ.finalised → σ.characteristic c = .ok x := fun hfin =>
    State.characteristic_eq_ok.mpr ⟨hfin, hx⟩
  have halive : ∀ {name : CStr}, Readable σ (.characteristic c) name →
      Obj.characteristic c ∉ σ.finalised := by
    rintro name ⟨y, hy, -⟩
    exact (State.characteristic_eq_ok.mp hy).1
  have hrow : ∀ {name : CStr} {get : Characteristic → Iter → Writer → Outcome Writer}
      {v : DBusValue}, name ≠ blePropertyValue →
      (Obj.characteristic c ∉ σ.finalised → Writes (get x) v ∧
        (v.validTexts = true ↔ TextTaken σ (.characteristic c) name)) →
      Decides (getFromObject (σ.characteristic c) get) (Readable σ (.characteristic c) name)
        (TextTaken σ (.characteristic c) name) := fun hname hwrites =>
    getFromObject_decides hx (fun hfin => .of_writes (hwrites hfin).1
      ⟨x, hok hfin, fun heq => absurd heq hname⟩ (hwrites hfin).2) halive
  simp only [characteristicProperties, List.forall_mem_cons, List.not_mem_nil, false_imp_iff,
    implies_true, and_true]
  refine ⟨hrow (by decide) fun hfin => ⟨appendField_read (hpublished hfin).2.uuid,
      texts_uuid (hpublished hfin).1⟩,
    hrow (by decide) fun hfin => ⟨appendField_read (hpublished hfin).2.parentPath,
      texts_parentProperty (hpublished hfin).1⟩,
    hrow (by decide) fun hfin => ⟨appendFlags_writes _ _, texts_other (hpublished hfin).1
      (validTexts_flagNames (by decide) _) _ (by decide) (by decide)⟩,
    getFromObject_decides hx (fun hfin => ?_) halive⟩
  -- the last row is the value
  obtain ⟨hwrites, hfails⟩ := characteristicGetValue_decides hvalues (hok hfin)
  refine ⟨fun hreadable => ⟨_, hwrites ?_, texts_other (hpublished hfin).1
    (DBusValue.validTexts_byteArray _) _ (by decide) (by decide)⟩,
    fun hnot => hfails fun hmax => ?_⟩
  · obtain ⟨y, hy, hmax⟩ := hreadable
    obtain rfl : x = y := by simpa using (hok hfin).symm.trans hy
    exact hmax rfl
  · exact hnot ⟨x, hok hfin, fun _ => hmax⟩

theorem advertisementProperties_decides {d : ℕ}
    (hregistered : Obj.advertisement d ∈ σ.registeredObjects) :
    ∀ p ∈ advertisementProperties σ (Device.advertisement <$> σ.device d), Decides p.get
      (Readable σ (.advertisement d) p.name) (TextTaken σ (.advertisement d) p.name) := by
  obtain ⟨path, hmem⟩ := mem_registeredObjects.mp hregistered
  -- an advertisement that is registered has been set up
  obtain ⟨-, x, hx, hset⟩ := hregistration.adverts d path hmem
  obtain hunset | hnamed := (hpointers.devices d x hx).advertisement
  · exact absurd hunset.objectPath hset
  obtain ⟨id, htype⟩ := hnamed.type
  have hpoints : Obj.device d ∉ σ.finalised →
      σ.strings.PointsTo x.advertisement.type advertisementTypeDefault := fun hfin =>
    hpointers.pointsTo_device (State.device_eq_ok.mpr ⟨hfin, hx⟩)
      (show x.field .advertType = _ from htype)
  have hfield : ∀ get : Advertisement → Iter → Writer → Outcome Writer,
      getFromObject (Device.advertisement <$> σ.device d) get
        = getFromObject (σ.device d) fun x => get x.advertisement := fun get => by
    cases σ.device d <;> rfl
  have hrow : ∀ {name : CStr} {get : Advertisement → Iter → Writer → Outcome Writer}
      {v : DBusValue}, name ≠ blePropertyIncludes → v.validTexts = true →
      (Obj.device d ∉ σ.finalised → Writes (get x.advertisement) v) →
      Decides (getFromObject (Device.advertisement <$> σ.device d) get)
        (Readable σ (.advertisement d) name) (TextTaken σ (.advertisement d) name) := by
    intro name get v hname hvalid hwrites
    rw [hfield]
    exact getFromObject_decides hx (fun hfin => .of_writes (hwrites hfin) (Or.inr hfin)
      (iff_of_true hvalid (textTaken_advertisement σ d name))) fun hread =>
        hread.resolve_left hname
  have hdata : (DBusValue.array "{qv}".toList [.dictEntry (.uint16 x.advertisement.manufacturerId)
      (.variant ['a', 'y'] (.byteArray x.advertisement.manufacturerData))]).validTexts = true := by
    simp only [DBusValue.validTexts, DBusValue.validTextsAll, DBusValue.validTexts_byteArray,
      Bool.and_self]
  have hincludes : Writes advertisementGetIncludes (.array ['a', 's'] []) := WritesAll.nil.array _
  simp only [advertisementProperties, List.forall_mem_cons, List.not_mem_nil, false_imp_iff,
    implies_true, and_true]
  exact ⟨hrow (by decide) (by decide) fun hfin => appendField_writes (hpoints hfin),
    hrow (by decide) hdata fun _ =>
      advertisementGetManufacturerData_writes hnamed.manufacturerData,
    hrow (by decide) rfl fun _ => appendBasic_writes _,
    hrow (by decide) rfl fun _ => appendBasic_writes _,
    .of_writes hincludes (Or.inl rfl) (iff_of_true rfl (textTaken_advertisement σ d _)),
    hrow (by decide) rfl fun _ => appendBasic_writes _,
    hrow (by decide) rfl fun _ => appendBasic_writes _,
    hrow (by decide) rfl fun _ => appendBasic_writes _,
    hrow (by decide) rfl fun _ => appendBasic_writes _⟩

/-- Every row of the table of a registered object writes its value, or fails. -/
theorem objectData_decides (hvalues : ValuesInv σ) {o : Obj} (ho : o ∈ σ.registeredObjects) :
    ∀ p ∈ (objectData σ o).properties,
      Decides p.get (Readable σ o p.name) (TextTaken σ o p.name) := by
  cases o with
  | device d => exact fun p hp => by cases hp
  | advertisement d => exact advertisementProperties_decides hpointers hregistration ho
  | service s => exact serviceProperties_decides hpointers hregistration ho
  | characteristic c => exact characteristicProperties_decides hpointers hregistration hvalues ho
  | descriptor k => exact descriptorProperties_decides hpointers hregistration hvalues ho

end Registered

/-! ## Managed objects -/

/-- The objects in the list of a parent are those a walk along the links meets. -/
theorem ForestInv.listedChild_iff {σ : State} {kind : Kind} {children : ℕ → List ℕ}
    (h : ForestInv σ kind children) {p c : ℕ} : ListedChild σ kind p c ↔ c ∈ children p := by
  have hchain := h.wellFormed.chain p
  constructor
  · intro hlisted
    -- a walk along the links stays in the chain
    induction hlisted with
    | @head c x hx hhead =>
      have hfirst : (σ.forest kind).first p = some c := by simp [State.forest, hx, hhead]
      rw [hfirst] at hchain
      cases hchain' : children p with
      | nil => rw [hchain'] at hchain; cases hchain
      | cons a l => rw [hchain'] at hchain; cases hchain; exact List.mem_cons_self
    | @next c e n _ hn hnext ih =>
      obtain ⟨l₁, l₂, hsplit, htail⟩ := hchain.tail_of_mem ih
      have hlink : (σ.forest kind).next c = some e := by simp [State.forest, State.next, hn, hnext]
      cases htail with
      | cons htail =>
        rw [hlink] at htail
        cases htail with
        | cons _ => rw [hsplit]; simp
  · -- every link of the chain is one step of the walk
    have hwalk : ∀ {first : Option ℕ} {l : List ℕ}, Chain (σ.forest kind).next first l →
        (∀ a, first = some a → ListedChild σ kind p a) → ∀ c ∈ l, ListedChild σ kind p c := by
      intro first l hl
      induction hl with
      | nil => exact fun _ c hc => by cases hc
      | @cons a l _ ih =>
        intro hfirst c hc
        rcases List.mem_cons.mp hc with rfl | hc
        · exact hfirst c rfl
        · refine ih (fun b hb => ?_) c hc
          obtain ⟨n, hn, hnext⟩ := Option.bind_eq_some_iff.mp hb
          exact .next (hfirst a rfl) hn hnext
    refine hwalk hchain (fun a ha => ?_) c
    obtain ⟨x, hx, hhead⟩ := Option.bind_eq_some_iff.mp ha
    exact .head hx hhead

/-- The objects in the tree of a device. -/
inductive Managed (σ : State) (d : ℕ) : Obj → Prop
  | service {s : ℕ} : ListedChild σ .service d s → Managed σ d (.service s)
  | characteristic {s c : ℕ} : ListedChild σ .service d s → ListedChild σ .characteristic s c →
      Managed σ d (.characteristic c)
  | descriptor {s c k : ℕ} : ListedChild σ .service d s → ListedChild σ .characteristic s c →
      ListedChild σ .descriptor c k → Managed σ d (.descriptor k)

/-- The children of every parent on every level. -/
def Forests (σ : State) (children : Kind → ℕ → List ℕ) : Prop :=
  ∀ kind, ForestInv σ kind (children kind)

theorem Forests.of_reachable {σ : State} (h : Reachable σ) : ∃ children, Forests σ children := by
  choose children hchildren using fun kind => ForestInv.of_reachable h kind
  exact ⟨children, hchildren⟩

/-- The objects below a characteristic, in the order of their entries. -/
def descriptorObjects (children : Kind → ℕ → List ℕ) (c : ℕ) : List Obj :=
  (children .descriptor c).map .descriptor

/-- The objects below a service. -/
def characteristicObjects (children : Kind → ℕ → List ℕ) (s : ℕ) : List Obj :=
  (children .characteristic s).flatMap fun c =>
    .characteristic c :: descriptorObjects children c

/-- The objects below a device. -/
def managedObjects (children : Kind → ℕ → List ℕ) (d : ℕ) : List Obj :=
  (children .service d).flatMap fun s => .service s :: characteristicObjects children s

theorem Forests.managed_iff {σ : State} {children : Kind → ℕ → List ℕ} (h : Forests σ children)
    {d : ℕ} {o : Obj} : Managed σ d o ↔ o ∈ managedObjects children d := by
  have hlisted : ∀ {kind : Kind} {p c : ℕ}, ListedChild σ kind p c ↔ c ∈ children kind p :=
    fun {kind} => (h kind).listedChild_iff
  simp only [managedObjects, characteristicObjects, descriptorObjects, List.mem_flatMap,
    List.mem_cons, List.mem_map]
  constructor
  · rintro (hs | ⟨hs, hc⟩ | ⟨hs, hc, hk⟩)
    · exact ⟨_, hlisted.mp hs, Or.inl rfl⟩
    · exact ⟨_, hlisted.mp hs, Or.inr ⟨_, hlisted.mp hc, Or.inl rfl⟩⟩
    · exact ⟨_, hlisted.mp hs, Or.inr ⟨_, hlisted.mp hc, Or.inr ⟨_, hlisted.mp hk, rfl⟩⟩⟩
  · rintro ⟨s, hs, rfl | ⟨c, hc, rfl | ⟨k, hk, rfl⟩⟩⟩
    · exact .service (hlisted.mpr hs)
    · exact .characteristic (hlisted.mpr hs) (hlisted.mpr hc)
    · exact .descriptor (hlisted.mpr hs) (hlisted.mpr hc) (hlisted.mpr hk)

/-! ## The entries -/

def serviceEntry (σ : State) (x : Service) : DBusValue :=
  objectEntry (σ.strings.read x.node.objectPath) bluezGattServiceInterface
    (tableEntries (serviceProperties σ (.ok x)) (serviceValues σ x))

def characteristicEntry (σ : State) (x : Characteristic) : DBusValue :=
  objectEntry (σ.strings.read x.node.objectPath) bluezGattCharacteristicInterface
    (tableEntries (characteristicProperties σ (.ok x)) (characteristicValues σ x))

def descriptorEntry (σ : State) (x : Descriptor) : DBusValue :=
  objectEntry (σ.strings.read x.node.objectPath) bluezGattDescriptorInterface
    (tableEntries (descriptorProperties σ (.ok x)) (descriptorValues σ x))

/-- The entry that tells about an object. -/
def State.entry (σ : State) : Obj → Option DBusValue
  | .service s => (σ.services[s]?).map (serviceEntry σ)
  | .characteristic c => (σ.characteristics[c]?).map (characteristicEntry σ)
  | .descriptor k => (σ.descriptors[k]?).map (descriptorEntry σ)
  | _ => none

/-- The entries that tell about some objects. -/
def State.entries (σ : State) (objects : List Obj) : List DBusValue := objects.filterMap σ.entry

section Entries

variable {σ : State}

/-- A loop over parents, each of which appends the entries of some objects. -/
theorem Serves.objects {get : ℕ → Iter → Writer → Outcome Writer} {objects : ℕ → List Obj}
    {l : List ℕ}
    (h : ∀ a ∈ l, Serves (get a) (∀ o ∈ objects a, Complete σ o) (σ.entries (objects a))) :
    Serves (fun iter w => l.foldlM (fun w a => get a iter w) w)
      (∀ o ∈ l.flatMap objects, Complete σ o) (σ.entries (l.flatMap objects)) := by
  have hserves := Serves.foldlM h
  rwa [State.entries, List.filterMap_flatMap, List.forall_mem_flatMap]

/-- A `while` loop through the list of a parent, of which each turn accesses a child. -/
theorem Serves.loop {kind : Kind} {children : ℕ → List ℕ} (h : ForestInv σ kind children) {p : ℕ}
    {x : Children} (hx : (σ.lists kind)[p]? = some x) {body : Iter → ℕ → Writer →
      Outcome (Option ℕ × Writer)} {get : ℕ → Iter → Writer → Outcome Writer}
    {ready : Prop} {vs : List DBusValue} {fuel : ℕ} (hfuel : (σ.nodes kind).length = fuel)
    (hbody : ∀ iter, ∀ c ∈ children p, ∀ w,
      body iter c w = (fun w => (σ.next kind c, w)) <$> get c iter w)
    (hserves : Serves (fun iter w => (children p).foldlM (fun w c => get c iter w) w) ready vs) :
    Serves (fun iter w => Intrusive.loop .divergence (body iter) fuel x.head w) ready vs := by
  have hchain := h.wellFormed.chain p
  have hfirst : (σ.forest kind).first p = x.head := by simp [State.forest, hx]
  rw [hfirst] at hchain
  intro w iter hiter
  beta_reduce
  rw [loop_eq_foldlM (f := fun w c => get c iter w) hchain (hbody iter)
    (hfuel ▸ h.length_le p)]
  exact hserves w iter hiter

variable (hpointers : PointersInv σ) (hvalues : ValuesInv σ) {children : Kind → ℕ → List ℕ}
  (hforests : Forests σ children)

include hpointers hvalues hforests

theorem descriptorGetObject_serves {c k : ℕ} (hk : k ∈ children .descriptor c) :
    Serves (fun array w => do
        let x ← σ.descriptor k
        descriptorGetObject σ x array w)
      (∀ o ∈ [Obj.descriptor k], Complete σ o) (σ.entries [.descriptor k]) := by
  refine .access (fun x hx => ?_) fun hready => ?_
  · obtain ⟨hfin, hget⟩ := State.descriptor_eq_ok.mp hx
    obtain ⟨n, hn, hattached⟩ := (hforests .descriptor).mem_nodes hk
    obtain rfl : x.node = n := by simpa [State.nodes, hget] using hn
    have hpublished := hpointers.published (State.node_of_descriptor hx) hattached
    have hentry : σ.entries [.descriptor k] = [descriptorEntry σ x] := by
      simp [State.entries, State.entry, hget]
    rw [hentry]
    refine .of_writes (fun _ => ?_) fun hnot => absurd (fun o ho => ?_) hnot
    · exact dbusutilsGetObjectData_read hpublished.objectPath (descriptorProperties_writes
        hpublished (hvalues.descriptors x (List.mem_of_getElem? hget))) _
    · rw [List.mem_singleton.mp ho]
      exact hfin
  · obtain ⟨n, hn, -⟩ := (hforests .descriptor).mem_nodes hk
    simp only [State.nodes, List.getElem?_map, Option.map_eq_some_iff] at hn
    obtain ⟨x, hx, -⟩ := hn
    exact ⟨x, State.descriptor_eq_ok.mpr ⟨hready _ List.mem_cons_self, hx⟩⟩

/-- The innermost loop tells about the descriptors of a characteristic. -/
theorem appendDescriptors_serves {c : ℕ} {x : Characteristic}
    (hx : σ.characteristics[c]? = some x) :
    Serves (fun array w => appendDescriptors σ array x.descriptors.head w)
      (∀ o ∈ descriptorObjects children c, Complete σ o)
      (σ.entries (descriptorObjects children c)) := by
  have hlist : (σ.lists .descriptor)[c]? = some x.descriptors := by simp [State.lists, hx]
  have hserves : Serves _ (∀ o ∈ (children .descriptor c).flatMap fun k => [Obj.descriptor k],
      Complete σ o) _ := Serves.objects fun k hk =>
    descriptorGetObject_serves hpointers hvalues hforests (c := c) hk
  rw [← List.map_eq_flatMap] at hserves
  refine Serves.loop (hforests .descriptor) hlist (by simp [State.nodes])
    (fun array k hk w => ?_) hserves
  cases hy : σ.descriptor k with
  | error e => rfl
  | ok y =>
    have hnext : σ.next .descriptor k = y.node.next := by
      simp [State.next, State.nodes, (State.descriptor_eq_ok.mp hy).2]
    rw [hnext]
    simp only [ok_bind]
    cases descriptorGetObject σ y array w <;> rfl

theorem characteristicGetObject_serves {s c : ℕ} (hc : c ∈ children .characteristic s) :
    Serves (fun array w => do
        let x ← σ.characteristic c
        let w ← characteristicGetObject σ x array w
        appendDescriptors σ array x.descriptors.head w)
      (∀ o ∈ .characteristic c :: descriptorObjects children c, Complete σ o)
      (σ.entries (.characteristic c :: descriptorObjects children c)) := by
  refine .access (fun x hx => ?_) fun hready => ?_
  · obtain ⟨-, hget⟩ := State.characteristic_eq_ok.mp hx
    -- a listed characteristic has been attached, so its paths are strings
    obtain ⟨n, hn, hattached⟩ := (hforests .characteristic).mem_nodes hc
    obtain rfl : x.node = n := by simpa [State.nodes, hget] using hn
    have hpublished := hpointers.published (State.node_of_characteristic hx) hattached
    have hentries : σ.entries (.characteristic c :: descriptorObjects children c)
        = characteristicEntry σ x :: σ.entries (descriptorObjects children c) := by
      simp [State.entries, State.entry, hget]
    rw [hentries, List.forall_mem_cons]
    refine .seq (.of_writes ?_ ?_) (appendDescriptors_serves hpointers hvalues hforests hget)
    · rintro ⟨y, hy, hmax⟩
      obtain rfl : x = y := by simpa using hx.symm.trans hy
      exact dbusutilsGetObjectData_read hpublished.objectPath
        (characteristicProperties_writes hvalues hx hpublished hmax) _
    · intro hnot
      obtain ⟨path, hpath⟩ := hpublished.objectPath
      exact dbusutilsGetObjectData_fails hpath
        (characteristicProperties_fails hvalues hx hpublished fun hmax => hnot ⟨x, hx, hmax⟩)
  · obtain ⟨x, hx, -⟩ := hready _ List.mem_cons_self
    exact ⟨x, hx⟩

/-- The middle loop tells about the characteristics of a service and what is below them. -/
theorem appendCharacteristics_serves {s : ℕ} {x : Service} (hx : σ.services[s]? = some x) :
    Serves (fun array w => appendCharacteristics σ array x.characteristics.head w)
      (∀ o ∈ characteristicObjects children s, Complete σ o)
      (σ.entries (characteristicObjects children s)) := by
  have hlist : (σ.lists .characteristic)[s]? = some x.characteristics := by simp [State.lists, hx]
  have hserves := Serves.objects
    fun c hc => characteristicGetObject_serves hpointers hvalues hforests (s := s) hc
  refine Serves.loop (hforests .characteristic) hlist (by simp [State.nodes])
    (fun array c hc w => ?_) hserves
  cases hy : σ.characteristic c with
  | error e => rfl
  | ok y =>
    have hnext : σ.next .characteristic c = y.node.next := by
      simp [State.next, State.nodes, (State.characteristic_eq_ok.mp hy).2]
    rw [hnext]
    simp only [ok_bind]
    cases characteristicGetObject σ y array w with
    | error e => rfl
    | ok w₁ =>
      simp only [ok_bind]
      cases appendDescriptors σ array y.descriptors.head w₁ <;> rfl

theorem serviceGetObject_serves {d s : ℕ} (hs : s ∈ children .service d) :
    Serves (fun array w => do
        let x ← σ.service s
        let w ← serviceGetObject σ x array w
        appendCharacteristics σ array x.characteristics.head w)
      (∀ o ∈ .service s :: characteristicObjects children s, Complete σ o)
      (σ.entries (.service s :: characteristicObjects children s)) := by
  obtain ⟨n, hn, hattached⟩ := (hforests .service).mem_nodes hs
  simp only [State.nodes, List.getElem?_map, Option.map_eq_some_iff] at hn
  obtain ⟨y, hget, rfl⟩ := hn
  refine .access (fun x hx => ?_) fun hready => ?_
  · obtain ⟨hfin, hget'⟩ := State.service_eq_ok.mp hx
    obtain rfl : y = x := by simpa using hget.symm.trans hget'
    have hpublished := hpointers.published (State.node_of_service hx) hattached
    have hentries : σ.entries (.service s :: characteristicObjects children s)
        = serviceEntry σ y :: σ.entries (characteristicObjects children s) := by
      simp [State.entries, State.entry, hget]
    rw [hentries, List.forall_mem_cons]
    refine .seq (.of_writes (fun _ => ?_) fun hnot => absurd hfin hnot)
      (appendCharacteristics_serves hpointers hvalues hforests hget)
    exact dbusutilsGetObjectData_read hpublished.objectPath
      (serviceProperties_writes hpublished) _
  · exact ⟨y, State.service_eq_ok.mpr ⟨hready _ List.mem_cons_self, hget⟩⟩

/-- The outer loop tells about the services of a device and what is below them. -/
theorem appendServices_serves {d : ℕ} {x : Device} (hx : σ.devices[d]? = some x) :
    Serves (fun array w => appendServices σ array x.services.head w)
      (∀ o ∈ managedObjects children d, Complete σ o)
      (σ.entries (managedObjects children d)) := by
  have hlist : (σ.lists .service)[d]? = some x.services := by simp [State.lists, hx]
  have hserves := Serves.objects
    fun s hs => serviceGetObject_serves hpointers hvalues hforests (d := d) hs
  refine Serves.loop (hforests .service) hlist (by simp [State.nodes])
    (fun array s hs w => ?_) hserves
  cases hy : σ.service s with
  | error e => rfl
  | ok y =>
    have hnext : σ.next .service s = y.node.next := by
      simp [State.next, State.nodes, (State.service_eq_ok.mp hy).2]
    rw [hnext]
    simp only [ok_bind]
    cases serviceGetObject σ y array w with
    | error e => rfl
    | ok w₁ =>
      simp only [ok_bind]
      cases appendCharacteristics σ array y.characteristics.head w₁ <;> rfl

/-- `GetManagedObjects` is answered with the entries of all objects below the device if all of
them can be read, and fails otherwise. -/
theorem deviceGetManagedObjects_serves {d : ℕ} {x : Device} (hx : σ.device d = .ok x)
    (hmemory : σ.bus.outOfMemory = false) (message : Message) :
    ((∀ o ∈ managedObjects children d, Complete σ o) →
      deviceGetManagedObjects d message σ = (fun reply => (some reply, σ)) <$> replyWith
        (.array "{oa{sa{sv}}}".toList (σ.entries (managedObjects children d)))) ∧
    (¬ (∀ o ∈ managedObjects children d, Complete σ o) →
      ∃ e, deviceGetManagedObjects d message σ = .error e) := by
  have hserves := appendServices_serves hpointers hvalues hforests (State.device_eq_ok.mp hx).2
    ((Writer.initAppend []).opened (.array "{oa{sa{sv}}}".toList)) 1 (by simp)
  beta_reduce at hserves
  simp only [deviceGetManagedObjects, hx, ok_bind, dbusMessageNewMethodReturn, hmemory,
    Bool.false_eq_true, ↓reduceIte, Writer.openContainer_eq (Writer.zero_eq_depth _),
    Writer.depth_initAppend, Nat.zero_add]
  refine ⟨fun hready => ?_, fun hnot => ?_⟩
  · rw [hserves.1 hready, Writer.appendAll, replyWith, DBusValue.validTexts]
    split_ifs
    · rw [ok_bind, Writer.closeContainer_array (Writer.zero_eq_depth _) (by simp), ok_bind]
      rfl
    · rfl
  · obtain ⟨e, he⟩ := hserves.2 hnot
    exact ⟨e, by rw [he, error_bind]⟩

end Entries

/-! ## The texts of an entry -/

/-- Whether the library takes the path of an object. -/
def PathTaken (σ : State) (o : Obj) : Prop :=
  ∀ kind c n, o = Kind.object kind c → σ.node kind c = .ok n →
    isObjectPath (σ.strings.read n.objectPath) = true

/-- Whether the library takes the texts and the paths of all objects below a device. -/
def TreeTextsTaken (σ : State) (d : ℕ) : Prop :=
  ∀ o, Managed σ d o → TextsTaken σ o ∧ PathTaken σ o

/-- Whether an object below a device can be told about in an entry of its own. -/
def Describable (σ : State) (o : Obj) : Prop := Presentable σ o ∧ PathTaken σ o

theorem pathTaken_iff {σ : State} {kind : Kind} {c : ℕ} {n : Node} (hn : σ.node kind c = .ok n) :
    PathTaken σ (kind.object c) ↔ isObjectPath (σ.strings.read n.objectPath) = true := by
  constructor
  · exact fun h => h kind c n rfl hn
  · intro h kind' c' n' heq hn'
    obtain ⟨rfl, rfl⟩ := Kind.object_injective heq
    obtain rfl : n = n' := by simpa using hn.symm.trans hn'
    exact h

section Texts

variable {σ : State}

theorem serviceValues_texts {s : ℕ} {x : Service} (hx : σ.service s = .ok x) :
    List.Forall₂ (fun p v => DBusValue.validTexts v = true ↔ TextTaken σ (.service s) p.name)
      (serviceProperties σ (.ok x)) (serviceValues σ x) := by
  have hn := State.node_of_service hx
  exact .cons (texts_uuid hn) (.cons (texts_parentProperty hn)
    (.cons (texts_other hn rfl blePropertyPrimary (by decide) (by decide)) .nil))

theorem characteristicValues_texts {c : ℕ} {x : Characteristic} (hx : σ.characteristic c = .ok x) :
    List.Forall₂ (fun p v => DBusValue.validTexts v = true ↔
        TextTaken σ (.characteristic c) p.name)
      (characteristicProperties σ (.ok x)) (characteristicValues σ x) := by
  have hn := State.node_of_characteristic hx
  exact .cons (texts_uuid hn) (.cons (texts_parentProperty hn)
    (.cons (texts_other hn (validTexts_flagNames (by decide) _) blePropertyFlags
        (by decide) (by decide))
      (.cons (texts_other hn (DBusValue.validTexts_byteArray _) blePropertyValue
        (by decide) (by decide)) .nil)))

theorem descriptorValues_texts {k : ℕ} {x : Descriptor} (hx : σ.descriptor k = .ok x) :
    List.Forall₂ (fun p v => DBusValue.validTexts v = true ↔ TextTaken σ (.descriptor k) p.name)
      (descriptorProperties σ (.ok x)) (descriptorValues σ x) := by
  have hn := State.node_of_descriptor hx
  exact .cons (texts_uuid hn) (.cons (texts_parentProperty hn)
    (.cons (texts_other hn (validTexts_flagNames (by decide) _) blePropertyFlags
        (by decide) (by decide))
      (.cons (texts_other hn (DBusValue.validTexts_byteArray _) blePropertyValue
        (by decide) (by decide)) .nil)))

/-- The library takes a dump of the table of an object if it takes the texts of the object. -/
theorem validTexts_dump {o : Obj} {table : List Property} {values : List DBusValue}
    (htable : (objectData σ o).properties = table)
    (h : List.Forall₂ (fun p v => DBusValue.validTexts v = true ↔ TextTaken σ o p.name)
      table values) :
    DBusValue.validTextsAll (tableEntries table values) = true ↔ TextsTaken σ o := by
  subst htable
  rw [validTextsAll_tableEntries (validUtf8_names σ o) h, forall_textTaken_iff]

/-- It takes an entry if it also takes the path. -/
theorem validTexts_objectEntry {kind : Kind} {c : ℕ} {n : Node} (hn : σ.node kind c = .ok n)
    {table : List Property} {values : List DBusValue} {interface : CStr}
    (hinterface : validUtf8 interface = true)
    (hdump : DBusValue.validTextsAll (tableEntries table values) = true ↔
      TextsTaken σ (kind.object c)) :
    (objectEntry (σ.strings.read n.objectPath) interface (tableEntries table values)).validTexts
        = true ↔ TextsTaken σ (kind.object c) ∧ PathTaken σ (kind.object c) := by
  simp only [objectEntry, DBusValue.validTexts, DBusValue.validTextsAll, hinterface, Bool.true_and,
    Bool.and_true, Bool.and_eq_true, hdump, pathTaken_iff hn]
  exact and_comm

/-- The library takes the entry of an object that can be read if it takes its texts and its path. -/
theorem validTexts_entry {o : Obj} (hready : Complete σ o) {v : DBusValue}
    (hentry : σ.entry o = some v) : v.validTexts = true ↔ TextsTaken σ o ∧ PathTaken σ o := by
  cases o with
  | device d => cases hentry
  | advertisement d => cases hentry
  | service s =>
    obtain ⟨x, hget, rfl⟩ := Option.map_eq_some_iff.mp hentry
    have hx : σ.service s = .ok x := State.service_eq_ok.mpr ⟨hready, hget⟩
    exact validTexts_objectEntry (State.node_of_service hx) (by decide) (validTexts_dump
      (by simp [objectData, Kind.object, hx]) (serviceValues_texts hx))
  | characteristic c =>
    obtain ⟨x, hget, rfl⟩ := Option.map_eq_some_iff.mp hentry
    obtain ⟨y, hy, -⟩ := hready
    obtain rfl : x = y := Option.some.inj (hget.symm.trans (State.characteristic_eq_ok.mp hy).2)
    exact validTexts_objectEntry (State.node_of_characteristic hy) (by decide) (validTexts_dump
      (by simp [objectData, Kind.object, hy]) (characteristicValues_texts hy))
  | descriptor k =>
    obtain ⟨x, hget, rfl⟩ := Option.map_eq_some_iff.mp hentry
    have hx : σ.descriptor k = .ok x := State.descriptor_eq_ok.mpr ⟨hready, hget⟩
    exact validTexts_objectEntry (State.node_of_descriptor hx) (by decide) (validTexts_dump
      (by simp [objectData, Kind.object, hx]) (descriptorValues_texts hx))

/-- What is not in a table tells no text. -/
theorem texts_of_entry_none {o : Obj} (hentry : σ.entry o = none) :
    TextsTaken σ o ∧ PathTaken σ o := by
  have hnone : ∀ kind c n, o = Kind.object kind c → σ.node kind c ≠ .ok n := by
    rintro kind c n rfl hn
    have hget := (State.node_eq_ok.mp hn).2
    cases kind <;> simp_all [State.nodes, Kind.object, State.entry]
  exact ⟨fun kind c n ho hn => absurd hn (hnone kind c n ho),
    fun kind c n ho hn => absurd hn (hnone kind c n ho)⟩

/-- The library takes the entries of objects that can be read if it takes all their texts. -/
theorem validTexts_entries {objects : List Obj} (hready : ∀ o ∈ objects, Complete σ o) :
    DBusValue.validTextsAll (σ.entries objects) = true ↔ ∀ o ∈ objects, Describable σ o := by
  rw [DBusValue.validTextsAll_iff]
  constructor
  · intro h o ho
    have htexts : TextsTaken σ o ∧ PathTaken σ o := by
      cases hentry : σ.entry o with
      | none => exact texts_of_entry_none hentry
      | some v =>
        exact (validTexts_entry (hready o ho) hentry).mp
          (h v (List.mem_filterMap.mpr ⟨o, ho, hentry⟩))
    exact ⟨⟨hready o ho, htexts.1⟩, htexts.2⟩
  · intro h v hv
    obtain ⟨o, ho, hentry⟩ := List.mem_filterMap.mp hv
    obtain ⟨⟨-, htexts⟩, hpath⟩ := h o ho
    exact (validTexts_entry (hready o ho) hentry).mpr ⟨htexts, hpath⟩

end Texts

/-- `GetManagedObjects` is answered if every object below the device can be told about in an entry,
and fails otherwise. -/
theorem deviceGetManagedObjects_decides {σ : State} (hpointers : PointersInv σ)
    (hvalues : ValuesInv σ) {children : Kind → ℕ → List ℕ} (hforests : Forests σ children) {d : ℕ}
    {x : Device} (hx : σ.device d = .ok x) (hmemory : σ.bus.outOfMemory = false)
    (message : Message) :
    ((∀ o ∈ managedObjects children d, Describable σ o) ∧
      deviceGetManagedObjects d message σ = .ok (some (methodReturn
        [.array "{oa{sa{sv}}}".toList (σ.entries (managedObjects children d))]), σ)) ∨
    (¬ (∀ o ∈ managedObjects children d, Describable σ o) ∧
      ∃ e, deviceGetManagedObjects d message σ = .error e) := by
  obtain ⟨hserves, hfails⟩ :=
    deviceGetManagedObjects_serves hpointers hvalues hforests hx hmemory message
  by_cases hready : ∀ o ∈ managedObjects children d, Complete σ o
  · have hrun := hserves hready
    unfold replyWith at hrun
    split_ifs at hrun with hvalid
    · exact Or.inl ⟨(validTexts_entries hready).mp hvalid, hrun⟩
    · exact Or.inr ⟨fun h => hvalid ((validTexts_entries hready).mpr h), _, hrun⟩
  · exact Or.inr ⟨fun h => hready fun o ho => (h o ho).1.1, hfails hready⟩

end BleSim
