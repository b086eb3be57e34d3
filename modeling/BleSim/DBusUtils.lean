import BleSim.Objects
import BleSim.Lib.Decimal

/-!
# The D-Bus helpers of `dbusutils.c`

Object paths, path registration, and the functions that write property tables into messages.
A property table is a list of rows; its getters are already applied to the object, so a row
holds just what is left to do with an iterator.
-/

namespace BleSim

open Outcomes WriteOnce Decimal

/-! ## Object paths -/

/-- The string `"%s/%s%u"`. -/
def objectPathString (prevPath objectName : CStr) (objectId : UInt32) : CStr :=
  prevPath ++ '/' :: objectName ++ decimal objectId.toNat

/-- `dbusutils_create_object_path`. The allocation is not checked and taken to succeed. -/
def dbusutilsCreateObjectPath (strings : Heap CStr) (prevPath objectName : CStr)
    (objectId : UInt32) : Ptr CStr × Heap CStr :=
  strings.alloc (objectPathString prevPath objectName objectId)

/-- How the library answers path registrations: whether it accepts a path, given the paths
that are registered. -/
abbrev Accepts := List CStr → CStr → Bool

/-- `dbusutils_register_object`: the tables of `object_data_t` are those of the object's kind. -/
def dbusutilsRegisterObject (bus : Connection) (objectPath : CStr) (object : Obj)
    (accepts : Accepts) : Bool × Connection :=
  if accepts bus.paths objectPath then
    (true, { bus with registered := bus.registered ++ [(objectPath, object)] })
  else (false, bus)

/-! ## Writing strings and property tables -/

/-- A row of a property table, `dbus_property_t`, with its getter applied to the object. -/
structure Property where
  name : CStr
  signature : Signature
  get : Iter → Writer → Outcome Writer

/-- A getter on what an object pointer denotes: the pointer is followed when the getter runs. -/
def getFromObject {α : Type} (object : Outcome α) (get : α → Iter → Writer → Outcome Writer)
    (iter : Iter) (w : Writer) : Outcome Writer := do
  let x ← object
  get x iter w

@[simp] theorem getFromObject_ok {α : Type} (x : α) (get : α → Iter → Writer → Outcome Writer) :
    getFromObject (.ok x) get = get x := rfl

/-- `dbusutils_iter_append_string` on a string literal. -/
def dbusutilsIterAppendString (iter : Iter) (string : CStr) (w : Writer) : Outcome Writer :=
  w.appendBasic iter (.string string)

/-- What the library reads of a `char *` it is handed: it does not take NULL, and the string has to
be there. -/
def libraryString (strings : Heap CStr) (field : Ptr CStr) : Outcome CStr :=
  match field with
  | .null => .error .precondition
  | .indeterminate => .error .noObject
  | .block id text => if id ∈ strings.live then .ok text else .error .noObject

/-- What the library reads of the path a message is to be created with: it has to be a path. -/
def libraryPath (strings : Heap CStr) (field : Ptr CStr) : Outcome CStr := do
  let path ← libraryString strings field
  if isObjectPath path then .ok path else .error .invalidText

/-- `dbus_message_iter_append_basic` on a `char *` field. -/
def appendField (strings : Heap CStr) (mk : CStr → DBusValue) (field : Ptr CStr) (iter : Iter)
    (w : Writer) : Outcome Writer := do
  let text ← libraryString strings field
  w.appendBasic iter (mk text)

/-- `append_fixed_array_variant`, for bytes. -/
def appendFixedArrayVariant (data : Bytes) (elements : ℤ) (iter : Iter) (w : Writer) :
    Outcome Writer := do
  let (variant, w) ← w.openContainer iter (.variant ['a', 'y'])
  let (array, w) ← w.openContainer variant (.array ['y'])
  let w ← w.appendFixedArray array data elements
  let w ← w.closeContainer variant array
  w.closeContainer iter variant

/-- `dbusutils_iter_append_dict_entry_fixed_array`, for bytes. -/
def dbusutilsIterAppendDictEntryFixedArray (key : DBusValue) (data : Bytes) (elements : ℤ)
    (iter : Iter) (w : Writer) : Outcome Writer := do
  let (entry, w) ← w.openContainer iter .dictEntry
  let w ← w.appendBasic entry key
  let w ← appendFixedArrayVariant data elements entry w
  w.closeContainer iter entry

/-- One turn of the loop in `dbusutils_get_object_property_data`. -/
def appendProperty (property : Property) (array : Iter) (w : Writer) : Outcome Writer := do
  let (entry, w) ← w.openContainer array .dictEntry
  let w ← dbusutilsIterAppendString entry property.name w
  let (variantContainer, w) ← w.openContainer entry (.variant property.signature)
  let w ← property.get variantContainer w
  let w ← w.closeContainer entry variantContainer
  w.closeContainer array entry

/-- `dbusutils_get_object_property_data`. -/
def dbusutilsGetObjectPropertyData (propertiesTable : List Property) (iter : Iter) (w : Writer) :
    Outcome Writer := do
  let (array, w) ← w.openContainer iter (.array "{sv}".toList)
  let w ← propertiesTable.foldlM (fun w property => appendProperty property array w) w
  w.closeContainer iter array

/-- `dbusutils_get_object_data`. -/
def dbusutilsGetObjectData (strings : Heap CStr) (propertiesTable : List Property)
    (objectPath : Ptr CStr) (interface : CStr) (iter : Iter) (w : Writer) : Outcome Writer := do
  let (entry, w) ← w.openContainer iter .dictEntry
  let w ← appendField strings .objectPath objectPath entry w
  let (array, w) ← w.openContainer entry (.array "{sa{sv}}".toList)
  let (interfaceEntry, w) ← w.openContainer array .dictEntry
  let w ← w.appendBasic interfaceEntry (.string interface)
  let w ← dbusutilsGetObjectPropertyData propertiesTable interfaceEntry w
  let w ← w.closeContainer array interfaceEntry
  let w ← w.closeContainer entry array
  w.closeContainer iter entry

/-! ## Messages -/

/-- `dbus_message_new_method_return`. -/
def dbusMessageNewMethodReturn (bus : Connection) (_message : Message) : Option Message :=
  if bus.outOfMemory then none else some ⟨.methodReturn, none, none, none, []⟩

/-- `dbus_connection_send`. -/
def dbusConnectionSend (bus : Connection) (message : Message) : Connection :=
  { bus with sent := bus.sent ++ [message] }

/-- `dbusutils_send_object_properties_changed_signal`: the path is read before anything is
allocated. -/
def dbusutilsSendObjectPropertiesChangedSignal (strings : Heap CStr) (path : Ptr CStr)
    (iface : CStr) (changedProperties : List Property) (bus : Connection) :
    Outcome Connection := do
  let path ← libraryPath strings path
  if bus.outOfMemory then .ok bus
  else
    let w := Writer.initAppend []
    let w ← dbusutilsIterAppendString 0 iface w
    let w ← dbusutilsGetObjectPropertyData changedProperties 0 w
    let (array, w) ← w.openContainer 0 (.array ['s'])
    let w ← w.closeContainer 0 array
    .ok (dbusConnectionSend bus
      ⟨.signal, some path, some dbusInterfaceProperties, some dbusSignalPropertiesChanged,
        w.body⟩)

/-- `append_variant`. -/
def appendVariant (type : Signature) (value : DBusValue) (iter : Iter) (w : Writer) :
    Outcome Writer := do
  let (variant, w) ← w.openContainer iter (.variant type)
  let w ← w.appendBasic variant value
  w.closeContainer iter variant

/-- What a request to set a property meets: whether its message can be created, and whether it is
answered without an error. -/
structure PropertyEnv where
  message : Bool
  answered : Bool

/-- `dbusutils_set_property_basic`: the result says whether there is a reply. -/
def dbusutilsSetPropertyBasic (strings : Heap CStr) (path : Ptr CStr) (iface property : CStr)
    (dataType : Signature) (data : DBusValue) (env : PropertyEnv) (bus : Connection) :
    Outcome (Bool × Connection) := do
  let path ← libraryPath strings path
  if !env.message then .ok (false, bus)
  else
    let w := Writer.initAppend []
    let w ← w.appendBasic 0 (.string iface)
    let w ← w.appendBasic 0 (.string property)
    let w ← appendVariant dataType data 0 w
    .ok (env.answered, dbusConnectionSend bus
      ⟨.methodCall, some path, some dbusInterfaceProperties, some dbusMethodSet, w.body⟩)

/-! ## What the table functions write -/

/-- The entry a property contributes to a dump of its table. -/
def propertyEntry (name : CStr) (sig : Signature) (v : DBusValue) : DBusValue :=
  .dictEntry (.string name) (.variant sig v)

/-- The entry an object contributes to `GetManagedObjects`. -/
def objectEntry (path interface : CStr) (properties : List DBusValue) : DBusValue :=
  .dictEntry (.objectPath path)
    (.array "{sa{sv}}".toList
      [.dictEntry (.string interface) (.array "{sv}".toList properties)])

/-- The rows of a table paired with the values their getters write. -/
abbrev WritesTable (table : List Property) (values : List DBusValue) : Prop :=
  List.Forall₂ (fun p v => Writes p.get v) table values

/-- The entries of a table whose getters write the given values. -/
def tableEntries (table : List Property) (values : List DBusValue) : List DBusValue :=
  List.zipWith (fun p v => propertyEntry p.name p.signature v) table values

/-- Where a text is read. -/
theorem libraryString_eq_ok {strings : Heap CStr} {field : Ptr CStr} {text : CStr} :
    libraryString strings field = .ok text ↔ strings.PointsTo field text := by
  unfold libraryString Heap.PointsTo
  cases field with
  | null => simp
  | indeterminate => simp
  | block id a => by_cases hlive : id ∈ strings.live <;> simp [hlive]

/-- Where a path is read. -/
theorem libraryPath_eq_ok {strings : Heap CStr} {field : Ptr CStr} {path : CStr} :
    libraryPath strings field = .ok path ↔
      strings.PointsTo field path ∧ isObjectPath path = true := by
  unfold libraryPath
  rw [bind_eq_ok]
  constructor
  · rintro ⟨text, htext, hpath⟩
    split_ifs at hpath with hvalid
    cases hpath
    exact ⟨libraryString_eq_ok.mp htext, hvalid⟩
  · rintro ⟨hpoints, hvalid⟩
    exact ⟨path, libraryString_eq_ok.mpr hpoints, if_pos hvalid⟩

/-- A row is written as one entry. -/
theorem appendProperty_eq (p : Property) : appendProperty p =
    inContainer .dictEntry fun entry w =>
      w.appendBasic entry (.string p.name) >>= inContainer (.variant p.signature) p.get entry := by
  funext iter w
  simp only [appendProperty, dbusutilsIterAppendString, inContainer, bind_assoc]

theorem appendProperty_writes {p : Property} {v : DBusValue} (hget : Writes p.get v) :
    Writes (appendProperty p) (propertyEntry p.name p.signature v) := by
  rw [appendProperty_eq]
  exact ((appendBasic_writes _).all.seq (hget.variant _).all).dictEntry

theorem appendProperty_fails {p : Property} (hget : Fails p.get) : Fails (appendProperty p) := by
  rw [appendProperty_eq]
  exact (Fails.seq (appendBasic_writes _).all (hget.container _)).container _

/-- The rows of a table are written as its entries. -/
theorem WritesTable.entries {table : List Property} {values : List DBusValue}
    (h : WritesTable table values) :
    List.Forall₂ (fun p v => Writes (appendProperty p) v) table (tableEntries table values) := by
  induction h with
  | nil => exact .nil
  | cons hget _ ih => exact .cons (appendProperty_writes hget) ih

/-- A table whose getters write `values` is dumped as the array of its entries. -/
theorem dbusutilsGetObjectPropertyData_writes {table : List Property} {values : List DBusValue}
    (h : WritesTable table values) :
    Writes (dbusutilsGetObjectPropertyData table)
      (.array "{sv}".toList (tableEntries table values)) :=
  (WritesAll.foldlM h.entries).array _

/-- A table with a getter that fails is not dumped. -/
theorem dbusutilsGetObjectPropertyData_fails {before : List Property} {values : List DBusValue}
    (h : WritesTable before values) (p : Property) (after : List Property) (hget : Fails p.get) :
    Fails (dbusutilsGetObjectPropertyData (before ++ p :: after)) := by
  -- the entry of the property is where the loop stops
  have hrest : Fails fun iter w =>
      (p :: after).foldlM (fun w q => appendProperty q iter w) w := by
    intro w iter hiter
    beta_reduce
    obtain ⟨e, he⟩ := appendProperty_fails hget w iter hiter
    exact ⟨e, by rw [List.foldlM_cons, he, error_bind]⟩
  have hloop : Fails fun iter w =>
      (before ++ p :: after).foldlM (fun w q => appendProperty q iter w) w := by
    intro w iter hiter
    beta_reduce
    rw [List.foldlM_append]
    exact Fails.seq (WritesAll.foldlM h.entries) hrest w iter hiter
  exact hloop.container _

theorem appendField_writes {strings : Heap CStr} {mk : CStr → DBusValue} {field : Ptr CStr}
    {text : CStr} (hfield : strings.PointsTo field text) :
    Writes (appendField strings mk field) (mk text) := by
  intro w iter hiter
  rw [appendField, libraryString_eq_ok.mpr hfield, ok_bind, Writer.appendBasic_eq hiter]

/-- Bytes that fit into an array are written as the value of an entry. -/
theorem dbusutilsIterAppendDictEntryFixedArray_writes (key : DBusValue) {data : Bytes}
    (hmax : data.length ≤ dbusMaximumArrayLength) :
    Writes (dbusutilsIterAppendDictEntryFixedArray key data data.length)
      (.dictEntry key (.variant ['a', 'y'] (.byteArray data))) := by
  have hform : dbusutilsIterAppendDictEntryFixedArray key data data.length =
      inContainer .dictEntry fun entry w => w.appendBasic entry key >>=
        inContainer (.variant ['a', 'y']) (inContainer (.array ['y']) fun array w =>
          w.appendFixedArray array data data.length) entry := by
    funext iter w
    simp only [dbusutilsIterAppendDictEntryFixedArray, appendFixedArrayVariant, inContainer,
      bind_assoc]
  have happend := appendFixedArray_writes hmax (Nat.le_refl data.length)
  rw [List.take_length] at happend
  rw [hform]
  exact ((appendBasic_writes key).all.seq ((happend.array _).variant _).all).dictEntry

/-- An object is written as one entry. -/
theorem dbusutilsGetObjectData_eq (strings : Heap CStr) (table : List Property)
    (objectPath : Ptr CStr) (interface : CStr) :
    dbusutilsGetObjectData strings table objectPath interface =
      inContainer .dictEntry fun entry w =>
        appendField strings .objectPath objectPath entry w >>=
          inContainer (.array "{sa{sv}}".toList) (inContainer .dictEntry fun interfaceEntry w =>
            w.appendBasic interfaceEntry (.string interface) >>=
              dbusutilsGetObjectPropertyData table interfaceEntry) entry := by
  funext iter w
  simp only [dbusutilsGetObjectData, inContainer, bind_assoc]

/-- An object with a path and a table whose getters write `values` is written as one entry. -/
theorem dbusutilsGetObjectData_writes {strings : Heap CStr} {table : List Property}
    {values : List DBusValue} {objectPath : Ptr CStr} {path interface : CStr}
    (hpath : strings.PointsTo objectPath path) (h : WritesTable table values) :
    Writes (dbusutilsGetObjectData strings table objectPath interface)
      (objectEntry path interface (tableEntries table values)) := by
  have hinterface :=
    ((appendBasic_writes (.string interface)).all.seq
      (dbusutilsGetObjectPropertyData_writes h).all).dictEntry
  rw [dbusutilsGetObjectData_eq]
  exact ((appendField_writes hpath).all.seq (hinterface.all.array _).all).dictEntry

/-- An object with a path and a table that cannot be dumped is not written. -/
theorem dbusutilsGetObjectData_fails {strings : Heap CStr} {table : List Property}
    {objectPath : Ptr CStr} {path interface : CStr} (hpath : strings.PointsTo objectPath path)
    (h : Fails (dbusutilsGetObjectPropertyData table)) :
    Fails (dbusutilsGetObjectData strings table objectPath interface) := by
  have hinterface := (Fails.seq (appendBasic_writes (.string interface)).all h).container .dictEntry
  rw [dbusutilsGetObjectData_eq]
  exact (Fails.seq (appendField_writes hpath).all (hinterface.container _)).container _

/-- The signal that tells the values of changed properties. -/
def propertiesChangedMessage (path iface : CStr) (properties : List DBusValue) : Message :=
  ⟨.signal, some path, some dbusInterfaceProperties, some dbusSignalPropertiesChanged,
    [.string iface, .array "{sv}".toList properties, .array ['s'] []]⟩

section Signal

variable {strings : Heap CStr} {field : Ptr CStr} {path : CStr} {bus : Connection}
  (hpath : libraryPath strings field = .ok path)
include hpath

/-- Without memory no signal is created. -/
theorem dbusutilsSendObjectPropertiesChangedSignal_outOfMemory (iface : CStr)
    (hmemory : bus.outOfMemory = true) (table : List Property) :
    dbusutilsSendObjectPropertiesChangedSignal strings field iface table bus = .ok bus := by
  rw [dbusutilsSendObjectPropertiesChangedSignal, hpath, ok_bind, if_pos hmemory]

variable {iface : CStr} (hiface : validUtf8 iface = true) (hmemory : bus.outOfMemory = false)
include hiface hmemory

theorem dbusutilsSendObjectPropertiesChangedSignal_eq {table : List Property}
    {values : List DBusValue} (h : WritesTable table values)
    (hvalid : DBusValue.validTextsAll (tableEntries table values) = true) :
    dbusutilsSendObjectPropertiesChangedSignal strings field iface table bus
      = .ok (dbusConnectionSend bus
          (propertiesChangedMessage path iface (tableEntries table values))) := by
  simp only [dbusutilsSendObjectPropertiesChangedSignal, hpath, ok_bind, hmemory, ↓reduceIte,
    dbusutilsIterAppendString, Bool.false_eq_true]
  rw [Writer.appendBasic_string (Writer.zero_eq_depth _) hiface, ok_bind, Writer.push_initAppend,
    (dbusutilsGetObjectPropertyData_writes h).ok hvalid (Writer.zero_eq_depth _), ok_bind,
    Writer.push_initAppend, Writer.openContainer_eq (Writer.zero_eq_depth _), ok_bind,
    Writer.closeContainer_array_nil (Writer.zero_eq_depth _) rfl]
  rfl

theorem dbusutilsSendObjectPropertiesChangedSignal_fails {table : List Property}
    (h : Fails (dbusutilsGetObjectPropertyData table)) :
    ∃ e, dbusutilsSendObjectPropertiesChangedSignal strings field iface table bus = .error e := by
  simp only [dbusutilsSendObjectPropertiesChangedSignal, hpath, ok_bind, hmemory, ↓reduceIte,
    dbusutilsIterAppendString, Bool.false_eq_true]
  rw [Writer.appendBasic_string (Writer.zero_eq_depth _) hiface, ok_bind, Writer.push_initAppend]
  obtain ⟨e, he⟩ := h _ _ (Writer.zero_eq_depth _)
  exact ⟨e, by rw [he, error_bind]⟩

end Signal

/-- A signal whose path cannot be read is not created. -/
theorem dbusutilsSendObjectPropertiesChangedSignal_noPath {strings : Heap CStr} {field : Ptr CStr}
    (hpath : ∀ path, libraryPath strings field ≠ .ok path) (iface : CStr) (table : List Property)
    (bus : Connection) : ∃ e,
    dbusutilsSendObjectPropertiesChangedSignal strings field iface table bus = .error e := by
  unfold dbusutilsSendObjectPropertiesChangedSignal
  cases hread : libraryPath strings field with
  | error e => exact ⟨e, rfl⟩
  | ok path => exact absurd hread (hpath path)

end BleSim
