import BleSim.Texts
import BleSim.Lib.Outcome
import Mathlib.Data.Int.Notation
import Mathlib.Tactic.SplitIfs

/-!
# The D-Bus library, as far as the simulator uses it

Messages, the values in their bodies, and the iterators that write and read them. A `Writer`
is a message body under construction: the values written so far at its top level and the
containers opened and not yet closed. An iterator handle (`Iter`) is the nesting depth it
was opened at, so a call on any iterator but the innermost open one breaks the library's
contract and faults.

Signatures are the strings the library uses. The library does not compare what is written
into a container with the signature the container was opened with, so neither does `Writer`. It
does read the texts that are written: what is no UTF-8, or no object path, breaks its contract.
-/

namespace BleSim

open Outcomes

/-- A D-Bus signature string. -/
abbrev Signature := List Char

/-- The types of fixed size that the simulator does not write itself. -/
inductive FixedType where
  | int16 | int32 | int64 | uint64 | double
deriving DecidableEq

def FixedType.code : FixedType → Char
  | int16 => 'n'
  | int32 => 'i'
  | int64 => 'x'
  | uint64 => 't'
  | double => 'd'

/-- The basic types of which only the presence matters: signatures and file descriptors. -/
inductive OtherBasicType where
  | signature | unixFd
deriving DecidableEq

def OtherBasicType.code : OtherBasicType → Char
  | signature => 'g'
  | unixFd => 'h'

/-- A D-Bus value. Values of the fixed-size types the simulator never writes itself are kept
as their storage, and of struct arguments only the signature is kept: no handler reads them. -/
inductive DBusValue where
  | byte (b : UInt8)
  | boolean (b : Bool)
  | uint16 (n : UInt16)
  | uint32 (n : UInt32)
  | fixed (type : FixedType) (storage : Bytes)
  | string (s : CStr)
  | objectPath (s : CStr)
  | otherBasic (type : OtherBasicType)
  | array (elem : Signature) (items : List DBusValue)
  | variant (sig : Signature) (value : DBusValue)
  | dictEntry (key value : DBusValue)
  | struct (fields : Signature)

namespace DBusValue

/-- The signature of a value. -/
def signature : DBusValue → Signature
  | byte _ => ['y']
  | boolean _ => ['b']
  | uint16 _ => ['q']
  | uint32 _ => ['u']
  | fixed type _ => [type.code]
  | string _ => ['s']
  | objectPath _ => ['o']
  | otherBasic type => [type.code]
  | array elem _ => 'a' :: elem
  | variant _ _ => ['v']
  | dictEntry key value => '{' :: key.signature ++ value.signature ++ ['}']
  | struct fields => '(' :: fields ++ [')']

/-- The `n` low bytes of a number, least significant first. -/
def leBytes : ℕ → ℕ → Bytes
  | 0, _ => []
  | n + 1, v => UInt8.ofNat v :: leBytes n (v / 256)

@[simp] theorem length_leBytes (n v : ℕ) : (leBytes n v).length = n := by
  induction n generalizing v with
  | zero => rfl
  | succ n ih => simp [leBytes, ih]

/-- How a value of a fixed-size type is stored in an array. -/
def storage : DBusValue → Bytes
  | byte b => [b]
  | boolean b => leBytes 4 b.toNat
  | uint16 n => leBytes 2 n.toNat
  | uint32 n => leBytes 4 n.toNat
  | fixed _ storage => storage
  | _ => []

/-- An array of bytes. -/
def byteArray (bytes : Bytes) : DBusValue := .array ['y'] (bytes.map .byte)

mutual

/-- Whether the library takes every text in a value: its strings are UTF-8, and its object paths
are paths. -/
def validTexts : DBusValue → Bool
  | string s => validUtf8 s
  | objectPath s => isObjectPath s
  | array _ items => validTextsAll items
  | variant _ value => value.validTexts
  | dictEntry key value => key.validTexts && value.validTexts
  | byte _ | boolean _ | uint16 _ | uint32 _ | fixed _ _ | otherBasic _ | struct _ => true

/-- Whether it takes every text in some values. -/
def validTextsAll : List DBusValue → Bool
  | [] => true
  | v :: vs => v.validTexts && validTextsAll vs

end

theorem validTextsAll_iff {vs : List DBusValue} :
    validTextsAll vs = true ↔ ∀ v ∈ vs, v.validTexts = true := by
  induction vs with
  | nil => simp [validTextsAll]
  | cons v vs ih => simp [validTextsAll, ih]

@[simp] theorem validTextsAll_append (vs ws : List DBusValue) :
    validTextsAll (vs ++ ws) = (validTextsAll vs && validTextsAll ws) := by
  induction vs with
  | nil => simp [validTextsAll]
  | cons v vs ih => simp [validTextsAll, ih, Bool.and_assoc]

/-- Bytes hold no text. -/
@[simp] theorem validTexts_byteArray (bytes : Bytes) : (byteArray bytes).validTexts = true := by
  rw [byteArray, validTexts, validTextsAll_iff]
  intro v hv
  obtain ⟨b, -, rfl⟩ := List.mem_map.mp hv
  rfl

end DBusValue

/-- Whether a signature is that of a type of fixed size. -/
def isFixedSignature (sig : Signature) : Bool :=
  match sig with
  | [c] => "ybnqiuxtd".toList.contains c
  | _ => false

/-! ## Messages -/

inductive MessageType where
  | methodCall
  | methodReturn
  | error
  | signal
deriving DecidableEq, Repr

/-- A message: the header fields the simulator reads or sets, and the body. -/
structure Message where
  type : MessageType
  path : Option CStr
  interface : Option CStr
  member : Option CStr
  body : List DBusValue

/-- `dbus_message_get_signature`. -/
def Message.signature (m : Message) : Signature := m.body.flatMap DBusValue.signature

/-- `dbus_message_is_method_call`: an absent interface field matches every interface. -/
def Message.isMethodCall (m : Message) (interface method : CStr) : Bool :=
  m.type == .methodCall && m.member == some method &&
    (m.interface == none || m.interface == some interface)

/-- The largest number of bytes a D-Bus array can hold. -/
def dbusMaximumArrayLength : ℕ := 67108864

/-! ## Writing -/

/-- The kind of an open container, with the signature it was opened with. -/
inductive Container where
  | array (elem : Signature)
  | variant (sig : Signature)
  | dictEntry

/-- An open container and what has been written into it. -/
structure Frame where
  container : Container
  items : List DBusValue

/-- The value of a container that is being closed: a variant must hold one value and a dict
entry two. -/
def Frame.finish (f : Frame) : Option DBusValue :=
  match f.container, f.items with
  | .array elem, items => some (.array elem items)
  | .variant sig, [v] => some (.variant sig v)
  | .dictEntry, [k, v] => some (.dictEntry k v)
  | _, _ => none

/-- A message body under construction: the finished values and the open containers, the
innermost first. -/
structure Writer where
  body : List DBusValue
  frames : List Frame

/-- A handle on an iterator: the depth of the container it writes to. -/
abbrev Iter := ℕ

namespace Writer

/-- `dbus_message_iter_init_append`: write behind what the body already holds. -/
def initAppend (body : List DBusValue) : Writer := ⟨body, []⟩

/-- The handle on the innermost open container. -/
def depth (w : Writer) : Iter := w.frames.length

/-- Add a value to the innermost open container. -/
def push (w : Writer) (v : DBusValue) : Writer :=
  match w.frames with
  | [] => { w with body := w.body ++ [v] }
  | f :: fs => { w with frames := { f with items := f.items ++ [v] } :: fs }

/-- Add values to the innermost open container. -/
def pushAll (w : Writer) (vs : List DBusValue) : Writer := vs.foldl push w

/-- Add a value whose texts the library reads first. -/
def append (w : Writer) (v : DBusValue) : Outcome Writer :=
  if v.validTexts then .ok (w.push v) else .error .invalidText

/-- `dbus_message_iter_append_basic`: a string has to be UTF-8, and an object path a path. -/
def appendBasic (w : Writer) (iter : Iter) (v : DBusValue) : Outcome Writer :=
  if iter = w.depth then w.append v else .error .precondition

/-- `dbus_message_iter_append_fixed_array` for bytes: `elements` of the bytes found behind the
caller's pointer, as many as a D-Bus array can hold at most. -/
def appendFixedArray (w : Writer) (iter : Iter) (data : Bytes) (elements : ℤ) :
    Outcome Writer :=
  if iter = w.depth ∧ 0 ≤ elements ∧ elements ≤ dbusMaximumArrayLength then
    if elements.toNat ≤ data.length then
      .ok (w.pushAll ((data.take elements.toNat).map .byte))
    else .error .outOfBlock
  else .error .precondition

/-- `dbus_message_iter_open_container`: returns the handle on the new container. -/
def openContainer (w : Writer) (iter : Iter) (container : Container) : Outcome (Iter × Writer) :=
  if iter = w.depth then .ok (w.depth + 1, { w with frames := ⟨container, []⟩ :: w.frames })
  else .error .precondition

/-- `dbus_message_iter_close_container`. -/
def closeContainer (w : Writer) (iter sub : Iter) : Outcome Writer :=
  match w.frames with
  | f :: fs =>
    if sub = fs.length + 1 ∧ iter = fs.length then
      match f.finish with
      | some v => .ok (push { w with frames := fs } v)
      | none => .error .precondition
    else .error .precondition
  | [] => .error .precondition

/-! ### What a piece of writing code appends -/

@[simp] theorem depth_push (w : Writer) (v : DBusValue) : (w.push v).depth = w.depth := by
  unfold push depth
  split <;> simp_all

@[simp] theorem pushAll_nil (w : Writer) : w.pushAll [] = w := rfl

@[simp] theorem pushAll_cons (w : Writer) (v : DBusValue) (vs : List DBusValue) :
    w.pushAll (v :: vs) = (w.push v).pushAll vs := rfl

@[simp] theorem depth_pushAll (w : Writer) (vs : List DBusValue) :
    (w.pushAll vs).depth = w.depth := by
  induction vs generalizing w with
  | nil => rfl
  | cons v vs ih => rw [pushAll_cons, ih, depth_push]

theorem pushAll_append (w : Writer) (vs ws : List DBusValue) :
    w.pushAll (vs ++ ws) = (w.pushAll vs).pushAll ws := List.foldl_append

@[simp] theorem body_initAppend (body : List DBusValue) : (initAppend body).body = body := rfl

@[simp] theorem depth_initAppend (body : List DBusValue) : (initAppend body).depth = 0 := rfl

theorem zero_eq_depth (body : List DBusValue) : (0 : Iter) = (initAppend body).depth := rfl

/-- At the top level, writing extends the body. -/
theorem push_initAppend (body : List DBusValue) (v : DBusValue) :
    (initAppend body).push v = initAppend (body ++ [v]) := rfl

@[simp] theorem appendBasic_eq {w : Writer} {iter : Iter} (hiter : iter = w.depth)
    (v : DBusValue) : w.appendBasic iter v = w.append v := if_pos hiter

/-- A value with valid texts is added. -/
theorem append_eq {v : DBusValue} (h : v.validTexts = true) (w : Writer) :
    w.append v = .ok (w.push v) := if_pos h

theorem appendBasic_string {w : Writer} {iter : Iter} (hiter : iter = w.depth) {s : CStr}
    (hs : validUtf8 s = true) : w.appendBasic iter (.string s) = .ok (w.push (.string s)) := by
  rw [appendBasic_eq hiter]
  exact append_eq (v := .string s) hs w

/-- Add values one after another, up to the first with a text the library does not take. -/
def appendAll (w : Writer) (vs : List DBusValue) : Outcome Writer :=
  if DBusValue.validTextsAll vs then .ok (w.pushAll vs) else .error .invalidText

theorem appendAll_singleton (w : Writer) (v : DBusValue) : w.appendAll [v] = w.append v := by
  simp [appendAll, append, DBusValue.validTextsAll]

theorem appendAll_eq {vs : List DBusValue} (h : DBusValue.validTextsAll vs = true) (w : Writer) :
    w.appendAll vs = .ok (w.pushAll vs) := if_pos h

theorem appendAll_cases (w : Writer) (vs : List DBusValue) :
    w.appendAll vs = .ok (w.pushAll vs) ∨ w.appendAll vs = .error .invalidText := by
  unfold appendAll
  split_ifs
  · exact Or.inl rfl
  · exact Or.inr rfl

theorem appendAll_append (w : Writer) (vs ws : List DBusValue) :
    (w.appendAll vs >>= fun w => w.appendAll ws) = w.appendAll (vs ++ ws) := by
  unfold appendAll
  rw [DBusValue.validTextsAll_append, pushAll_append]
  cases DBusValue.validTextsAll vs with
  | false => rfl
  | true => rfl

/-- Values written inside a freshly opened container end up in that container. -/
theorem pushAll_opened (body : List DBusValue) (c : Container) (items vs : List DBusValue)
    (fs : List Frame) :
    pushAll ⟨body, ⟨c, items⟩ :: fs⟩ vs = ⟨body, ⟨c, items ++ vs⟩ :: fs⟩ := by
  induction vs generalizing items with
  | nil => simp
  | cons v vs ih =>
    rw [pushAll_cons, push, ih, List.append_assoc]
    rfl

/-- A writer whose innermost container has just been opened. -/
def opened (w : Writer) (c : Container) : Writer := { w with frames := ⟨c, []⟩ :: w.frames }

@[simp] theorem depth_opened (w : Writer) (c : Container) : (w.opened c).depth = w.depth + 1 := by
  simp [opened, depth]

@[simp] theorem openContainer_eq {w : Writer} {iter : Iter} (hiter : iter = w.depth)
    (c : Container) : w.openContainer iter c = .ok (w.depth + 1, w.opened c) := if_pos hiter

/-- Closing a container appends it, with everything written into it, to the one around it. -/
theorem closeContainer_opened {c : Container} (vs : List DBusValue) {v : DBusValue}
    (hfinish : Frame.finish ⟨c, vs⟩ = some v) {w : Writer} {iter sub : Iter}
    (hiter : iter = w.depth) (hsub : sub = w.depth + 1) :
    ((w.opened c).pushAll vs).closeContainer iter sub = .ok (w.push v) := by
  subst hiter hsub
  rw [opened, pushAll_opened, List.nil_append, closeContainer]
  simp only [depth, and_self, ↓reduceIte, hfinish]

section Closing

variable {w : Writer} {iter sub : Iter} (hiter : iter = w.depth) (hsub : sub = w.depth + 1)
include hiter hsub

@[simp] theorem closeContainer_array (elem : Signature) (vs : List DBusValue) :
    ((w.opened (.array elem)).pushAll vs).closeContainer iter sub
      = .ok (w.push (.array elem vs)) := closeContainer_opened vs rfl hiter hsub

@[simp] theorem closeContainer_array_nil (elem : Signature) :
    (w.opened (.array elem)).closeContainer iter sub = .ok (w.push (.array elem [])) :=
  closeContainer_opened [] rfl hiter hsub

@[simp] theorem closeContainer_variant (sig : Signature) (v : DBusValue) :
    ((w.opened (.variant sig)).push v).closeContainer iter sub
      = .ok (w.push (.variant sig v)) :=
  closeContainer_opened [v] rfl hiter hsub

end Closing

end Writer

/-- Code that writes into a container of its own. -/
def inContainer (c : Container) (get : Iter → Writer → Outcome Writer) (iter : Iter)
    (w : Writer) : Outcome Writer := do
  let (sub, w) ← w.openContainer iter c
  let w ← get sub w
  w.closeContainer iter sub

/-- `get` appends some values to whatever iterator it is given, unless the library does not take
a text in them. -/
def WritesAll (get : Iter → Writer → Outcome Writer) (vs : List DBusValue) : Prop :=
  ∀ (w : Writer) (iter : Iter), iter = w.depth → get iter w = w.appendAll vs

/-- `get` appends exactly one value. -/
def Writes (get : Iter → Writer → Outcome Writer) (v : DBusValue) : Prop :=
  ∀ (w : Writer) (iter : Iter), iter = w.depth → get iter w = w.append v

/-- `get` fails at whatever iterator it is given. -/
def Fails (get : Iter → Writer → Outcome Writer) : Prop :=
  ∀ (w : Writer) (iter : Iter), iter = w.depth → ∃ e, get iter w = .error e

namespace Writes

variable {get : Iter → Writer → Outcome Writer} {v : DBusValue}

theorem all (h : Writes get v) : WritesAll get [v] := by
  intro w iter hiter
  rw [h w iter hiter, Writer.appendAll_singleton]

/-- A value without texts the library does not take is appended. -/
theorem ok (h : Writes get v) (hv : v.validTexts = true) {w : Writer} {iter : Iter}
    (hiter : iter = w.depth) : get iter w = .ok (w.push v) := by
  rw [h w iter hiter, Writer.append_eq hv]

end Writes

theorem appendBasic_writes (v : DBusValue) : Writes (fun iter w => w.appendBasic iter v) v :=
  fun _ _ hiter => Writer.appendBasic_eq hiter v

/-- The bytes behind a pointer that a D-Bus array can hold. -/
theorem appendFixedArray_writes {data : Bytes} {n : ℕ} (hmax : n ≤ dbusMaximumArrayLength)
    (hdata : n ≤ data.length) :
    WritesAll (fun array w => w.appendFixedArray array data n) ((data.take n).map .byte) := by
  intro w iter hiter
  rw [Writer.appendAll_eq (DBusValue.validTexts_byteArray _)]
  simp [Writer.appendFixedArray, hiter, hmax, hdata]

namespace WritesAll

variable {get get' : Iter → Writer → Outcome Writer} {vs vs' : List DBusValue}

theorem nil : WritesAll (fun _ w => .ok w) [] := fun _ _ _ => rfl

/-- One piece of code after another. -/
theorem seq (h : WritesAll get vs) (h' : WritesAll get' vs') :
    WritesAll (fun iter w => get iter w >>= get' iter) (vs ++ vs') := by
  intro w iter hiter
  beta_reduce
  rw [h w iter hiter, ← Writer.appendAll_append]
  obtain hok | herror := w.appendAll_cases vs
  · rw [hok, ok_bind, ok_bind]
    exact h' _ _ (by rw [Writer.depth_pushAll, hiter])
  · rw [herror]
    rfl

/-- A loop that writes one value each turn. -/
theorem foldlM {α : Type} {get : α → Iter → Writer → Outcome Writer} {l : List α}
    {vs : List DBusValue} (h : List.Forall₂ (fun a v => Writes (get a) v) l vs) :
    WritesAll (fun iter w => l.foldlM (fun w a => get a iter w) w) vs := by
  induction h with
  | nil => exact nil
  | @cons a v l vs hwrites _ ih =>
    intro w iter hiter
    beta_reduce
    rw [List.foldlM_cons]
    exact hwrites.all.seq ih w iter hiter

/-- What is written between opening and closing a container is appended as one value. -/
theorem container (h : WritesAll get vs) {c : Container} {v : DBusValue}
    (hfinish : Frame.finish ⟨c, vs⟩ = some v)
    (hv : v.validTexts = DBusValue.validTextsAll vs) :
    Writes (inContainer c get) v := by
  intro w iter hiter
  rw [inContainer, Writer.openContainer_eq hiter, ok_bind]
  simp only
  rw [h _ _ (Writer.depth_opened w c).symm, Writer.appendAll, Writer.append, hv]
  split_ifs
  · rw [ok_bind, Writer.closeContainer_opened vs hfinish hiter rfl]
  · rfl

/-- Values written into an array. -/
theorem array (h : WritesAll get vs) (elem : Signature) :
    Writes (inContainer (.array elem) get) (.array elem vs) :=
  h.container rfl rfl

/-- A key and a value. -/
theorem dictEntry {k v : DBusValue} (h : WritesAll get [k, v]) :
    Writes (inContainer .dictEntry get) (.dictEntry k v) :=
  h.container rfl (by simp [DBusValue.validTexts, DBusValue.validTextsAll])

end WritesAll

/-- A value written into a variant. -/
theorem Writes.variant {get : Iter → Writer → Outcome Writer} {v : DBusValue} (h : Writes get v)
    (sig : Signature) :
    Writes (inContainer (.variant sig) get) (.variant sig v) :=
  h.all.container rfl (by simp [DBusValue.validTexts, DBusValue.validTextsAll])

/-- Code that fails inside a container fails around it. -/
theorem Fails.container {get : Iter → Writer → Outcome Writer} (h : Fails get) (c : Container) :
    Fails (inContainer c get) := by
  intro w iter hiter
  rw [inContainer, Writer.openContainer_eq hiter, ok_bind]
  obtain ⟨e, he⟩ := h _ _ (Writer.depth_opened w c).symm
  exact ⟨e, by simp only; rw [he, error_bind]⟩

/-- Code that fails after something was written fails. -/
theorem Fails.seq {get get' : Iter → Writer → Outcome Writer} {vs : List DBusValue}
    (h : WritesAll get vs) (h' : Fails get') :
    Fails fun iter w => get iter w >>= get' iter := by
  intro w iter hiter
  beta_reduce
  rw [h w iter hiter]
  obtain hok | herror := w.appendAll_cases vs
  · rw [hok, ok_bind]
    exact h' _ _ (by rw [Writer.depth_pushAll, hiter])
  · rw [herror]
    exact ⟨_, rfl⟩

/-! ## Reading -/

/-- An iterator made by `dbus_message_iter_recurse`: inside an array, or inside a variant or a
struct. -/
inductive SubIter where
  | inArray (elem : Signature) (items : List DBusValue)
  | inOther

/-- `dbus_message_iter_recurse` on the first argument of a message: only containers can be
entered. -/
def Message.recurseFirst (m : Message) : Outcome SubIter :=
  match m.body with
  | .array elem items :: _ => .ok (.inArray elem items)
  | .variant _ _ :: _ => .ok .inOther
  | .struct _ :: _ => .ok .inOther
  | .dictEntry _ _ :: _ => .ok .inOther
  | _ => .error .precondition

/-- `dbus_message_iter_get_fixed_array`: the raw storage of an array of fixed-size elements and
the number of elements; NULL and 0 for an empty array. -/
def SubIter.getFixedArray (it : SubIter) : Outcome (Option Bytes × ℤ) :=
  match it with
  | .inArray elem items =>
    if isFixedSignature elem then
      match items with
      | [] => .ok (none, 0)
      | _ :: _ => .ok (some (items.flatMap DBusValue.storage), items.length)
    else .error .precondition
  | .inOther => .error .precondition

end BleSim
