import BleSim.Defines

/-!
# Texts

The D-Bus library reads the texts it is handed: a string has to be UTF-8, and an object path has
to be made of segments. A C string holds one character for each of its bytes.
-/

namespace BleSim

/-! ## Strings -/

/-- What the first byte of a character in UTF-8 says: how many bytes follow, and between which
bounds the first of them is. Overlong forms, surrogates and numbers above `0x10FFFF` are left
out. -/
def utf8Lead (a : ℕ) : Option (ℕ × ℕ × ℕ) :=
  if 0x01 ≤ a ∧ a ≤ 0x7F then some (0, 0x80, 0xBF)
  else if 0xC2 ≤ a ∧ a ≤ 0xDF then some (1, 0x80, 0xBF)
  else if a = 0xE0 then some (2, 0xA0, 0xBF)
  else if a = 0xED then some (2, 0x80, 0x9F)
  else if 0xE1 ≤ a ∧ a ≤ 0xEF then some (2, 0x80, 0xBF)
  else if a = 0xF0 then some (3, 0x90, 0xBF)
  else if 0xF1 ≤ a ∧ a ≤ 0xF3 then some (3, 0x80, 0xBF)
  else if a = 0xF4 then some (3, 0x80, 0x8F)
  else none

/-- Whether bytes go on with a character of which `n` bytes are left, the first of them between
`lo` and `hi`, and are UTF-8 behind it. -/
def validUtf8From : ℕ → ℕ → ℕ → CStr → Bool
  | 0, _, _, [] => true
  | _ + 1, _, _, [] => false
  | 0, _, _, a :: s =>
    match utf8Lead a.toNat with
    | some (n, lo, hi) => validUtf8From n lo hi s
    | none => false
  | n + 1, lo, hi, a :: s =>
    decide (lo ≤ a.toNat ∧ a.toNat ≤ hi) && validUtf8From n 0x80 0xBF s

/-- `_dbus_check_is_valid_utf8`. -/
def validUtf8 (s : CStr) : Bool := validUtf8From 0 0x80 0xBF s

-- "é" in UTF-8, and two texts that are not UTF-8: a lone continuation byte and an overlong "/"
example : [[0xC3, 0xA9], [0x80], [0xC0, 0xAF]].map (fun s => validUtf8 (s.map Char.ofNat)) =
    [true, false, false] := by decide

/-! ## Object paths -/

/-- The characters of a path segment: `[A-Za-z0-9_]`. -/
def isPathCharacter (c : Char) : Bool := c.isAlphanum || c == '_'

/-- A path below the root: segments that are not empty, each behind a slash. -/
def ValidObjectPath (path : CStr) : Prop :=
  ∃ segments : List CStr, segments ≠ [] ∧
    (∀ s ∈ segments, s ≠ [] ∧ ∀ c ∈ s, isPathCharacter c = true) ∧
    path = segments.flatMap fun s => '/' :: s

/-- Whether a path can go on so, behind a slash (`fresh`) or inside a segment. -/
def isPathFrom : Bool → CStr → Bool
  | fresh, [] => !fresh
  | fresh, c :: s =>
    if c = '/' then !fresh && isPathFrom true s else isPathCharacter c && isPathFrom false s

/-- `_dbus_check_is_valid_path`: the root, or a path below it. -/
def isObjectPath : CStr → Bool
  | [] => false
  | c :: s => c == '/' && (s.isEmpty || isPathFrom true s)

/-- Behind the characters of a segment, a path goes on inside it. -/
theorem isPathFrom_append {s : CStr} (hs : ∀ c ∈ s, isPathCharacter c = true) (rest : CStr) :
    isPathFrom false (s ++ rest) = isPathFrom false rest := by
  induction s with
  | nil => rfl
  | cons c s ih =>
    obtain ⟨hc, hs⟩ := List.forall_mem_cons.mp hs
    have hslash : c ≠ '/' := by
      rintro rfl
      exact absurd hc (by decide)
    rw [List.cons_append, isPathFrom, if_neg hslash, hc, ih hs, Bool.true_and]

/-- Segments, each behind a slash. -/
theorem isPathFrom_segments {segments : List CStr}
    (h : ∀ s ∈ segments, s ≠ [] ∧ ∀ c ∈ s, isPathCharacter c = true) :
    isPathFrom false (segments.flatMap fun s => '/' :: s) = true := by
  induction segments with
  | nil => rfl
  | cons s segments ih =>
    obtain ⟨⟨hne, hs⟩, hsegments⟩ := List.forall_mem_cons.mp h
    obtain ⟨c, s, rfl⟩ := List.exists_cons_of_ne_nil hne
    obtain ⟨hc, hs⟩ := List.forall_mem_cons.mp hs
    have hslash : c ≠ '/' := by
      rintro rfl
      exact absurd hc (by decide)
    rw [List.flatMap_cons, List.cons_append, isPathFrom, if_pos rfl, List.cons_append, isPathFrom,
      if_neg hslash, hc, isPathFrom_append hs, ih hsegments]
    rfl

/-- The library takes valid paths. -/
theorem ValidObjectPath.isObjectPath {path : CStr} (h : ValidObjectPath path) :
    isObjectPath path = true := by
  obtain ⟨segments, hne, hsegments, rfl⟩ := h
  obtain ⟨s, segments, rfl⟩ := List.exists_cons_of_ne_nil hne
  have hpath := isPathFrom_segments hsegments
  rw [List.flatMap_cons, List.cons_append] at hpath ⊢
  rw [isPathFrom, if_pos rfl, Bool.not_false, Bool.true_and] at hpath
  simp [BleSim.isObjectPath, hpath]

end BleSim
