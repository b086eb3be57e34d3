import Mathlib.Tactic.Common

/-!
# Decimal numerals

`decimal n` is what `printf` writes for `%u`. Different numbers have different numerals, and
a numeral holds no character outside `0`–`9`, so it can be read back from a longer string
that delimits it.
-/

namespace Decimal

/-- The decimal numeral of `n`. -/
def decimal (n : ℕ) : List Char := Nat.toDigits 10 n

theorem decimal_injective : Function.Injective decimal := by
  intro m n h
  have hm : Nat.ofDigitChars 10 (Nat.toDigits 10 m) 0 = m := Nat.ofDigitChars_ten_toDigits
  have hn : Nat.ofDigitChars 10 (Nat.toDigits 10 n) 0 = n := Nat.ofDigitChars_ten_toDigits
  unfold decimal at h
  rw [← hm, ← hn, h]

/-- A numeral is written in digits. -/
theorem isDigit_of_mem_decimal {n : ℕ} {c : Char} (hc : c ∈ decimal n) : c.isDigit :=
  Nat.isDigit_of_mem_toDigits (by decide) (by decide) hc

/-- A character that is not a digit occurs in no numeral. -/
theorem notMem_decimal {c : Char} (hc : c.isDigit = false) (n : ℕ) : c ∉ decimal n := by
  intro hmem
  rw [isDigit_of_mem_decimal hmem] at hc
  cases hc

theorem decimal_ne_nil (n : ℕ) : decimal n ≠ [] := Nat.toDigits_ne_nil

/-- Two strings up to their first delimiter are equal when the delimited strings agree that
far. -/
theorem eq_of_append_delimiter {α : Type} {d : α} {a b u v : List α} (ha : d ∉ a) (hb : d ∉ b)
    (h : a ++ d :: u = b ++ d :: v) : a = b ∧ u = v := by
  induction a generalizing b with
  | nil =>
    cases b with
    | nil => simpa using h
    | cons y b =>
      simp only [List.nil_append, List.cons_append, List.cons.injEq] at h
      exact absurd (by rw [h.1]; exact List.mem_cons_self) hb
  | cons x a ih =>
    cases b with
    | nil =>
      simp only [List.nil_append, List.cons_append, List.cons.injEq] at h
      exact absurd (by rw [← h.1]; exact List.mem_cons_self) ha
    | cons y b =>
      simp only [List.cons_append, List.cons.injEq] at h
      obtain ⟨hab, huv⟩ := ih (fun hd => ha (List.mem_cons_of_mem x hd))
        (fun hd => hb (List.mem_cons_of_mem y hd)) h.2
      exact ⟨by rw [h.1, hab], huv⟩

/-- Two strings from their last delimiter on are equal when the delimited strings agree from
there. -/
theorem eq_of_append_last_delimiter {α : Type} {d : α} {a b u v : List α} (hu : d ∉ u) (hv : d ∉ v)
    (h : a ++ d :: u = b ++ d :: v) : a = b ∧ u = v := by
  have hreverse := congrArg List.reverse h
  simp only [List.reverse_append, List.reverse_cons, List.append_assoc, List.singleton_append]
    at hreverse
  obtain ⟨huv, hab⟩ := eq_of_append_delimiter (fun hd => hu (List.mem_reverse.mp hd))
    (fun hd => hv (List.mem_reverse.mp hd)) hreverse
  exact ⟨List.reverse_inj.mp hab, List.reverse_inj.mp huv⟩

/-- A name without digits can be told from the numeral behind it. -/
theorem eq_of_append_decimal {n m : List Char} (hn : ∀ c ∈ n, c.isDigit = false)
    (hm : ∀ c ∈ m, c.isDigit = false) {i j : ℕ} (h : n ++ decimal i = m ++ decimal j) :
    n = m ∧ i = j := by
  have htake : ∀ {n : List Char} (i : ℕ), (∀ c ∈ n, c.isDigit = false) →
      (n ++ decimal i).takeWhile (fun c => !c.isDigit) = n := by
    intro n i hn
    rw [List.takeWhile_append_of_pos fun c hc => by simp [hn c hc]]
    cases hdecimal : decimal i with
    | nil => rw [List.takeWhile_nil, List.append_nil]
    | cons c l =>
      have hc : c.isDigit := isDigit_of_mem_decimal (n := i) (hdecimal ▸ List.mem_cons_self)
      rw [List.takeWhile_cons_of_neg (by simp [hc]), List.append_nil]
  have hnm : n = m := by rw [← htake i hn, h, htake j hm]
  subst hnm
  exact ⟨rfl, decimal_injective (List.append_cancel_left h)⟩

end Decimal
