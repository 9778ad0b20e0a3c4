import Mathlib.Algebra.Group.Nat.Defs
import Qualification.Time
/-!
# Decimal digits

What readers of decimal numbers find where a number was written.

* `foldl_digits`: the value that readers compute is that of core's `Nat.ofDigitChars`;
* `takeWhile_digits`, `dropWhile_digits`: a run of digits before something else;
* `isDigit_of_mem_toString`, `cases_of_mem_toString`: the characters of a number;
* `head?_toDigits_ne`: a number is written without zeros before it;
* `Instant.ofDigitChars_padded`, `Instant.length_padded`: numbers with zeros before them.
-/

namespace Qualification

/-- Whether what comes next is no digit. -/
def NoDigit (cs : List Char) : Prop := ∀ c ∈ cs.head?, c.isDigit = false

theorem foldl_digits (ds : List Char) :
    ds.foldl (fun n d => n * 10 + (d.toNat - 48)) 0 = Nat.ofDigitChars 10 ds 0 := by
  rw [Nat.ofDigitChars_eq_foldl]
  exact congrArg (fun f => ds.foldl f 0) (funext fun n => funext fun d => by rw [Nat.mul_comm]; rfl)

section Run

variable {ds rest : List Char}

theorem takeWhile_digits (h : ∀ d ∈ ds, d.isDigit = true) (hrest : NoDigit rest) :
    (ds ++ rest).takeWhile Char.isDigit = ds := by
  rw [List.takeWhile_append_of_pos h]
  cases rest with
  | nil => simp
  | cons c rest => simp [hrest c rfl]

theorem dropWhile_digits (h : ∀ d ∈ ds, d.isDigit = true) (hrest : NoDigit rest) :
    (ds ++ rest).dropWhile Char.isDigit = rest := by
  rw [List.dropWhile_append_of_pos h]
  cases rest with
  | nil => rfl
  | cons c rest => simp [hrest c rfl]

end Run

theorem isDigit_of_mem_decimal {n : Nat} : ∀ d ∈ Nat.toDigits 10 n, d.isDigit = true :=
  fun _ => Nat.isDigit_of_mem_toDigits (by decide) (by decide)

theorem isDigit_of_mem_toString {n : Nat} {c : Char} (h : c ∈ (toString n).toList) :
    c.isDigit = true := by
  have hdigits : (toString n).toList = Nat.toDigits 10 n := Nat.toList_repr
  exact isDigit_of_mem_decimal c (hdigits ▸ h)

theorem cases_of_mem_toString {i : Int} {c : Char} (h : c ∈ (toString i).toList) :
    c = '-' ∨ c.isDigit = true := by
  cases i with
  | ofNat n => exact .inr (isDigit_of_mem_toString h)
  | negSucc n =>
    have hsign : (toString (Int.negSucc n)).toList = '-' :: (toString (n + 1)).toList :=
      String.toList_append
    rw [hsign] at h
    exact (List.mem_cons.mp h).imp_right isDigit_of_mem_toString

/-- A number that is not zero is written without zeros before it. -/
theorem head?_toDigits_ne {n : Nat} (h : n ≠ 0) : (Nat.toDigits 10 n).head? ≠ some '0' := by
  induction n using Nat.strongRecOn with
  | ind n ih =>
    by_cases hn : n < 10
    · rw [Nat.toDigits_of_lt_base hn]
      simpa using h
    · have hfront := ih (n / 10) (by omega) (by omega)
      obtain ⟨d, ds, hds⟩ :=
        List.exists_cons_of_ne_nil (Nat.toDigits_ne_nil (n := n / 10) (b := 10))
      rw [hds] at hfront
      rw [Nat.toDigits_of_base_le (by decide) (by omega), hds]
      exact hfront

namespace Instant

theorem isDigit_of_mem_padded {width n : Nat} : ∀ d ∈ padded width n, d.isDigit = true := by
  intro d hd
  rcases List.mem_append.mp hd with hd | hd
  · rw [List.eq_of_mem_replicate hd]
    decide
  · exact isDigit_of_mem_decimal d hd

theorem ofDigitChars_padded (width n : Nat) : Nat.ofDigitChars 10 (padded width n) 0 = n := by
  simp [padded, Nat.ofDigitChars_append]

theorem length_padded {width n : Nat} (hwidth : 0 < width) (h : n < 10 ^ width) :
    (padded width n).length = width := by
  have hle := (Nat.length_toDigits_le_iff (b := 10) (by decide) hwidth).mpr h
  simp only [padded, List.length_append, List.length_replicate]
  omega

end Instant

end Qualification
