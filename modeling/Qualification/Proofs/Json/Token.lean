import Qualification.Json.Printer
import Qualification.Json.Reader
import Qualification.Proofs.Text.Digits
/-!
# Texts and numbers in JSON

Texts and integers are read as they were written, whatever characters a text has, and their writing
holds no control character.

* `escape?_hex`, `textBody_escapeChar`: one character of a text;
* **`text?_quoteChars`**: a text is read from its quotes;
* **`number?_intChars`**: an integer is read from its digits, where none follow.
-/

namespace Qualification.Json

/-! ## Texts -/

theorem hexValue?_hexDigit (n : Fin 16) : hexValue? (hexDigit n) = some n.val := by
  revert n
  decide

/-- A control character is read from its four digits. -/
theorem escape?_hex {c : Char} (h : c.toNat < 32) (rest : List Char) :
    escape? ('u' :: '0' :: '0' :: hexDigit (c.toNat / 16) :: hexDigit (c.toNat % 16) :: rest) =
      some (some c, rest) := by
  have hhigh := hexValue?_hexDigit ⟨c.toNat / 16, by omega⟩
  have hlow := hexValue?_hexDigit ⟨c.toNat % 16, by omega⟩
  have hzero : hexValue? '0' = some 0 := by decide
  have hvalue : c.toNat / 16 * 16 + c.toNat % 16 = c.toNat := by omega
  have hsurrogate : ¬ (0xDC00 ≤ c.toNat ∧ c.toNat ≤ 0xDFFF) := by omega
  have hsurrogate' : ¬ (0xD800 ≤ c.toNat ∧ c.toNat ≤ 0xDBFF) := by omega
  simp [escape?, hex4?, hhigh, hlow, hzero, hvalue, hsurrogate, hsurrogate']

/-- **One character of a text** is read as it was written. -/
theorem textBody_escapeChar (c : Char) (fuel : Nat) (rest : List Char) :
    textBody (fuel + 1) (escapeChar c ++ rest) =
      (textBody fuel rest).map fun (more, rest) => (some c :: more, rest) := by
  have hescape : ∀ {cs}, escape? cs = some (some c, rest) →
      textBody (fuel + 1) ('\\' :: cs) =
        (textBody fuel rest).map fun (more, rest) => (some c :: more, rest) := by
    intro cs h
    rw [textBody, h]
    simp only [Option.bind_eq_bind, Option.bind_some]
    cases textBody fuel rest with
    | none => rfl
    | some body => rfl
  unfold escapeChar
  split
  next h => subst h; exact hescape rfl
  split
  next h => subst h; exact hescape rfl
  split
  next h => subst h; exact hescape rfl
  split
  next h => subst h; exact hescape rfl
  split
  next h => subst h; exact hescape rfl
  split
  next h =>
    have hc : Char.ofNat 8 = c := by rw [← h, Char.ofNat_toNat]
    exact hescape (by rw [← hc]; rfl)
  split
  next h =>
    have hc : Char.ofNat 12 = c := by rw [← h, Char.ofNat_toNat]
    exact hescape (by rw [← hc]; rfl)
  split
  next h => exact hescape (escape?_hex h rest)
  next hquote hback _ _ _ _ _ hcontrol =>
    rw [List.singleton_append, textBody]
    · rw [if_neg hcontrol]
      cases textBody fuel rest with
      | none => rfl
      | some body => rfl
    · exact hquote
    · exact hback

/-- Control characters are not written as they are. -/
theorem noControl_escapeChar (c : Char) : ∀ d ∈ escapeChar c, 32 ≤ d.toNat := by
  have hhex : ∀ n : Fin 16, 32 ≤ (hexDigit n).toNat := by decide
  unfold escapeChar
  split
  next => simp
  split
  next => simp
  split
  next => simp
  split
  next => simp
  split
  next => simp
  split
  next => simp
  split
  next => simp
  split
  next h =>
    have hhigh := hhex ⟨c.toNat / 16, by omega⟩
    have hlow := hhex ⟨c.toNat % 16, by omega⟩
    simpa using ⟨hhigh, hlow⟩
  next h => simpa using h

theorem length_escapeChar_pos (c : Char) : 0 < (escapeChar c).length := by
  unfold escapeChar
  repeat' split
  all_goals simp

theorem textBody_flatMap (cs rest : List Char) {fuel : Nat}
    (h : (cs.flatMap escapeChar).length < fuel) :
    textBody fuel (cs.flatMap escapeChar ++ '"' :: rest) = some (cs.map some, rest) := by
  induction cs generalizing fuel with
  | nil =>
    obtain ⟨fuel, rfl⟩ : ∃ n, fuel = n + 1 := ⟨fuel - 1, by simp at h; omega⟩
    rfl
  | cons c cs ih =>
    rw [List.flatMap_cons, List.length_append] at h
    have hpos := length_escapeChar_pos c
    obtain ⟨fuel, rfl⟩ : ∃ n, fuel = n + 1 := ⟨fuel - 1, by omega⟩
    rw [List.flatMap_cons, List.append_assoc, textBody_escapeChar, ih (by omega)]
    rfl

/-- **A text is read from its quotes.** -/
theorem text?_quoteChars (s : String) (rest : List Char) :
    text? (s.toList.flatMap escapeChar ++ '"' :: rest) = some (some s, rest) := by
  have hmapM : (s.toList.map some).mapM id = some s.toList := by
    generalize s.toList = cs
    induction cs with
    | nil => rfl
    | cons c cs ih => simp [ih]
  have hfuel : (s.toList.flatMap escapeChar).length <
      (s.toList.flatMap escapeChar ++ '"' :: rest).length + 1 := by
    rw [List.length_append]
    omega
  rw [text?, textBody_flatMap _ _ hfuel]
  simp [hmapM]

/-! ## Numbers -/

/-- Whether what comes next does not belong to a number. -/
def NoNumber (cs : List Char) : Prop :=
  ∀ c ∈ cs.head?, c.isDigit = false ∧ c ≠ '.' ∧ c ≠ 'e' ∧ c ≠ 'E'

/-- Whether an integer is one of a word of 64 bits, signed or not. -/
def InWords (i : Int) : Prop := -(Word.half64 : Int) ≤ i ∧ i < Word.count64

section Number

variable {n : Nat} {rest : List Char}

theorem natOfDigits_toDigits (n : Nat) : natOfDigits (Nat.toDigits 10 n) = n := by
  rw [natOfDigits, foldl_digits, Nat.ofDigitChars_ten_toDigits]

/-- A number is not rejected for zeros before it. -/
theorem noLeadingZero (n : Nat) : ((Nat.toDigits 10 n).isEmpty ||
    (Nat.toDigits 10 n).head? == some '0' && decide (1 < (Nat.toDigits 10 n).length)) = false := by
  by_cases hn : n = 0
  · subst hn
    rfl
  · simp [head?_toDigits_ne hn]

theorem wholePart_toDigits (n : Nat) (hrest : NoNumber rest) :
    (Nat.toDigits 10 n ++ rest).takeWhile Char.isDigit = Nat.toDigits 10 n ∧
      (Nat.toDigits 10 n ++ rest).dropWhile Char.isDigit = rest := by
  have hdigits : NoDigit rest := fun c hc => (hrest c hc).1
  exact ⟨takeWhile_digits isDigit_of_mem_decimal hdigits,
    dropWhile_digits isDigit_of_mem_decimal hdigits⟩

theorem head_toDigits_ne_minus {d : Char} {ds : List Char} (h : Nat.toDigits 10 n = d :: ds) :
    d ≠ '-' := by
  rintro rfl
  exact absurd (isDigit_of_mem_decimal '-' (by rw [h]; exact List.mem_cons_self)) (by decide)

/-- The digits of a number are read whole. -/
theorem number?_toDigits (hrest : NoNumber rest) (hn : n < Word.count64) :
    number? (Nat.toDigits 10 n ++ rest) = some (.int n, rest) := by
  obtain ⟨hwhole, hafter⟩ := wholePart_toDigits n hrest
  unfold number?
  split
  next negative cs hsign =>
  split at hsign
  next heq =>
    obtain ⟨d, ds, hds⟩ := List.exists_cons_of_ne_nil (Nat.toDigits_ne_nil (n := n) (b := 10))
    rw [hds] at heq
    exact absurd (List.cons.inj heq).1 (head_toDigits_ne_minus hds)
  cases hsign
  simp only [hwhole, hafter, natOfDigits_toDigits, noLeadingZero]
  cases rest with
  | nil => simp [hn]
  | cons c rest =>
    obtain ⟨-, hpoint, hpower, hpower'⟩ := hrest c rfl
    simp [hn, hpoint, hpower, hpower']

/-- The digits of a number are read whole after a sign. -/
theorem number?_minus (hrest : NoNumber rest) (hn : n ≠ 0) (hn' : n ≤ Word.half64) :
    number? ('-' :: (Nat.toDigits 10 n ++ rest)) = some (.int (-(n : Int)), rest) := by
  obtain ⟨hwhole, hafter⟩ := wholePart_toDigits n hrest
  simp only [number?, hwhole, hafter, natOfDigits_toDigits, noLeadingZero]
  cases rest with
  | nil => simp [hn, hn']
  | cons c rest =>
    obtain ⟨-, hpoint, hpower, hpower'⟩ := hrest c rfl
    simp [hn, hn', hpoint, hpower, hpower']

/-- **An integer is read from its digits.** -/
theorem number?_intChars {i : Int} (hrest : NoNumber rest) (hi : InWords i) :
    number? (intChars i ++ rest) = some (.int i, rest) := by
  cases i with
  | ofNat n => exact number?_toDigits hrest (Int.ofNat_lt.mp hi.2)
  | negSucc n => exact number?_minus hrest (by simp) (by have := hi.1; omega)

end Number

end Qualification.Json
