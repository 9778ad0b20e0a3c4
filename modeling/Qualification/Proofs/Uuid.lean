import Mathlib.Algebra.Group.Nat.Defs
import Qualification.Uuid
/-!
# The text of identifiers

An identifier is read from its hyphenated text.

* `hexValue?_digit`, `ofHex?_hexDigits`: hexadecimal digits;
* `exists_groups`, `ofHyphenated?_hyphenated`: the hyphens are left out again;
* **`parse?_render`**: a text is read as the identifier that it was written for;
* `render_spec`: a text is a name.
-/

namespace Qualification.Uuid

/-- The digit of a number below 16 has its value. -/
theorem hexValue?_digit (n : Fin 16) :
    hexValue? ("0123456789abcdef".toList.getD n '0') = some n.val := by
  revert n
  decide

theorem length_hexDigits (count n : Nat) : (hexDigits count n).length = count := by
  induction count generalizing n with
  | zero => rfl
  | succ count ih => simp [hexDigits, ih]

/-- The value of the last digits of a number. -/
theorem ofHex?_hexDigits (count n : Nat) : ofHex? (hexDigits count n) = some (n % 16 ^ count) := by
  induction count generalizing n with
  | zero => simp [hexDigits, ofHex?, Nat.mod_one]
  | succ count ih =>
    have hlast := hexValue?_digit ⟨n % 16, Nat.mod_lt _ (by decide)⟩
    have hfront := ih (n / 16)
    unfold ofHex? at hfront ⊢
    rw [hexDigits, List.foldlM_append, hfront]
    simp only [Option.bind_eq_bind, Option.bind_some, List.foldlM_cons, List.foldlM_nil, hlast,
      Option.map_some, Option.pure_def]
    rw [Nat.pow_succ', Nat.mod_mul, Nat.add_comm, Nat.mul_comm 16]

/-- The groups of digits, without and with hyphens between them. -/
theorem exists_groups {ds : List Char} (h : ds.length = 32) : ∃ a b c d e : List Char,
    ds = a ++ (b ++ (c ++ (d ++ e))) ∧
      hyphenated ds = a ++ '-' :: (b ++ '-' :: (c ++ '-' :: (d ++ '-' :: e))) ∧
      a.length = 8 ∧ b.length = 4 ∧ c.length = 4 ∧ d.length = 4 ∧ e.length = 12 := by
  refine ⟨ds.take 8, (ds.drop 8).take 4, (ds.drop 12).take 4, (ds.drop 16).take 4, ds.drop 20, ?_,
    ?_, ?_⟩
  · rw [show ds.drop 20 = (ds.drop 16).drop 4 by simp, List.take_append_drop,
      show ds.drop 16 = (ds.drop 12).drop 4 by simp, List.take_append_drop,
      show ds.drop 12 = (ds.drop 8).drop 4 by simp, List.take_append_drop, List.take_append_drop]
  · simp [hyphenated]
  · simp [h]

/-- The hyphens are left out again. -/
theorem ofHyphenated?_hyphenated {ds : List Char} (h : ds.length = 32) :
    (hyphenated ds).length = 36 ∧ ofHyphenated? (hyphenated ds) = ofPlain? ds := by
  obtain ⟨a, b, c, d, e, hds, hhyphenated, ha, hb, hc, hd, he⟩ := exists_groups h
  rw [hhyphenated, hds]
  constructor
  · simp [ha, hb, hc, hd, he]
  · simp [ofHyphenated?, List.drop_append, List.drop_of_length_le, ha, hb, hc, hd, he]

/-- **An identifier is read from its text.** -/
theorem parse?_render (u : Uuid) : parse? u.render = some u := by
  have hlength : (hexDigits 32 u.bits.toNat).length = 32 := length_hexDigits _ _
  obtain ⟨hall, hplain⟩ := ofHyphenated?_hyphenated hlength
  have hvalue : u.bits.toNat % 16 ^ 32 = u.bits.toNat :=
    Nat.mod_eq_of_lt (by simpa using u.bits.isLt)
  have hread : ofHex? (hexDigits 32 u.bits.toNat) = some u.bits.toNat := by
    rw [ofHex?_hexDigits, hvalue]
  have hbits : ofNat u.bits.toNat = u := by simp [ofNat]
  simp only [parse?, render, String.toList_ofList, renderChars, hall, hplain]
  simp [ofPlain?, hlength, hread, hbits]

/-! ## Names -/

theorem mem_hexDigits {count n : Nat} : ∀ c ∈ hexDigits count n, c ∈ "0123456789abcdef".toList := by
  have hdigit : ∀ m : Fin 16, "0123456789abcdef".toList.getD m '0' ∈ "0123456789abcdef".toList := by
    decide
  induction count generalizing n with
  | zero => simp [hexDigits]
  | succ count ih =>
    intro c hc
    rcases List.mem_append.mp hc with hc | hc
    · exact ih c hc
    · rw [List.mem_singleton.mp hc]
      exact hdigit ⟨n % 16, Nat.mod_lt _ (by decide)⟩

/-- The text of an identifier is a name of a directory. -/
theorem render_spec (u : Uuid) : '/' ∉ u.render.toList ∧ u.render.toList.length = 36 := by
  have hlength := length_hexDigits 32 u.bits.toNat
  have hdigits : '/' ∉ hexDigits 32 u.bits.toNat := fun h => absurd (mem_hexDigits _ h) (by decide)
  obtain ⟨a, b, c, d, e, hds, hhyphenated, -⟩ := exists_groups hlength
  rw [render, String.toList_ofList, renderChars]
  refine ⟨?_, (ofHyphenated?_hyphenated hlength).1⟩
  rw [hds] at hdigits
  rw [hhyphenated]
  simpa using hdigits

end Qualification.Uuid
