import Qualification.Proofs.Json.Token
/-!
# Reading compact JSON

A value is read from its compact text, as far as it holds no numbers but integers.

* `Plain`: the values that can be read again;
* `Follows`: what may come after a value in a text;
* `value?_compactChars`, `items?_compactItems`, `fields?_compactFields`: values, items and fields;
* **`parse?_compact`**: a text is read as the value that it was written for.
-/

namespace Qualification.Json

mutual

/-- Whether a value has only integers of words for numbers, and only whole texts. -/
def Plain : Json → Prop
  | null => True
  | bool _ => True
  | int i => InWords i
  | real _ => False
  | text _ => True
  | brokenText => False
  | array items => PlainItems items
  | object fields => PlainFields fields

/-- Whether items are plain. -/
def PlainItems : List Json → Prop
  | [] => True
  | j :: rest => Plain j ∧ PlainItems rest

/-- Whether the values of fields are plain. -/
def PlainFields : List (String × Json) → Prop
  | [] => True
  | (_, j) :: rest => Plain j ∧ PlainFields rest

end

/-- Whether a text goes on after a value as a compact text does. -/
def Follows (cs : List Char) : Prop := ∀ c ∈ cs.head?, c = ',' ∨ c = ']' ∨ c = '\x7d'

section Follows

variable {c : Char} {rest : List Char}

theorem Follows.noNumber (h : Follows rest) : NoNumber rest := by
  intro c hc
  rcases h c hc with rfl | rfl | rfl <;> decide

theorem Follows.skipSpace (h : Follows rest) : skipSpace rest = rest := by
  cases rest with
  | nil => rfl
  | cons c rest => rcases h c rfl with rfl | rfl | rfl <;> rfl

theorem follows_comma (rest : List Char) : Follows (',' :: rest) := by simp [Follows]

theorem follows_bracket (rest : List Char) : Follows (']' :: rest) := by simp [Follows]

theorem follows_brace (rest : List Char) : Follows ('\x7d' :: rest) := by simp [Follows]

theorem skipSpace_cons (h : isSpace c = false) : skipSpace (c :: rest) = c :: rest := by
  simp [skipSpace, h]

end Follows

/-! ## The first character -/

/-- Whether a character begins a number. -/
def BeginsNumber (c : Char) : Prop := c.isDigit = true ∨ c = '-'

theorem exists_intChars (i : Int) : ∃ c cs, intChars i = c :: cs ∧ BeginsNumber c := by
  cases i with
  | ofNat n =>
    obtain ⟨d, ds, hds⟩ := List.exists_cons_of_ne_nil (Nat.toDigits_ne_nil (n := n) (b := 10))
    exact ⟨d, ds, hds, .inl (isDigit_of_mem_decimal d (by rw [hds]; exact List.mem_cons_self))⟩
  | negSucc n => exact ⟨'-', _, rfl, .inr rfl⟩

theorem value?_of_beginsNumber {c : Char} (h : BeginsNumber c) (fuel : Nat) (cs : List Char) :
    value? (fuel + 1) (c :: cs) = number? (c :: cs) := by
  rw [value?]
  all_goals
    intro rest heq
    obtain ⟨rfl, -⟩ := List.cons.inj heq
    exact absurd h (by unfold BeginsNumber; decide)

theorem isSpace_of_isDigit {c : Char} (h : c.isDigit = true) : isSpace c = false := by
  have hne : c ≠ ' ' ∧ c ≠ '\t' ∧ c ≠ '\n' ∧ c ≠ '\r' := by
    refine ⟨?_, ?_, ?_, ?_⟩ <;> (rintro rfl; cases h)
  simp [isSpace, hne]

/-- A plain value is written with something that is neither a blank nor the end of a list. -/
theorem exists_compactChars {j : Json} (h : j.Plain) :
    ∃ c cs, compactChars j = c :: cs ∧ isSpace c = false ∧ c ≠ ']' := by
  cases j with
  | null => exact ⟨'n', _, rfl, by decide, by decide⟩
  | bool b =>
    cases b with
    | true => exact ⟨'t', _, rfl, by decide, by decide⟩
    | false => exact ⟨'f', _, rfl, by decide, by decide⟩
  | int i =>
    obtain ⟨c, cs, hcs, hc⟩ := exists_intChars i
    refine ⟨c, cs, hcs, ?_, ?_⟩
    · rcases hc with hc | rfl
      · exact isSpace_of_isDigit hc
      · rfl
    · rintro rfl
      exact absurd hc (by unfold BeginsNumber; decide)
  | real s => cases h
  | text s => exact ⟨'"', _, rfl, by decide, by decide⟩
  | brokenText => cases h
  | array items => exact ⟨'[', _, rfl, by decide, by decide⟩
  | object fields => exact ⟨'\x7b', _, rfl, by decide, by decide⟩

theorem skipSpace_compactChars {j : Json} (h : j.Plain) (rest : List Char) :
    skipSpace (compactChars j ++ rest) = compactChars j ++ rest := by
  obtain ⟨c, cs, hcs, hspace, -⟩ := exists_compactChars h
  rw [hcs]
  exact skipSpace_cons hspace

theorem exists_compactItems {j : Json} (h : j.Plain) (items : List Json) :
    ∃ c cs, compactItems (j :: items) = c :: cs ∧ isSpace c = false ∧ c ≠ ']' := by
  obtain ⟨c, cs, hcs, hspace, hend⟩ := exists_compactChars h
  cases items with
  | nil => exact ⟨c, cs, by rw [compactItems, hcs], hspace, hend⟩
  | cons k items => exact ⟨c, _, by rw [compactItems, hcs]; rfl, hspace, hend⟩

theorem exists_compactFields (f : String × Json) (fields : List (String × Json)) :
    ∃ cs, compactFields (f :: fields) = '"' :: cs := by
  cases fields with
  | nil => exact ⟨_, rfl⟩
  | cons g fields => exact ⟨_, rfl⟩

/-! ## Values -/

-- Each part of the reader hands on one unit of fuel less, so the three go by induction on that.
mutual

/-- **A value is read from its compact text**, if there is fuel for each of its characters. -/
theorem value?_compactChars (j : Json) (h : j.Plain) (rest : List Char) (hrest : Follows rest) :
    ∀ fuel, (compactChars j).length < fuel → value? fuel (compactChars j ++ rest) = some (j, rest)
  | fuel + 1, hfuel => by
    cases j with
    | null => rfl
    | bool b =>
      cases b with
      | true => rfl
      | false => rfl
    | int i =>
      obtain ⟨c, cs, hcs, hc⟩ := exists_intChars i
      have hnumber := number?_intChars hrest.noNumber h
      rw [compactChars]
      rw [hcs] at hnumber ⊢
      exact (value?_of_beginsNumber hc fuel _).trans hnumber
    | real s => cases h
    | text s =>
      rw [compactChars, quoteChars]
      simp only [List.cons_append, List.append_assoc, List.nil_append]
      rw [value?, text?_quoteChars]
      rfl
    | brokenText => cases h
    | array items =>
      cases items with
      | nil => rfl
      | cons j items =>
        simp only [compactChars, List.length_append, List.length_cons, List.length_nil] at hfuel
        have hitems := items?_compactItems j items h.1 h.2 rest fuel (by omega)
        obtain ⟨c, cs, hcs, hspace, hend⟩ := exists_compactItems h.1 items
        simp only [compactChars, List.cons_append, List.append_assoc, List.nil_append]
        rw [hcs, List.cons_append] at hitems ⊢
        rw [value?, skipSpace_cons hspace]
        split
        next heq => exact absurd (List.cons.inj heq).1 hend
        next => rw [hitems]; rfl
    | object fields =>
      cases fields with
      | nil => rfl
      | cons f fields =>
        simp only [compactChars, List.length_append, List.length_cons, List.length_nil] at hfuel
        have hfields := fields?_compactFields f fields h.1 h.2 rest fuel (by omega)
        obtain ⟨cs, hcs⟩ := exists_compactFields f fields
        simp only [compactChars, List.cons_append, List.append_assoc, List.nil_append]
        rw [hcs, List.cons_append] at hfields ⊢
        rw [value?, skipSpace_cons (by decide)]
        split
        next heq => exact absurd (List.cons.inj heq).1 (by decide)
        next => rw [hfields]; rfl

theorem items?_compactItems (j : Json) (items : List Json) (hj : j.Plain)
    (hitems : PlainItems items) (rest : List Char) :
    ∀ fuel, (compactItems (j :: items)).length + 1 < fuel →
      items? fuel (compactItems (j :: items) ++ ']' :: rest) = some (j :: items, rest)
  | fuel + 1, hfuel => by
    cases items with
    | nil =>
      rw [compactItems] at hfuel
      have hvalue := value?_compactChars j hj _ (follows_bracket rest) fuel (by omega)
      rw [compactItems, items?, skipSpace_compactChars hj, hvalue]
      simp [skipSpace_cons (show isSpace ']' = false by decide)]
    | cons k items =>
      simp only [compactItems, List.length_append, List.length_cons] at hfuel
      have hvalue := value?_compactChars j hj _
        (follows_comma (compactItems (k :: items) ++ ']' :: rest)) fuel (by omega)
      have hmore := items?_compactItems k items hitems.1 hitems.2 rest fuel (by omega)
      rw [compactItems, List.append_assoc, items?, skipSpace_compactChars hj, List.cons_append,
        hvalue]
      simp [skipSpace_cons (show isSpace ',' = false by decide), hmore]

theorem fields?_compactFields (f : String × Json) (fields : List (String × Json)) (hf : f.2.Plain)
    (hfields : PlainFields fields) (rest : List Char) :
    ∀ fuel, (compactFields (f :: fields)).length + 1 < fuel →
      fields? fuel (compactFields (f :: fields) ++ '\x7d' :: rest) = some (f :: fields, rest)
  | fuel + 1, hfuel => by
    obtain ⟨name, j⟩ := f
    cases fields with
    | nil =>
      simp only [compactFields, List.length_append, List.length_cons] at hfuel
      have hvalue := value?_compactChars j hf _ (follows_brace rest) fuel (by omega)
      simp only [compactFields, quoteChars, List.cons_append, List.append_assoc, List.nil_append]
      rw [fields?, skipSpace_cons (by decide)]
      simp [text?_quoteChars, skipSpace_cons (show isSpace ':' = false by decide),
        skipSpace_compactChars hf, hvalue, skipSpace_cons (show isSpace '\x7d' = false by decide)]
    | cons g fields =>
      simp only [compactFields, List.length_append, List.length_cons] at hfuel
      have hvalue := value?_compactChars j hf _
        (follows_comma (compactFields (g :: fields) ++ '\x7d' :: rest)) fuel (by omega)
      have hmore := fields?_compactFields g fields hfields.1 hfields.2 rest fuel (by omega)
      simp only [compactFields, quoteChars, List.cons_append, List.append_assoc, List.nil_append]
      rw [fields?, skipSpace_cons (by decide)]
      simp [text?_quoteChars, skipSpace_cons (show isSpace ':' = false by decide),
        skipSpace_compactChars hf, hvalue, skipSpace_cons (show isSpace ',' = false by decide),
        hmore]

end

/-- **A text is read as the value that it was written for.** -/
theorem parse?_compact {j : Json} (h : j.Plain) : parse? j.compact = some j := by
  have hvalue := value?_compactChars j h [] (by simp [Follows]) _ (Nat.lt_succ_self _)
  have hspace := skipSpace_compactChars h []
  rw [List.append_nil] at hvalue hspace
  rw [parse?, compact, String.toList_ofList, hspace, hvalue]
  rfl

/-! ## Characters -/

theorem noControl_quoteChars (cs : List Char) : ∀ c ∈ quoteChars cs, 32 ≤ c.toNat := by
  intro c hc
  simp only [quoteChars, List.cons_append, List.mem_cons, List.mem_append, List.mem_flatMap] at hc
  rcases hc with rfl | ⟨d, -, hc⟩ | hc
  · decide
  · exact noControl_escapeChar d c hc
  · obtain rfl : c = '"' := by simpa using hc
    decide

theorem noControl_intChars (i : Int) : ∀ c ∈ intChars i, 32 ≤ c.toNat := by
  have hdigits : ∀ n, ∀ c ∈ Nat.toDigits 10 n, 32 ≤ c.toNat := by
    intro n c hc
    have hdigit := isDigit_of_mem_decimal c hc
    simp only [Char.isDigit, Bool.and_eq_true, decide_eq_true_eq] at hdigit
    have hlow : 48 ≤ c.toNat := hdigit.1
    omega
  cases i with
  | ofNat n => exact hdigits n
  | negSucc n =>
    intro c hc
    rcases List.mem_cons.mp hc with rfl | hc
    · decide
    · exact hdigits _ c hc

mutual

/-- **Compact text holds no control characters**, and so no line breaks. -/
theorem noControl_compactChars : (j : Json) → j.Plain → ∀ c ∈ compactChars j, 32 ≤ c.toNat
  | null, _ => by simp [compactChars]
  | bool true, _ => by simp [compactChars]
  | bool false, _ => by simp [compactChars]
  | int i, _ => noControl_intChars i
  | text s, _ => noControl_quoteChars s.toList
  | array items, h => by
    have hitems := noControl_compactItems items h
    simp only [compactChars, List.forall_mem_append, List.forall_mem_cons]
    exact ⟨⟨by decide, hitems⟩, by decide, by simp⟩
  | object fields, h => by
    have hfields := noControl_compactFields fields h
    simp only [compactChars, List.forall_mem_append, List.forall_mem_cons]
    exact ⟨⟨by decide, hfields⟩, by decide, by simp⟩

theorem noControl_compactItems : (items : List Json) → PlainItems items →
    ∀ c ∈ compactItems items, 32 ≤ c.toNat
  | [], _ => by simp [compactItems]
  | [j], h => noControl_compactChars j h.1
  | j :: k :: rest, h => by
    have hj := noControl_compactChars j h.1
    have hrest := noControl_compactItems (k :: rest) h.2
    simp only [compactItems, List.forall_mem_append, List.forall_mem_cons]
    exact ⟨hj, by decide, hrest⟩

theorem noControl_compactFields : (fields : List (String × Json)) → PlainFields fields →
    ∀ c ∈ compactFields fields, 32 ≤ c.toNat
  | [], _ => by simp [compactFields]
  | [(name, j)], h => by
    have hj := noControl_compactChars j h.1
    simp only [compactFields, List.forall_mem_append, List.forall_mem_cons]
    exact ⟨noControl_quoteChars _, by decide, hj⟩
  | (name, j) :: f :: rest, h => by
    have hj := noControl_compactChars j h.1
    have hrest := noControl_compactFields (f :: rest) h.2
    simp only [compactFields, List.forall_mem_append, List.forall_mem_cons]
    exact ⟨⟨noControl_quoteChars _, by decide, hj⟩, by decide, hrest⟩

end

end Qualification.Json
