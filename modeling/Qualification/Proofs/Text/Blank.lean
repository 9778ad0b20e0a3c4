import Qualification.Text.Blank
/-!
# Trimming

* `trimChars_blank_append`, `trimChars_append_blank`: blanks at the ends of a text are dropped;
* `trimChars_eq_self`, `trimChars_of_ends`: a text without blanks at its ends stays;
* `exists_trimChars`, `head?_trimChars`, `getLast?_trimChars`: what is dropped, and that no blanks
  are left at the ends; `head?_trimChars_of`, `getLast?_trimChars_of`, `filter_trimChars`: nothing
  else is dropped;
* `wordsFrom_of_none`, `wordsFrom_append_blank`: a text without blanks is one word, and so is what
  stands in front of the first blank.
-/

namespace Qualification.Text

variable {a blanks : List Char}

theorem trimChars_blank_append (h : ∀ c ∈ blanks, isBlank c = true) (a : List Char) :
    trimChars (blanks ++ a) = trimChars a := by
  rw [trimChars, dropBlanks_append_of_all (List.all_eq_true.mpr h), trimChars]

theorem dropEndBlanks_append_blank (h : ∀ c ∈ blanks, isBlank c = true) (a : List Char) :
    dropEndBlanks (a ++ blanks) = dropEndBlanks a := by
  have hreverse : blanks.reverse.all isBlank = true :=
    List.all_eq_true.mpr fun c hc => h c (List.mem_reverse.mp hc)
  rw [dropEndBlanks, List.reverse_append, dropBlanks_append_of_all hreverse, dropEndBlanks]

theorem trimChars_append_blank (h : ∀ c ∈ blanks, isBlank c = true) (a : List Char) :
    trimChars (a ++ blanks) = trimChars a := by
  have hdrop : dropBlanks (a ++ blanks) =
      if (dropBlanks a).isEmpty then dropBlanks blanks else dropBlanks a ++ blanks :=
    List.dropWhile_append
  unfold trimChars
  rw [hdrop]
  split
  next hempty =>
    have hblank : dropBlanks blanks = [] := by
      simpa [dropBlanks] using dropBlanks_append_of_all (b := []) (List.all_eq_true.mpr h)
    rw [hblank, List.isEmpty_iff.mp hempty]
  next => rw [dropEndBlanks_append_blank h]

theorem trimChars_eq_self (hfirst : ∀ c ∈ a.head?, isBlank c = false)
    (hlast : ∀ c ∈ a.getLast?, isBlank c = false) : trimChars a = a := by
  have hreverse : ∀ c ∈ a.reverse.head?, isBlank c = false := by
    rwa [List.head?_reverse]
  rw [trimChars, dropBlanks_eq_self hfirst, dropEndBlanks, dropBlanks_eq_self hreverse,
    List.reverse_reverse]

theorem trimChars_of_ends {c d : Char} {rest : List Char} (hc : isBlank c = false)
    (hd : isBlank d = false) (hfirst : a = c :: rest) (front : List Char)
    (hlast : a = front ++ [d]) : trimChars a = a :=
  trimChars_eq_self (by simpa [hfirst] using hc) (by simpa [hlast] using hd)

/-! ## What is dropped -/

theorem exists_dropBlanks (a : List Char) :
    ∃ front, (∀ c ∈ front, isBlank c = true) ∧ a = front ++ dropBlanks a :=
  ⟨a.takeWhile isBlank, List.all_eq_true.mp List.all_takeWhile,
    (List.takeWhile_append_dropWhile).symm⟩

theorem exists_dropEndBlanks (a : List Char) :
    ∃ back, (∀ c ∈ back, isBlank c = true) ∧ a = dropEndBlanks a ++ back := by
  obtain ⟨front, hfront, ha⟩ := exists_dropBlanks a.reverse
  refine ⟨front.reverse, fun c hc => hfront c (List.mem_reverse.mp hc), ?_⟩
  rw [dropEndBlanks, ← List.reverse_append, ← ha, List.reverse_reverse]

/-- Nothing but blanks is dropped. -/
theorem exists_trimChars (a : List Char) : ∃ front back, (∀ c ∈ front, isBlank c = true) ∧
    (∀ c ∈ back, isBlank c = true) ∧ a = front ++ (trimChars a ++ back) := by
  obtain ⟨front, hfront, ha⟩ := exists_dropBlanks a
  obtain ⟨back, hback, hdrop⟩ := exists_dropEndBlanks (dropBlanks a)
  exact ⟨front, back, hfront, hback, ha.trans (congrArg _ hdrop)⟩

theorem mem_of_mem_trimChars {c : Char} (h : c ∈ trimChars a) : c ∈ a := by
  obtain ⟨front, back, -, -, ha⟩ := exists_trimChars a
  rw [ha]
  exact List.mem_append_right _ (List.mem_append_left _ h)

theorem head?_dropBlanks (a : List Char) : ∀ c ∈ (dropBlanks a).head?, isBlank c = false := by
  intro c hc
  have hhead := List.head?_dropWhile_not isBlank a
  rw [show (a.dropWhile isBlank).head? = some c from hc] at hhead
  exact hhead

theorem getLast?_dropEndBlanks (a : List Char) :
    ∀ c ∈ (dropEndBlanks a).getLast?, isBlank c = false := by
  rw [dropEndBlanks, List.getLast?_reverse]
  exact head?_dropBlanks a.reverse

theorem getLast?_trimChars (a : List Char) : ∀ c ∈ (trimChars a).getLast?, isBlank c = false :=
  getLast?_dropEndBlanks (dropBlanks a)

theorem head?_trimChars (a : List Char) : ∀ c ∈ (trimChars a).head?, isBlank c = false := by
  intro c hc
  obtain ⟨back, -, hdrop⟩ := exists_dropEndBlanks (dropBlanks a)
  refine head?_dropBlanks a c ?_
  rw [hdrop, List.head?_append, show (dropEndBlanks (dropBlanks a)).head? = some c from hc]
  rfl

theorem trimChars_trimChars (a : List Char) : trimChars (trimChars a) = trimChars a :=
  trimChars_eq_self (head?_trimChars a) (getLast?_trimChars a)

theorem blank_of_trimChars (h : trimChars a = []) : ∀ c ∈ a, isBlank c = true := by
  obtain ⟨front, back, hfront, hback, ha⟩ := exists_trimChars a
  rw [ha, h, List.nil_append]
  exact fun c hc => (List.mem_append.mp hc).elim (hfront c) (hback c)

/-- Of a text that begins with something else nothing is dropped in front. -/
theorem exists_trimChars_append (h : ∀ c ∈ a.head?, isBlank c = false) :
    ∃ back, a = trimChars a ++ back := by
  obtain ⟨back, -, ha⟩ := exists_dropEndBlanks a
  refine ⟨back, ?_⟩
  rw [trimChars, dropBlanks_eq_self h]
  exact ha

theorem notMem_of_blank {c : Char} (hc : isBlank c = false) (h : ∀ x ∈ blanks, isBlank x = true) :
    c ∉ blanks :=
  fun hmem => absurd (h c hmem) (by simp [hc])

theorem trimChars_ne_nil {c : Char} (hmem : c ∈ a) (hc : isBlank c = false) : trimChars a ≠ [] :=
  fun hnil => notMem_of_blank hc (blank_of_trimChars hnil) hmem

/-- A first character that is not blank stays in front. -/
theorem head?_trimChars_of {c : Char} (h : a.head? = some c) (hc : isBlank c = false) :
    (trimChars a).head? = some c := by
  have hfirst : ∀ d ∈ a.head?, isBlank d = false := by
    rw [h]
    rintro _ ⟨⟩
    exact hc
  obtain ⟨back, hback⟩ := exists_trimChars_append hfirst
  obtain ⟨d, ds, hds⟩ :=
    List.exists_cons_of_ne_nil (trimChars_ne_nil (List.mem_of_mem_head? h) hc)
  rw [hback, hds] at h
  rw [hds]
  exact h

/-- A last character that is not blank stays at the end. -/
theorem getLast?_trimChars_of {c : Char} (h : a.getLast? = some c) (hc : isBlank c = false) :
    (trimChars a).getLast? = some c := by
  obtain ⟨front, back, -, hback, ha⟩ := exists_trimChars a
  have hne := trimChars_ne_nil (List.mem_of_getLast? h) hc
  rw [ha, List.getLast?_append, List.getLast?_append] at h
  cases hend : back.getLast? with
  | some d =>
    obtain rfl : d = c := by simpa [hend] using h
    exact absurd (List.mem_of_getLast? hend) (notMem_of_blank hc hback)
  | none =>
    cases hlast : (trimChars a).getLast? with
    | some d => simpa [hend, hlast] using h
    | none => exact absurd (List.getLast?_eq_none_iff.mp hlast) hne

theorem filter_of_blank (h : ∀ c ∈ blanks, isBlank c = true) :
    (blanks.filter fun c => !isBlank c) = [] :=
  List.filter_eq_nil_iff.mpr fun c hc => by simp [h c hc]

/-- All that is not blank stays. -/
theorem filter_trimChars (a : List Char) :
    ((trimChars a).filter fun c => !isBlank c) = a.filter fun c => !isBlank c := by
  obtain ⟨front, back, hfront, hback, ha⟩ := exists_trimChars a
  calc ((trimChars a).filter fun c => !isBlank c)
    _ = (front ++ (trimChars a ++ back)).filter fun c => !isBlank c := by
      simp [filter_of_blank hfront, filter_of_blank hback]
    _ = a.filter fun c => !isBlank c := by rw [← ha]

theorem dropEndBlanks_ne_nil {c : Char} (hmem : c ∈ a) (hc : isBlank c = false) :
    dropEndBlanks a ≠ [] := by
  obtain ⟨back, hback, ha⟩ := exists_dropEndBlanks a
  intro hnil
  rw [hnil, List.nil_append] at ha
  exact absurd (hback c (ha ▸ hmem)) (by simp [hc])

/-- A text keeps its front where something that is not blank follows. -/
theorem dropEndBlanks_append {b : List Char} (h : dropEndBlanks b ≠ []) (a : List Char) :
    dropEndBlanks (a ++ b) = a ++ dropEndBlanks b := by
  have hb : ¬ (dropBlanks b.reverse).isEmpty = true := by
    rw [List.isEmpty_iff, ← List.reverse_eq_nil_iff]
    exact h
  have hdrop : dropBlanks (b.reverse ++ a.reverse) = dropBlanks b.reverse ++ a.reverse :=
    (List.dropWhile_append).trans (if_neg hb)
  rw [dropEndBlanks, List.reverse_append, hdrop, List.reverse_append, List.reverse_reverse,
    dropEndBlanks]

/-! ## Words -/

theorem wordsFrom_of_none {word cs : List Char} (h : ∀ c ∈ cs, isBlank c = false)
    (hne : word ≠ [] ∨ cs ≠ []) : wordsFrom word cs = [word.reverse ++ cs] := by
  induction cs generalizing word with
  | nil =>
    have hword : word ≠ [] := hne.resolve_right fun hnil => hnil rfl
    simp [wordsFrom, hword]
  | cons c cs ih =>
    obtain ⟨hc, hcs⟩ := List.forall_mem_cons.mp h
    simp [wordsFrom, hc, ih hcs]

/-- A blank ends a word. -/
theorem wordsFrom_append_blank {word cs rest : List Char} {b : Char} (hb : isBlank b = true)
    (h : ∀ c ∈ cs, isBlank c = false) (hne : word ≠ [] ∨ cs ≠ []) :
    wordsFrom word (cs ++ b :: rest) = (word.reverse ++ cs) :: wordsFrom [] rest := by
  induction cs generalizing word with
  | nil =>
    have hword : word ≠ [] := hne.resolve_right fun hnil => hnil rfl
    simp [wordsFrom, hb, hword]
  | cons c cs ih =>
    obtain ⟨hc, hcs⟩ := List.forall_mem_cons.mp h
    simp [wordsFrom, hc, ih hcs]

end Qualification.Text
