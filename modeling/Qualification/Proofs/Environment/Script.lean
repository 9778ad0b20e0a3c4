import Qualification.Environment.Script
import Qualification.Proofs.Text.Blank
/-!
# Scripts read back

What a script is read as that sets and unsets variables, one change after the other, however the
values are quoted and whatever blanks and separators stand around the statements.

* `Passes`: a text without an end of a statement in it, and the quotes that are open before and
  after it; `statementsFrom_append_of_passes`: it is a part of one statement;
* `changesOf_gap_append`, `changesOf_append_gap`: what stands between statements;
* `statementChanges_assignment`, `statementChanges_unset` and the like: single statements;
* `Writes`, `Script`: how changes are written, one and many; `exists_script`: which ones can be;
* **`changes_of_script`**: they are read back.
-/

namespace Qualification.EnvScript

open Text

/-! ## Statements -/

/-- Whether a text has no end of a statement in it, where some quote is open before it and another
one after it. -/
inductive Passes : Option Char → List Char → Option Char → Prop
  | nil (quote : Option Char) : Passes quote [] quote
  | cons {quote after : Option Char} {c : Char} {cs : List Char}
      (hc : quote = none → isSeparator c = false) (hcs : Passes (quoteAfter quote c) cs after) :
      Passes quote (c :: cs) after

theorem Passes.append {q r s : Option Char} {a b : List Char} (ha : Passes q a r)
    (hb : Passes r b s) : Passes q (a ++ b) s := by
  induction ha with
  | nil => exact hb
  | cons hc _ ih => exact .cons hc (ih hb)

theorem statementsFrom_ne_nil (quote : Option Char) (cs : List Char) :
    statementsFrom quote cs ≠ [] := by
  cases cs with
  | nil => simp [statementsFrom]
  | cons c cs =>
    simp only [statementsFrom]
    split
    · simp
    · split <;> simp

/-- **A text without an end of a statement belongs to the first statement** of what follows it. -/
theorem statementsFrom_append_of_passes {q r : Option Char} {a : List Char} (h : Passes q a r)
    (b : List Char) : statementsFrom q (a ++ b) = (statementsFrom r b).modifyHead (a ++ ·) := by
  obtain ⟨s, ss, hb⟩ := List.exists_cons_of_ne_nil (statementsFrom_ne_nil r b)
  induction h with
  | nil => simp [hb]
  | @cons q r c cs hc _ ih =>
    have hinside : (q.isNone && isSeparator c) = false := by
      cases q with
      | none => simpa using hc rfl
      | some _ => rfl
    simp [statementsFrom, hinside, ih hb, hb]

theorem not_isSeparator_of_isQuote {c : Char} (h : isQuote c = true) : isSeparator c = false := by
  simp only [isQuote, Bool.or_eq_true, beq_iff_eq] at h
  rcases h with rfl | rfl
  · decide
  · decide

/-- Whether a text holds neither quotes nor separators. -/
def IsPlain (cs : List Char) : Prop := ∀ c ∈ cs, isQuote c = false ∧ isSeparator c = false

-- Only the characters of the text are looked at, and not all that there are.
instance (cs : List Char) : Decidable (IsPlain cs) := List.decidableBAll _ cs

theorem passes_of_plain {cs : List Char} (h : IsPlain cs) : Passes none cs none := by
  induction cs with
  | nil => exact .nil none
  | cons c cs ih =>
    obtain ⟨⟨hquote, hsep⟩, hcs⟩ := List.forall_mem_cons.mp h
    refine .cons (fun _ => hsep) ?_
    rw [quoteAfter, hquote]
    exact ih hcs

theorem passes_inside {q : Char} {value : List Char} (h : q ∉ value) :
    Passes (some q) value (some q) := by
  induction value with
  | nil => exact .nil (some q)
  | cons c value ih =>
    refine .cons (fun hnone => nomatch hnone) ?_
    rw [List.mem_cons, not_or] at h
    rw [quoteAfter, if_neg (Ne.symm h.1)]
    exact ih h.2

/-- **Quotes are closed at the end of a quoted value**, whatever other separators it holds. -/
theorem passes_quoted {q : Char} {value : List Char} (hq : isQuote q = true) (h : q ∉ value) :
    Passes none (q :: (value ++ [q])) none := by
  refine .cons (fun _ => not_isSeparator_of_isQuote hq) ?_
  rw [quoteAfter, if_pos hq]
  refine (passes_inside h).append (.cons (fun hnone => nomatch hnone) ?_)
  rw [quoteAfter, if_pos rfl]
  exact .nil none

/-! ## What stands between statements -/

/-- The changes of a script, by its characters. -/
def changesOf (script : List Char) : List EnvChange :=
  (statements script).flatMap statementChanges

/-- Whether a text holds nothing but blanks and separators. -/
def IsGap (cs : List Char) : Prop := ∀ c ∈ cs, isBlank c = true ∨ isSeparator c = true

instance (cs : List Char) : Decidable (IsGap cs) := List.decidableBAll _ cs

theorem statementChanges_append_blank {blanks : List Char} (h : ∀ c ∈ blanks, isBlank c = true)
    (s : List Char) : statementChanges (s ++ blanks) = statementChanges s := by
  unfold statementChanges
  rw [trimChars_append_blank h]

theorem not_isQuote_of_isBlank {c : Char} (h : isBlank c = true) : isQuote c = false := by
  rw [Bool.eq_false_iff]
  intro hquote
  simp only [isQuote, Bool.or_eq_true, beq_iff_eq] at hquote
  rcases hquote with rfl | rfl
  · exact absurd h (by decide)
  · exact absurd h (by decide)

theorem changesOf_separator {c : Char} (h : isSeparator c = true) (cs : List Char) :
    changesOf (c :: cs) = changesOf cs := by
  have hnil : statementChanges [] = [] := by decide
  simp [changesOf, statements, statementsFrom, h, hnil]

theorem changesOf_blank {c : Char} (h : isBlank c = true) (hsep : isSeparator c = false)
    (cs : List Char) : changesOf (c :: cs) = changesOf cs := by
  have hpasses : Passes none [c] none :=
    passes_of_plain (by simpa [IsPlain] using ⟨not_isQuote_of_isBlank h, hsep⟩)
  have hsplit : statements (c :: cs) = (statements cs).modifyHead ([c] ++ ·) :=
    statementsFrom_append_of_passes hpasses cs
  obtain ⟨s, ss, hcs⟩ := List.exists_cons_of_ne_nil (statementsFrom_ne_nil none cs)
  have hsame : statementChanges ([c] ++ s) = statementChanges s := by
    unfold statementChanges
    rw [trimChars_blank_append (by simpa using h)]
  rw [changesOf, hsplit, changesOf, statements, hcs, List.modifyHead_cons, List.flatMap_cons, hsame,
    List.flatMap_cons]

/-- **What stands before statements is not read.** -/
theorem changesOf_gap_append {gap : List Char} (h : IsGap gap) (cs : List Char) :
    changesOf (gap ++ cs) = changesOf cs := by
  induction gap with
  | nil => rfl
  | cons c gap ih =>
    obtain ⟨hc, hgap⟩ := List.forall_mem_cons.mp h
    rw [List.cons_append]
    cases hsep : isSeparator c with
    | true => rw [changesOf_separator hsep, ih hgap]
    | false =>
      have hblank : isBlank c = true := hc.resolve_right (by simp [hsep])
      rw [changesOf_blank hblank hsep, ih hgap]

theorem changesOf_nil : changesOf [] = [] := by decide

/-- **A statement is read by itself** where it is separated from what follows it. -/
theorem changesOf_append_gap {s gap : List Char} (hs : Passes none s none) (hgap : IsGap gap)
    {rest : List Char} (hend : (∃ c ∈ gap, isSeparator c = true) ∨ rest = []) :
    changesOf (s ++ (gap ++ rest)) = statementChanges s ++ changesOf rest := by
  have hblank : ∀ {blanks : List Char}, (∀ c ∈ blanks, c ∈ gap) →
      (∀ c ∈ blanks, isSeparator c = false) → (∀ c ∈ blanks, isBlank c = true) ∧
        Passes none (s ++ blanks) none := by
    intro blanks hmem hsep
    have hall : ∀ c ∈ blanks, isBlank c = true := fun c hc =>
      (hgap c (hmem c hc)).resolve_right (by simp [hsep c hc])
    exact ⟨hall, hs.append (passes_of_plain fun c hc =>
      ⟨not_isQuote_of_isBlank (hall c hc), hsep c hc⟩)⟩
  cases hcut : cutAt? isSeparator gap with
  | some parts =>
    -- The first separator ends the statement, and the rest of the gap stands before what follows.
    obtain ⟨blanks, more⟩ := parts
    obtain ⟨c, hc, rfl, hblanks⟩ := cutAt?_eq_some hcut
    obtain ⟨hall, hpasses⟩ := hblank (fun c hc => by simp [hc]) hblanks
    have hmore : IsGap more := fun c hc => hgap c (by simp [hc])
    have hsplit : statements ((s ++ blanks) ++ c :: (more ++ rest)) =
        (s ++ blanks) :: statements (more ++ rest) := by
      rw [statements, statementsFrom_append_of_passes hpasses]
      simp [statementsFrom, hc, statements]
    have htext : s ++ (blanks ++ c :: more ++ rest) = (s ++ blanks) ++ c :: (more ++ rest) := by
      simp
    rw [htext, changesOf, hsplit, List.flatMap_cons, statementChanges_append_blank hall,
      ← changesOf_gap_append hmore rest, changesOf]
  | none =>
    have hsep := cutAt?_eq_none.mp hcut
    obtain ⟨hall, hpasses⟩ := hblank (fun _ hc => hc) hsep
    have hrest : rest = [] := by
      rcases hend with ⟨c, hc, hcsep⟩ | hrest
      · rw [hsep c hc] at hcsep
        cases hcsep
      · exact hrest
    have hwhole : statements (s ++ gap) = [s ++ gap] := by
      simpa [statements, statementsFrom] using statementsFrom_append_of_passes hpasses []
    rw [hrest, List.append_nil, changesOf, hwhole, changesOf_nil]
    simp [statementChanges_append_blank hall]

/-! ## Single statements -/

/-- A character of a name is none of those that have a meaning of their own. -/
theorem of_nameChar {c : Char} (h : (c.isAlphanum || c == '_') = true) :
    isBlank c = false ∧ isQuote c = false ∧ isSeparator c = false ∧ c ≠ '=' ∧ c ≠ '-' := by
  have hcodes : c.isAlphanum = ((decide (65 ≤ c.val ∧ c.val ≤ 90) ||
      decide (97 ≤ c.val) && decide (c.val ≤ 122)) ||
      decide (48 ≤ c.val) && decide (c.val ≤ 57)) := rfl
  simp only [hcodes, Bool.or_eq_true, Bool.and_eq_true, decide_eq_true_eq, beq_iff_eq] at h
  change (((65 ≤ c.toNat ∧ c.toNat ≤ 90) ∨ 97 ≤ c.toNat ∧ c.toNat ≤ 122) ∨
    48 ≤ c.toNat ∧ c.toNat ≤ 57) ∨ c = '_' at h
  have hne : ∀ d : Char, c.toNat ≠ d.toNat → c ≠ d := fun d hd hcd => hd (congrArg Char.toNat hcd)
  have hother : (c == '\'') = false ∧ (c == '"') = false ∧ (c == ';') = false ∧
      (c == '\n') = false ∧ c ≠ '=' ∧ c ≠ '-' := by
    simp only [beq_eq_false_iff_ne]
    rcases h with h | rfl
    · refine ⟨hne _ ?_, hne _ ?_, hne _ ?_, hne _ ?_, hne _ ?_, hne _ ?_⟩
      all_goals simp only [Char.reduceToNat]; omega
    · decide
  have hblank : isBlank c = false := by
    rcases h with h | rfl
    · simp [isBlank]
      omega
    · decide
  simp [isQuote, isSeparator, hother, hblank]

theorem nameChar_of_mem {name : List Char} (h : isIdentifier name = true) {c : Char}
    (hc : c ∈ name) : (c.isAlphanum || c == '_') = true := by
  cases name with
  | nil => cases hc
  | cons d ds =>
    simp only [isIdentifier, Bool.and_eq_true, List.all_eq_true] at h
    rcases List.mem_cons.mp hc with rfl | hc
    · simp only [Char.isAlphanum]
      grind
    · exact h.2 c hc

section Name

variable {name : List Char} (hname : isIdentifier name = true)

include hname

theorem exists_name : ∃ c cs, name = c :: cs ∧ isBlank c = false ∧ c ≠ '-' := by
  cases name with
  | nil => cases hname
  | cons c cs =>
    obtain ⟨hblank, -, -, -, hdash⟩ := of_nameChar (nameChar_of_mem hname List.mem_cons_self)
    exact ⟨c, cs, rfl, hblank, hdash⟩

theorem not_isEquals_of_mem {c : Char} (hc : c ∈ name) : (c == '=') = false := by
  obtain ⟨-, -, -, heq, -⟩ := of_nameChar (nameChar_of_mem hname hc)
  simpa using heq

theorem passes_name : Passes none name none := by
  refine passes_of_plain fun c hc => ?_
  obtain ⟨-, hquote, hsep, -⟩ := of_nameChar (nameChar_of_mem hname hc)
  exact ⟨hquote, hsep⟩

theorem trimChars_name : trimChars name = name :=
  trimChars_eq_self
    (fun _ hc => (of_nameChar (nameChar_of_mem hname (List.mem_of_mem_head? hc))).1)
    (fun _ hc => (of_nameChar (nameChar_of_mem hname (List.mem_of_getLast? hc))).1)

/-- A name with a value is not taken for another statement that begins with a word. -/
theorem dropPrefix?_name (word : List Char) (hword : '=' ∉ word ∧ ' ' ∉ word)
    (rest : List Char) : dropPrefix? (word ++ [' ']) (name ++ '=' :: rest) = none := by
  cases hdrop : dropPrefix? (word ++ [' ']) (name ++ '=' :: rest) with
  | none => rfl
  | some r =>
    -- The first blank or equals sign is a blank in the one and an equals sign in the other.
    have hfirst := congrArg (List.dropWhile fun c => c != ' ' && c != '=')
      (dropPrefix?_eq_some.mp hdrop)
    have hnameChars : ∀ c ∈ name, (c != ' ' && c != '=') = true := by
      intro c hc
      obtain ⟨hblank, -, -, heq, -⟩ := of_nameChar (nameChar_of_mem hname hc)
      have hspace : c ≠ ' ' := by
        rintro rfl
        rw [isBlank_space] at hblank
        cases hblank
      simp [heq, hspace]
    have hwordChars : ∀ c ∈ word, (c != ' ' && c != '=') = true := by
      intro c hc
      have hspace : c ≠ ' ' := fun h => hword.2 (h ▸ hc)
      have heq : c ≠ '=' := fun h => hword.1 (h ▸ hc)
      simp [heq, hspace]
    rw [List.append_assoc, List.dropWhile_append_of_pos hnameChars,
      List.dropWhile_append_of_pos hwordChars] at hfirst
    simp at hfirst

end Name

section Assignment

/-- A value between quotes. -/
def quoted (q : Char) (value : List Char) : List Char := q :: (value ++ [q])

/-- A name with a value between quotes. -/
def assignment (name : List Char) (q : Char) (value : List Char) : List Char :=
  name ++ '=' :: quoted q value

variable {name : List Char} (hname : isIdentifier name = true) {q : Char} (hq : isQuote q = true)
  {value : List Char}

include hq in
theorem not_isBlank_of_isQuote : isBlank q = false := by
  simp only [isQuote, Bool.or_eq_true, beq_iff_eq] at hq
  rcases hq with rfl | rfl
  · decide
  · decide

include hq in
theorem unquote_quoted (value : List Char) : unquote (quoted q value) = value := by
  have hwithin : dropSuffix? [q] (value ++ [q]) = some value := by
    simp [dropSuffix?, dropPrefix?]
  simp only [isQuote, Bool.or_eq_true, beq_iff_eq] at hq
  rcases hq with rfl | rfl
  · simp [unquote, quoted, dropPrefix?, hwithin]
  · simp [unquote, quoted, dropPrefix?, hwithin]

include hq in
theorem trimChars_quoted (value : List Char) : trimChars (quoted q value) = quoted q value :=
  have hblank := not_isBlank_of_isQuote hq
  trimChars_of_ends hblank hblank rfl (q :: value) rfl

include hname hq in
theorem trimChars_assignment (value : List Char) :
    trimChars (assignment name q value) = assignment name q value := by
  obtain ⟨c, cs, rfl, hblank, -⟩ := exists_name hname
  exact trimChars_of_ends hblank (not_isBlank_of_isQuote hq) rfl (c :: cs ++ '=' :: q :: value)
    (by simp [assignment, quoted])

include hname hq in
theorem passes_assignment (hvalue : q ∉ value) : Passes none (assignment name q value) none := by
  have hequals : Passes none ['='] none := passes_of_plain (by decide)
  exact (passes_name hname).append (hequals.append (passes_quoted hq hvalue))

include hname hq in
/-- What is read of a statement that sets a variable. -/
theorem statementChanges_of_assignment {s : List Char}
    (hunset : dropPrefix? "unset ".toList (trimChars s) = none)
    (hset : trimChars ((dropPrefix? "export ".toList (trimChars s)).getD (trimChars s)) =
      assignment name q value) :
    statementChanges s = [.set (String.ofList name) (String.ofList value)] := by
  have hcut : cutAt? (· == '=') (assignment name q value) = some (name, quoted q value) :=
    cutAt?_append_cons (fun _ hc => not_isEquals_of_mem hname hc) rfl (quoted q value)
  unfold statementChanges
  simp only [hunset, hset, hcut, hname, if_true, trimChars_quoted hq, unquote_quoted hq]

include hname hq in
theorem statementChanges_assignment (value : List Char) :
    statementChanges (assignment name q value) =
      [.set (String.ofList name) (String.ofList value)] := by
  have hunset : dropPrefix? "unset ".toList (assignment name q value) = none :=
    dropPrefix?_name hname "unset".toList (by decide) _
  have hexport : dropPrefix? "export ".toList (assignment name q value) = none :=
    dropPrefix?_name hname "export".toList (by decide) _
  refine statementChanges_of_assignment hname hq ?_ ?_
  · rwa [trimChars_assignment hname hq]
  · rw [trimChars_assignment hname hq, hexport, Option.getD_none, trimChars_assignment hname hq]

include hname hq in
theorem statementChanges_exported (value : List Char) :
    statementChanges ("export ".toList ++ assignment name q value) =
      [.set (String.ofList name) (String.ofList value)] := by
  have htrim : trimChars ("export ".toList ++ assignment name q value) =
      "export ".toList ++ assignment name q value :=
    trimChars_of_ends (c := 'e') (by decide) (not_isBlank_of_isQuote hq) rfl
      ("export ".toList ++ (name ++ '=' :: q :: value)) (by simp [assignment, quoted])
  have hexport : dropPrefix? "export ".toList ("export ".toList ++ assignment name q value) =
      some (assignment name q value) := dropPrefix?_eq_some.mpr rfl
  refine statementChanges_of_assignment hname hq ?_ ?_
  · rw [htrim]
    rfl
  · rw [htrim, hexport, Option.getD_some, trimChars_assignment hname hq]

end Assignment

section Word

variable {name : List Char} (hname : isIdentifier name = true)

include hname

theorem trimChars_word {c : Char} {word : List Char} (hc : isBlank c = false) :
    trimChars (c :: (word ++ name)) = c :: (word ++ name) := by
  have hne : name ≠ [] := by
    rintro rfl
    cases hname
  have hlast := (of_nameChar (nameChar_of_mem hname (List.getLast_mem hne))).1
  exact trimChars_of_ends hc hlast rfl (c :: (word ++ name.dropLast))
    (by simp [List.dropLast_concat_getLast hne])

/-- That a variable is exported changes nothing. -/
theorem statementChanges_export : statementChanges ("export ".toList ++ name) = [] := by
  have htrim : trimChars ("export ".toList ++ name) = "export ".toList ++ name :=
    trimChars_word hname (c := 'e') (by decide)
  have hunset : dropPrefix? "unset ".toList ("export ".toList ++ name) = none := rfl
  have hexport : dropPrefix? "export ".toList ("export ".toList ++ name) = some name :=
    dropPrefix?_eq_some.mpr rfl
  have hcut : cutAt? (· == '=') name = none :=
    cutAt?_eq_none.mpr fun _ hc => not_isEquals_of_mem hname hc
  unfold statementChanges
  simp only [htrim, hunset, hexport, Option.getD_some, trimChars_name hname, hcut]

theorem statementChanges_unset :
    statementChanges ("unset ".toList ++ name) = [.unset (String.ofList name)] := by
  have htrim : trimChars ("unset ".toList ++ name) = "unset ".toList ++ name :=
    trimChars_word hname (c := 'u') (by decide)
  have hunset : dropPrefix? "unset ".toList ("unset ".toList ++ name) = some name :=
    dropPrefix?_eq_some.mpr rfl
  obtain ⟨c, cs, rfl, -, hdash⟩ := exists_name hname
  have hwords : wordsFrom [] (c :: cs) = [c :: cs] := by
    refine wordsFrom_of_none (fun d hd => ?_) (.inr (List.cons_ne_nil c cs))
    exact (of_nameChar (nameChar_of_mem hname hd)).1
  unfold statementChanges
  simp only [htrim, hunset, hwords]
  rw [List.filter_cons_of_pos (by simpa using hdash)]
  rfl

end Word

/-! ## Changes as they are written -/

/-- How a change is written: a value between single quotes with the variable exported after it, a
value between double quotes, also of a variable that is exported at once, or a variable that is
unset. -/
inductive Writes : EnvChange → List Char → Prop
  | single {name value : String} {gap : List Char} (hname : isIdentifier name.toList = true)
      (hvalue : '\'' ∉ value.toList) (hgap : IsGap gap) (hsep : ∃ c ∈ gap, isSeparator c = true) :
      Writes (.set name value) (assignment name.toList '\'' value.toList ++
        (gap ++ ("export ".toList ++ name.toList)))
  | double {name value : String} (hname : isIdentifier name.toList = true)
      (hvalue : '"' ∉ value.toList) :
      Writes (.set name value) (assignment name.toList '"' value.toList)
  | exported {name value : String} (hname : isIdentifier name.toList = true)
      (hvalue : '"' ∉ value.toList) :
      Writes (.set name value) ("export ".toList ++ assignment name.toList '"' value.toList)
  | unset {name : String} (hname : isIdentifier name.toList = true) :
      Writes (.unset name) ("unset ".toList ++ name.toList)

/-- How changes are written, one after the other: separated by gaps with a separator in them, and
with any gaps before the first and after the last one. -/
inductive Script : List EnvChange → List Char → Prop
  | nil : Script [] []
  | gap {cs : List EnvChange} {gap text : List Char} (hgap : IsGap gap) (h : Script cs text) :
      Script cs (gap ++ text)
  | last {c : EnvChange} {s gap : List Char} (hs : Writes c s) (hgap : IsGap gap) :
      Script [c] (s ++ gap)
  | cons {c : EnvChange} {cs : List EnvChange} {s gap text : List Char} (hs : Writes c s)
      (hgap : IsGap gap) (hsep : ∃ d ∈ gap, isSeparator d = true) (h : Script cs text) :
      Script (c :: cs) (s ++ (gap ++ text))

/-- **A change that is written is read** where it is separated from what follows it. -/
theorem changesOf_append_of_writes {c : EnvChange} {s gap rest : List Char} (hs : Writes c s)
    (hgap : IsGap gap) (hend : (∃ d ∈ gap, isSeparator d = true) ∨ rest = []) :
    changesOf (s ++ (gap ++ rest)) = c :: changesOf rest := by
  have hplain : ∀ word : List Char, IsPlain word →
      ∀ {name : List Char}, isIdentifier name = true → Passes none (word ++ name) none :=
    fun word hword _ hname => (passes_of_plain hword).append (passes_name hname)
  cases hs with
  | single hname hvalue hinner hsep =>
    rw [List.append_assoc, List.append_assoc,
      changesOf_append_gap (passes_assignment hname (by decide) hvalue) hinner (.inl hsep),
      changesOf_append_gap (hplain _ (by decide) hname) hgap hend,
      statementChanges_assignment hname (by decide), statementChanges_export hname]
    simp
  | double hname hvalue =>
    rw [changesOf_append_gap (passes_assignment hname (by decide) hvalue) hgap hend,
      statementChanges_assignment hname (by decide)]
    simp
  | exported hname hvalue =>
    have hword : Passes none "export ".toList none := passes_of_plain (by decide)
    rw [changesOf_append_gap (hword.append (passes_assignment hname (by decide) hvalue)) hgap hend,
      statementChanges_exported hname (by decide)]
    simp
  | unset hname =>
    rw [changesOf_append_gap (hplain _ (by decide) hname) hgap hend,
      statementChanges_unset hname]
    simp

/-- Whether a change can be written: its name is one of variables, and its value does without one of
the quotes. -/
def Writable : EnvChange → Prop
  | .set name value => isIdentifier name.toList = true ∧ ('\'' ∉ value.toList ∨ '"' ∉ value.toList)
  | .unset name => isIdentifier name.toList = true

theorem isGap_semicolon : IsGap [';'] ∧ ∃ c ∈ [';'], isSeparator c = true :=
  ⟨by decide, ';', by decide, by decide⟩

theorem exists_writes {c : EnvChange} (h : Writable c) : ∃ s, Writes c s := by
  cases c with
  | set name value =>
    obtain ⟨hname, hvalue | hvalue⟩ := h
    · exact ⟨_, .single hname hvalue isGap_semicolon.1 isGap_semicolon.2⟩
    · exact ⟨_, .double hname hvalue⟩
  | unset name => exact ⟨_, .unset h⟩

/-- Changes can be written if each of them can. -/
theorem exists_script {cs : List EnvChange} (h : ∀ c ∈ cs, Writable c) :
    ∃ text : String, Script cs text.toList := by
  suffices hchars : ∃ text, Script cs text by
    obtain ⟨text, htext⟩ := hchars
    exact ⟨String.ofList text, by rwa [String.toList_ofList]⟩
  induction cs with
  | nil => exact ⟨[], .nil⟩
  | cons c cs ih =>
    obtain ⟨hc, hcs⟩ := List.forall_mem_cons.mp h
    obtain ⟨s, hs⟩ := exists_writes hc
    obtain ⟨text, htext⟩ := ih hcs
    exact ⟨_, .cons hs isGap_semicolon.1 isGap_semicolon.2 htext⟩

/-- **Changes that are written are read back**, all of them and in order, whatever the values hold:
nothing, separators, equals signs, blanks at the ends or the other quotes. -/
theorem changes_of_script {cs : List EnvChange} {text : String} (h : Script cs text.toList) :
    changes text = cs := by
  change changesOf text.toList = cs
  generalize text.toList = chars at h
  induction h with
  | nil => exact changesOf_nil
  | gap hgap _ ih => rw [changesOf_gap_append hgap, ih]
  | last hs hgap =>
    rw [← List.append_nil (_ ++ _), List.append_assoc,
      changesOf_append_of_writes hs hgap (.inr rfl), changesOf_nil]
  | cons hs hgap hsep _ ih => rw [changesOf_append_of_writes hs hgap (.inl hsep), ih]

/-- Values with separators, the other quotes and blanks in them, and one with nothing in it. -/
theorem changes_of_script_strangeValues :
    let cs : List EnvChange := [.set "FLAGS" " -a;-b=\"c\"\n", .set "EMPTY" "",
      .unset "LD_PRELOAD", .set "MOTD" "it's;"]
    let text := " FLAGS=' -a;-b=\"c\"\n'\t; export FLAGS;\nexport EMPTY=\"\"\n" ++
      "unset LD_PRELOAD ;MOTD=\"it's;\" "
    Script cs text.toList ∧ changes text = cs := by
  intro cs text
  have htext : text.toList = [' '] ++ ((assignment "FLAGS".toList '\'' " -a;-b=\"c\"\n".toList ++
      ("\t; ".toList ++ ("export ".toList ++ "FLAGS".toList))) ++ (";\n".toList ++
      ("export ".toList ++ assignment "EMPTY".toList '"' "".toList ++ ("\n".toList ++
      ("unset ".toList ++ "LD_PRELOAD".toList ++ (" ;".toList ++
      (assignment "MOTD".toList '"' "it's;".toList ++ [' ']))))))) := by decide +kernel
  have hscript : Script cs text.toList := by
    rw [htext]
    refine .gap ?_ (.cons (.single ?_ ?_ ?_ ⟨';', ?_⟩) ?_ ⟨';', ?_⟩
      (.cons (.exported ?_ ?_) ?_ ⟨'\n', ?_⟩ (.cons (.unset ?_) ?_ ⟨';', ?_⟩
      (.last (.double ?_ ?_) ?_))))
    all_goals decide +kernel
  exact ⟨hscript, changes_of_script hscript⟩

end Qualification.EnvScript
