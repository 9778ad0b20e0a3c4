import Qualification.Section.Title
import Qualification.Proofs.Text.Blank
/-!
# Section titles in normal form

A title is read in two cuts, at the first blank and at the first colon, and what stands between them
is trimmed. What comes out can be written again, and reads back as the same.

* `Qualifier.Heads`, `Title.qualifier_parse_eq_some_iff`: the texts that read as titles with a
  qualifier;
* `Title.splitQualifier_eq_some_iff`, `Title.splitName_of_colon`, `Title.splitName_trimChars`: the
  two cuts;
* `Title.Settled`: the titles that texts read as, `Title.settled_parse`;
* `Title.Spacing`, `Title.writtenWith`: titles written with more blanks than needed;
* `Title.parse_writtenWith`: such a text reads as the title that it was written for;
* **`Title.normal_form`**: a title that was read is the one that its written form reads as.
-/

namespace Qualification

open Text

/-! ## Keys with a qualifier -/

/-- Whether a text begins, after blanks, with the word of a qualifier and a blank. -/
def Qualifier.Heads (q : Qualifier) (text : String) : Prop :=
  ∃ c rest, Text.isBlank c = true ∧ Text.trimChars text.toList = q.word.toList ++ c :: rest

namespace Qualifier

theorem ofWord?_eq_some_iff {w : List Char} {q : Qualifier} :
    ofWord? w = some q ↔ w = q.word.toList := by
  constructor
  · intro h
    unfold ofWord? at h
    split at h
    next hskip =>
      cases h
      exact hskip
    next =>
      split at h
      next hstop =>
        cases h
        exact hstop
      next => cases h
  · rintro rfl
    cases q <;> decide

theorem isBlank_of_mem_word {q : Qualifier} {c : Char} (h : c ∈ q.word.toList) :
    isBlank c = false := by
  have hall : q.word.toList.all (fun x => !isBlank x) = true := by cases q <;> decide
  exact Bool.not_eq_true' _ ▸ List.all_eq_true.mp hall c h

theorem colon_notMem_word (q : Qualifier) : ':' ∉ q.word.toList := by
  cases q <;> decide

theorem word_ne_nil (q : Qualifier) : q.word.toList ≠ [] := by
  cases q <;> decide

end Qualifier

namespace Title

variable {cs rest stage name : List Char} {q : Qualifier}

/-! ## The cut at the first blank -/

theorem splitQualifier_eq_some_iff : splitQualifier cs = (some q, rest) ↔
    ∃ c, isBlank c = true ∧ cs = q.word.toList ++ c :: rest := by
  constructor
  · intro h
    rw [splitQualifier] at h
    split at h
    next w r hcut =>
      obtain ⟨c, hc, hcs, -⟩ := cutAt?_eq_some hcut
      split at h
      next q' hword =>
        cases h
        exact ⟨c, hc, by rw [hcs, Qualifier.ofWord?_eq_some_iff.mp hword]⟩
      next => cases h
    next => cases h
  · rintro ⟨c, hc, rfl⟩
    rw [splitQualifier, cutAt?_append_cons (fun _ => Qualifier.isBlank_of_mem_word) hc]
    simp only [Qualifier.ofWord?_eq_some_iff.mpr rfl]

theorem splitQualifier_of_fst (h : (splitQualifier cs).1 = none) :
    splitQualifier cs = (none, cs) := by
  revert h
  rw [splitQualifier]
  split
  next =>
    split
    next => exact fun h => nomatch h
    next => exact fun _ => rfl
  next => exact fun _ => rfl

theorem fst_splitQualifier_eq_none_iff : (splitQualifier cs).1 = none ↔
    ∀ (q : Qualifier) (c : Char) (rest : List Char), isBlank c = true →
      cs ≠ q.word.toList ++ c :: rest := by
  constructor
  · intro h q c rest hc hcs
    rw [splitQualifier_eq_some_iff.mpr ⟨c, hc, hcs⟩] at h
    cases h
  · intro h
    rcases hsplit : splitQualifier cs with ⟨_ | q, rest⟩
    · rfl
    · obtain ⟨c, hc, hcs⟩ := splitQualifier_eq_some_iff.mp hsplit
      exact absurd hcs (h q c rest hc)

/-- **The titles with a qualifier** begin with it. -/
theorem qualifier_parse_eq_some_iff {title : String} {q : Qualifier} :
    (parse title).qualifier = some q ↔ q.Heads title := by
  have hparse : (parse title).qualifier = (splitQualifier (trimChars title.toList)).1 := rfl
  rw [hparse]
  constructor
  · intro h
    obtain ⟨c, hc, htitle⟩ := splitQualifier_eq_some_iff.mp (Prod.ext h rfl)
    exact ⟨c, _, hc, htitle⟩
  · rintro ⟨c, rest, hc, htitle⟩
    rw [splitQualifier_eq_some_iff.mpr ⟨c, hc, htitle⟩]

theorem qualifier_parse_eq_none_iff {title : String} :
    (parse title).qualifier = none ↔ ∀ q : Qualifier, ¬ q.Heads title := by
  simp [Option.eq_none_iff_forall_ne_some, qualifier_parse_eq_some_iff]

/-! ## The cut at the first colon -/

theorem splitName_of_colon (h : ':' ∉ stage) (name : List Char) :
    splitName (stage ++ ':' :: name) =
      (String.ofList (trimChars stage), some (String.ofList (trimChars name))) := by
  have hcut : cutAt? (· == ':') (stage ++ ':' :: name) = some (stage, name) :=
    cutAt?_append_cons (fun c hc => by simpa using fun heq : c = ':' => h (heq ▸ hc)) rfl name
  rw [splitName, hcut]

theorem splitName_of_plain (h : ':' ∉ cs) :
    splitName cs = (String.ofList (trimChars cs), none) := by
  have hcut : cutAt? (· == ':') cs = none :=
    cutAt?_eq_none.mpr fun c hc => by simpa using fun heq : c = ':' => h (heq ▸ hc)
  rw [splitName, hcut]

/-- A text has a first colon, or none. -/
theorem colon_cases (cs : List Char) :
    (∃ stage name, ':' ∉ stage ∧ cs = stage ++ ':' :: name) ∨ ':' ∉ cs := by
  by_cases h : ':' ∈ cs
  · obtain ⟨stage, name, hcs, hstage⟩ := List.eq_append_cons_of_mem h
    exact .inl ⟨stage, name, hstage, hcs⟩
  · exact .inr h

/-- Blanks at the ends do not matter. -/
theorem splitName_trimChars (cs : List Char) : splitName (trimChars cs) = splitName cs := by
  obtain ⟨front, back, hfront, hback, hcs⟩ := exists_trimChars cs
  rcases colon_cases (trimChars cs) with ⟨stage, name, hstage, htrim⟩ | hplain
  · have hleft : ':' ∉ front ++ stage := by
      simp [notMem_of_blank not_isBlank_colon hfront, hstage]
    have hwhole : cs = (front ++ stage) ++ ':' :: (name ++ back) := by
      rw [hcs, htrim]
      simp
    rw [htrim, splitName_of_colon hstage, hwhole, splitName_of_colon hleft,
      trimChars_blank_append hfront, trimChars_append_blank hback]
  · have hall : ':' ∉ cs := by
      rw [hcs]
      simp [notMem_of_blank not_isBlank_colon hfront, notMem_of_blank not_isBlank_colon hback,
        hplain]
    rw [splitName_of_plain hplain, splitName_of_plain hall, trimChars_trimChars]

/-! ## What a text reads as -/

/-- A title of trimmed parts that can be told apart: there is no colon in the stage, and something
follows a qualifier. -/
structure Trimmed (t : Title) : Prop where
  stage : trim t.stage = t.stage
  colon : ':' ∉ t.stage.toList
  follows : t.qualifier.isSome → t.name = none → t.stage ≠ ""
  name : ∀ n ∈ t.name, trim n = n

/-- The titles that texts read as: the stage does not begin as a qualifier does. -/
structure Settled (t : Title) : Prop extends Trimmed t where
  headless : t.qualifier = none → ∀ q : Qualifier, ¬ q.Heads t.stage

/-- The titles whose stages have no qualifier for their first word. -/
structure Proper (t : Title) : Prop extends Trimmed t where
  first : t.qualifier = none → ∀ q : Qualifier, (words t.stage).head? ≠ some q.word

theorem toList_of_trim {s : String} (h : trim s = s) : trimChars s.toList = s.toList := by
  rw [← String.toList_ofList (l := trimChars s.toList)]
  exact congrArg String.toList h

theorem trim_ofList_trimChars (cs : List Char) :
    trim (String.ofList (trimChars cs)) = String.ofList (trimChars cs) := by
  rw [trim, String.toList_ofList, trimChars_trimChars]

/-- The stage is what stands in front of the colon, without the blanks around it. -/
theorem exists_fst_splitName (cs : List Char) : ∃ stage more, cs = stage ++ more ∧
    ':' ∉ stage ∧ (splitName cs).1 = String.ofList (trimChars stage) := by
  rcases colon_cases cs with ⟨stage, name, hstage, rfl⟩ | hplain
  · exact ⟨stage, ':' :: name, rfl, hstage, by rw [splitName_of_colon hstage]⟩
  · exact ⟨cs, [], (List.append_nil cs).symm, hplain, by rw [splitName_of_plain hplain]⟩

theorem trim_snd_splitName (cs : List Char) : ∀ n ∈ (splitName cs).2, trim n = n := by
  rcases colon_cases cs with ⟨stage, name, hstage, rfl⟩ | hplain
  · rw [splitName_of_colon hstage]
    rintro _ ⟨⟩
    exact trim_ofList_trimChars name
  · rw [splitName_of_plain hplain]
    exact fun _ hn => nomatch hn

/-- Something follows a qualifier, since the title was trimmed before. -/
theorem not_blank_of_splitQualifier (htrim : trimChars cs = cs)
    (h : splitQualifier cs = (some q, rest)) : ¬ ∀ c ∈ rest, isBlank c = true := by
  intro hrest
  obtain ⟨c, hc, hcs⟩ := splitQualifier_eq_some_iff.mp h
  have hblank : ∀ x ∈ c :: rest, isBlank x = true := List.forall_mem_cons.mpr ⟨hc, hrest⟩
  have hword : trimChars q.word.toList = q.word.toList := by cases q <;> decide
  rw [hcs, trimChars_append_blank hblank, hword] at htrim
  exact absurd (List.self_eq_append_right.mp htrim) (List.cons_ne_nil c rest)

/-- **Every text reads as a settled title.** -/
theorem settled_parse (s : String) : (parse s).Settled := by
  have htrim : trimChars (trimChars s.toList) = trimChars s.toList := trimChars_trimChars _
  have hhead := head?_trimChars s.toList
  have hparse : parse s = ⟨(splitQualifier (trimChars s.toList)).1,
    (splitName (splitQualifier (trimChars s.toList)).2).1,
    (splitName (splitQualifier (trimChars s.toList)).2).2⟩ := rfl
  rw [hparse]
  generalize trimChars s.toList = cs at htrim hhead
  rcases hsplit : splitQualifier cs with ⟨qualifier, rest⟩
  obtain ⟨stage, more, hrest, hplain, hstage⟩ := exists_fst_splitName rest
  refine ⟨⟨?_, ?_, ?_, trim_snd_splitName rest⟩, ?_⟩
  · rw [hstage]
    exact trim_ofList_trimChars stage
  · rw [hstage, String.toList_ofList]
    exact fun hmem => hplain (mem_of_mem_trimChars hmem)
  · intro hsome hname hempty
    obtain ⟨q, rfl⟩ := Option.isSome_iff_exists.mp hsome
    have hcolon : ':' ∉ rest := by
      rcases colon_cases rest with ⟨a, name, ha, rfl⟩ | hplain
      · rw [splitName_of_colon ha] at hname
        cases hname
      · exact hplain
    have hnil : trimChars rest = [] := by
      rw [splitName_of_plain hcolon] at hempty
      simpa using hempty
    exact not_blank_of_splitQualifier htrim hsplit (blank_of_trimChars hnil)
  · rintro (rfl : qualifier = none) q ⟨c, r, hc, hheads⟩
    have hfst : (splitQualifier cs).1 = none := by rw [hsplit]
    obtain rfl : cs = rest := by
      rw [splitQualifier_of_fst hfst] at hsplit
      exact (Prod.mk.inj hsplit).2
    have hfirst : ∀ x ∈ stage.head?, isBlank x = false := by
      refine fun x hx => hhead x ?_
      rw [hrest, List.head?_append, Option.mem_def.mp hx]
      rfl
    obtain ⟨back, hback⟩ := exists_trimChars_append hfirst
    rw [hstage, String.toList_ofList, trimChars_trimChars] at hheads
    refine fst_splitQualifier_eq_none_iff.mp hfst q c (r ++ back ++ more) hc ?_
    rw [hrest, hback, hheads]
    simp

/-! ## Titles with more blanks -/

/-- The blanks that a title is written with: some around it and around the first colon, and at least
one after a qualifier. -/
structure Spacing where
  front : String
  gap : String
  beforeColon : String
  afterColon : String
  back : String
  blank : ∀ s ∈ [front, gap, beforeColon, afterColon, back], isBlankText s = true
  gap_ne : gap ≠ ""

namespace Spacing

/-- One space after a qualifier, and nothing else. -/
def plain : Spacing := ⟨"", " ", "", "", "", by decide, by decide⟩

/-- The qualifier with the blanks after it. -/
def lead (sp : Spacing) : Option Qualifier → String
  | some q => q.word ++ sp.gap
  | none => ""

/-- The name, with the colon and the blanks around that. -/
def tail (sp : Spacing) : Option String → String
  | some n => sp.beforeColon ++ ":" ++ sp.afterColon ++ n
  | none => ""

variable (sp : Spacing)

theorem blank_of_mem {s : String}
    (h : s ∈ [sp.front, sp.gap, sp.beforeColon, sp.afterColon, sp.back]) :
    ∀ c ∈ s.toList, isBlank c = true :=
  List.all_eq_true.mp (sp.blank s h)

theorem front_blank : ∀ c ∈ sp.front.toList, isBlank c = true := sp.blank_of_mem (by simp)

theorem beforeColon_blank : ∀ c ∈ sp.beforeColon.toList, isBlank c = true :=
  sp.blank_of_mem (by simp)

theorem afterColon_blank : ∀ c ∈ sp.afterColon.toList, isBlank c = true :=
  sp.blank_of_mem (by simp)

theorem back_blank : ∀ c ∈ sp.back.toList, isBlank c = true := sp.blank_of_mem (by simp)

theorem exists_gap : ∃ c more, sp.gap.toList = c :: more ∧ isBlank c = true ∧
    ∀ x ∈ more, isBlank x = true := by
  have hblank : ∀ c ∈ sp.gap.toList, isBlank c = true := sp.blank_of_mem (by simp)
  have hne : sp.gap.toList ≠ [] := fun hnil => sp.gap_ne (String.toList_eq_nil_iff.mp hnil)
  obtain ⟨c, more, hgap⟩ := List.exists_cons_of_ne_nil hne
  rw [hgap] at hblank
  exact ⟨c, more, hgap, List.forall_mem_cons.mp hblank⟩

end Spacing

/-- The text of a title with given blanks. -/
def writtenWith (t : Title) (sp : Spacing) : String :=
  sp.front ++ sp.lead t.qualifier ++ t.stage ++ sp.tail t.name ++ sp.back

theorem render_eq_writtenWith (t : Title) : t.render = t.writtenWith Spacing.plain := by
  obtain ⟨_ | q, stage, _ | n⟩ := t <;>
    simp [render, writtenWith, Spacing.plain, Spacing.lead, Spacing.tail, String.append_assoc]

/-- What a title is written with after its qualifier. -/
def body (t : Title) (sp : Spacing) : List Char :=
  t.stage.toList ++ ((sp.tail t.name).toList ++ sp.back.toList)

theorem toList_writtenWith (t : Title) (sp : Spacing) : (t.writtenWith sp).toList =
    sp.front.toList ++ ((sp.lead t.qualifier).toList ++ t.body sp) := by
  simp [writtenWith, body]

section Written

variable {t : Title} {sp : Spacing}

theorem body_of_none (h : t.name = none) (sp : Spacing) :
    t.body sp = t.stage.toList ++ sp.back.toList := by
  simp [body, h, Spacing.tail]

theorem body_of_some {n : String} (h : t.name = some n) (sp : Spacing) :
    t.body sp = (t.stage.toList ++ sp.beforeColon.toList) ++
      ':' :: (sp.afterColon.toList ++ n.toList ++ sp.back.toList) := by
  simp [body, h, Spacing.tail]

/-- The stage and the name are read from the body. -/
theorem splitName_body (ht : t.Trimmed) (sp : Spacing) :
    splitName (t.body sp) = (t.stage, t.name) := by
  have hstage : trimChars t.stage.toList = t.stage.toList := toList_of_trim ht.stage
  cases hname : t.name with
  | none =>
    have hplain : ':' ∉ t.stage.toList ++ sp.back.toList := by
      simp [ht.colon, notMem_of_blank not_isBlank_colon sp.back_blank]
    rw [body_of_none hname, splitName_of_plain hplain, trimChars_append_blank sp.back_blank, hstage,
      String.ofList_toList]
  | some n =>
    have hleft : ':' ∉ t.stage.toList ++ sp.beforeColon.toList := by
      simp [ht.colon, notMem_of_blank not_isBlank_colon sp.beforeColon_blank]
    have hn : trimChars n.toList = n.toList := toList_of_trim (ht.name n hname)
    rw [body_of_some hname, splitName_of_colon hleft, trimChars_append_blank sp.beforeColon_blank,
      trimChars_append_blank sp.back_blank, trimChars_blank_append sp.afterColon_blank, hstage, hn,
      String.ofList_toList, String.ofList_toList]

/-- A body is not blank after a qualifier. -/
theorem exists_of_body (ht : t.Trimmed) (hsome : t.qualifier.isSome) (sp : Spacing) :
    ∃ c ∈ t.body sp, isBlank c = false := by
  cases hname : t.name with
  | none =>
    have hne : t.stage.toList ≠ [] := fun hnil =>
      ht.follows hsome hname (String.toList_eq_nil_iff.mp hnil)
    obtain ⟨c, more, hstage⟩ := List.exists_cons_of_ne_nil hne
    have hhead : c ∈ (trimChars t.stage.toList).head? := by
      rw [toList_of_trim ht.stage, hstage]
      rfl
    refine ⟨c, ?_, head?_trimChars _ c hhead⟩
    rw [body_of_none hname, hstage]
    simp
  | some n =>
    refine ⟨':', ?_, not_isBlank_colon⟩
    rw [body_of_some hname]
    simp

/-- A text with a qualifier in front and a colon after its first part has the qualifier in that
part, or blanks between the two. -/
theorem qualified_cases {gap more : List Char} {c : Char}
    (hblank : ∀ x ∈ gap, isBlank x = true) (hc : isBlank c = true)
    (h : stage ++ (gap ++ ':' :: more) = q.word.toList ++ c :: rest) :
    (∃ r, stage = q.word.toList ++ c :: r) ∨ (stage = q.word.toList ∧ gap ≠ []) := by
  have hends : stage = q.word.toList → gap ≠ [] := by
    rintro rfl rfl
    obtain ⟨rfl, -⟩ := List.cons.inj (List.append_cancel_left h)
    cases hc
  rcases List.append_eq_append_iff.mp h with ⟨r, hword, hrest⟩ | ⟨r, hstage, hrest⟩
  · cases r with
    | nil =>
      have heq : stage = q.word.toList := by simpa using hword.symm
      exact .inr ⟨heq, hends heq⟩
    | cons x r =>
      -- the word would go on after the first part, with a blank or with the colon
      have hx : x ∈ q.word.toList := hword ▸ List.mem_append_right _ List.mem_cons_self
      cases gap with
      | nil =>
        obtain ⟨rfl, -⟩ := List.cons.inj hrest
        exact absurd hx q.colon_notMem_word
      | cons y gap =>
        obtain ⟨rfl, -⟩ := List.cons.inj hrest
        have hy := hblank y List.mem_cons_self
        rw [Qualifier.isBlank_of_mem_word hx] at hy
        cases hy
  · cases r with
    | nil =>
      have heq : stage = q.word.toList := by simpa using hstage
      exact .inr ⟨heq, hends heq⟩
    | cons x r =>
      obtain ⟨rfl, -⟩ := List.cons.inj hrest
      exact .inl ⟨r, hstage⟩

theorem head?_stage (ht : t.Trimmed) : ∀ c ∈ t.stage.toList.head?, isBlank c = false := by
  rw [← toList_of_trim ht.stage]
  exact head?_trimChars t.stage.toList

theorem dropBlanks_body {n : String} (ht : t.Trimmed) (hname : t.name = some n) (sp : Spacing) :
    ∃ gap more, (∀ x ∈ gap, isBlank x = true) ∧ (sp.beforeColon = "" → gap = []) ∧
      dropBlanks (t.body sp) = t.stage.toList ++ (gap ++ ':' :: more) := by
  rw [body_of_some hname, List.append_assoc]
  generalize sp.afterColon.toList ++ n.toList ++ sp.back.toList = more
  cases hstage : t.stage.toList with
  | nil =>
    have hcolon : ∀ c ∈ (':' :: more).head?, isBlank c = false := by
      simpa using not_isBlank_colon
    refine ⟨[], more, by simp, fun _ => rfl, ?_⟩
    rw [List.nil_append, dropBlanks_append_of_all (List.all_eq_true.mpr sp.beforeColon_blank),
      dropBlanks_eq_self hcolon]
    rfl
  | cons c stage =>
    have hfirst := head?_stage ht
    rw [hstage] at hfirst
    refine ⟨sp.beforeColon.toList, more, sp.beforeColon_blank, fun hempty => ?_, ?_⟩
    · rw [hempty]
      rfl
    · exact dropBlanks_eq_self hfirst

/-- Without a qualifier, the blanks in front of the colon would make one of a stage that is the word
of a qualifier. -/
def Suits (t : Title) (sp : Spacing) : Prop :=
  t.qualifier = none → t.name.isSome → ∀ q : Qualifier, t.stage = q.word → sp.beforeColon = ""

/-- Without a qualifier a body reads as one without. -/
theorem fst_splitQualifier_body (ht : t.Settled) (hnone : t.qualifier = none)
    (hsuits : t.Suits sp) : (splitQualifier (trimChars (t.body sp))).1 = none := by
  rw [fst_splitQualifier_eq_none_iff]
  intro q c rest hc hbody
  have hstage : trimChars t.stage.toList = t.stage.toList := toList_of_trim ht.stage
  cases hname : t.name with
  | none =>
    rw [body_of_none hname, trimChars_append_blank sp.back_blank] at hbody
    exact ht.headless hnone q ⟨c, rest, hc, hbody⟩
  | some n =>
    obtain ⟨back, -, hdrop⟩ := exists_dropEndBlanks (dropBlanks (t.body sp))
    obtain ⟨gap, more, hgap, hempty, hfront⟩ := dropBlanks_body ht.toTrimmed hname sp
    rw [show dropEndBlanks (dropBlanks (t.body sp)) = _ from hbody, hfront, List.append_assoc,
      List.cons_append] at hdrop
    rcases qualified_cases hgap hc hdrop with ⟨r, hheads⟩ | ⟨hword, hne⟩
    · exact ht.headless hnone q ⟨c, r, hc, hstage.trans hheads⟩
    · exact hne (hempty (hsuits hnone (by rw [hname]; rfl) q (String.toList_inj.mp hword)))

/-- **A title reads back from its text**, whatever blanks it is written with. -/
theorem parse_writtenWith (ht : t.Settled) (hsuits : t.Suits sp) :
    parse (t.writtenWith sp) = t := by
  have hname : splitName (t.body sp) = (t.stage, t.name) := splitName_body ht.toTrimmed sp
  suffices hsplit : ∃ rest, splitQualifier (trimChars (t.writtenWith sp).toList) =
      (t.qualifier, rest) ∧ splitName rest = splitName (t.body sp) by
    obtain ⟨rest, hsplit, hrest⟩ := hsplit
    rw [parse, hsplit]
    simp only [hrest, hname]
  rw [toList_writtenWith, trimChars_blank_append sp.front_blank]
  cases hq : t.qualifier with
  | none =>
    refine ⟨trimChars (t.body sp), ?_, splitName_trimChars _⟩
    exact splitQualifier_of_fst (fst_splitQualifier_body ht hq hsuits)
  | some q =>
    obtain ⟨c, more, hgap, hc, hmore⟩ := sp.exists_gap
    obtain ⟨x, hx, hblank⟩ := exists_of_body ht.toTrimmed (by rw [hq]; rfl) sp
    have hne : dropEndBlanks (t.body sp) ≠ [] := dropEndBlanks_ne_nil hx hblank
    have hlead : (sp.lead (some q)).toList ++ t.body sp =
        (q.word.toList ++ c :: more) ++ t.body sp := by
      simp [Spacing.lead, hgap]
    have hfirst : ∀ y ∈ ((q.word.toList ++ c :: more) ++ t.body sp).head?, isBlank y = false := by
      cases q <;> simp [Qualifier.word, isBlank]
    have htrim : trimChars ((q.word.toList ++ c :: more) ++ t.body sp) =
        q.word.toList ++ c :: (more ++ dropEndBlanks (t.body sp)) := by
      rw [trimChars, dropBlanks_eq_self hfirst, dropEndBlanks_append hne]
      simp
    obtain ⟨back, hback, hbody⟩ := exists_dropEndBlanks (t.body sp)
    refine ⟨more ++ dropEndBlanks (t.body sp), ?_, ?_⟩
    · rw [hlead, htrim]
      exact splitQualifier_eq_some_iff.mpr ⟨c, hc, rfl⟩
    · rw [← splitName_trimChars, trimChars_blank_append hmore,
        ← trimChars_append_blank hback, ← hbody, splitName_trimChars]

end Written

theorem suits_plain (t : Title) : t.Suits Spacing.plain := fun _ _ _ _ => rfl

/-- The words of a text that begins as one with a qualifier begin with that. -/
theorem head?_words_of_heads {s : String} {q : Qualifier} (hs : trim s = s) (h : q.Heads s) :
    (words s).head? = some q.word := by
  obtain ⟨c, rest, hc, hheads⟩ := h
  rw [toList_of_trim hs] at hheads
  rw [words, hheads, wordsFrom_append_blank hc (fun _ => Qualifier.isBlank_of_mem_word)
    (.inr q.word_ne_nil)]
  simp

theorem head?_words_word (q : Qualifier) : (words q.word).head? = some q.word := by
  rw [words, wordsFrom_of_none (fun _ => Qualifier.isBlank_of_mem_word) (.inr q.word_ne_nil)]
  simp

theorem Proper.settled {t : Title} (h : t.Proper) : t.Settled :=
  ⟨h.toTrimmed, fun hnone q hheads => h.first hnone q (head?_words_of_heads h.stage hheads)⟩

theorem Proper.suits {t : Title} (h : t.Proper) (sp : Spacing) : t.Suits sp :=
  fun hnone _ q hstage => absurd (hstage ▸ head?_words_word q) (h.first hnone q)

/-- **Titles have a normal form.** What a text reads as, is read again from its written form; the
titles that are read back are those that texts read as. A title of trimmed parts whose stage has no
colon and does not have the word of a qualifier in front, and in which something follows a
qualifier, is one of them, and is read back with more blanks, too: at both ends, after the qualifier
and around the first colon. -/
theorem normal_form :
    (∀ s, parse (render (parse s)) = parse s) ∧
    (∀ t, parse (render t) = t ↔ t.Settled) ∧
    ∀ t, t.Proper → parse (render t) = t ∧ ∀ sp, parse (t.writtenWith sp) = t := by
  have hback : ∀ t, t.Settled → parse (render t) = t := fun t ht => by
    rw [render_eq_writtenWith]
    exact parse_writtenWith ht t.suits_plain
  refine ⟨fun s => hback _ (settled_parse s), fun t => ⟨fun h => ?_, hback t⟩, fun t ht => ?_⟩
  · rw [← h]
    exact settled_parse _
  · exact ⟨hback t ht.settled, fun sp => parse_writtenWith ht.settled (ht.suits sp)⟩

/-- Blanks of several kinds at each place. -/
def Spacing.wide : Spacing :=
  ⟨" \t", "\n ", "\u2003", "\u00a0 ", "\r\n", by decide, by decide⟩

/-- A title with a qualifier and a name that holds a colon, and one with neither a qualifier nor
anything behind its colon, both written with many blanks. -/
theorem normal_form_wide :
    let t : Title := ⟨some .stop, "Test Run", some "intel: a b"⟩
    let u : Title := ⟨none, "SKIPPED", some ""⟩
    t.Proper ∧ u.Proper ∧ t.render = "STOP Test Run:intel: a b" ∧ parse t.render = t ∧
    t.writtenWith Spacing.wide = " \tSTOP\n Test Run\u2003:\u00a0 intel: a b\r\n" ∧
    parse (t.writtenWith Spacing.wide) = t ∧
    u.writtenWith Spacing.wide = " \tSKIPPED\u2003:\u00a0 \r\n" ∧
    parse (u.writtenWith Spacing.wide) = u := by
  intro t u
  have ht : t.Proper := by
    refine ⟨⟨by decide +kernel, by decide, fun _ _ => by decide, ?_⟩, fun h => nomatch h⟩
    rintro _ ⟨⟩
    decide +kernel
  have hu : u.Proper := by
    refine ⟨⟨by decide +kernel, by decide, fun _ _ => by decide, ?_⟩, fun _ q => ?_⟩
    · rintro _ ⟨⟩
      decide
    · cases q <;> decide +kernel
  obtain ⟨-, -, hproper⟩ := normal_form
  exact ⟨ht, hu, by decide, (hproper t ht).1, by decide, (hproper t ht).2 _, by decide,
    (hproper u hu).2 _⟩

/-- A word of a qualifier that is not followed by a blank is a stage, or begins one. -/
example : parse "SKIP" = ⟨none, "SKIP", none⟩ ∧ parse "SKIP:x" = ⟨none, "SKIP", some "x"⟩ ∧
    parse "SKIP :x" = ⟨some .skip, "", some "x"⟩ := by decide +kernel

end Title

end Qualification
