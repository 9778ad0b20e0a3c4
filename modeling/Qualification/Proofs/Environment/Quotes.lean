import Mathlib.Data.List.Induction
import Qualification.Proofs.Environment.Script
/-!
# Statements cut outside of quotes

A script is cut at the semicolons and line feeds outside of quotes, at all of them and nowhere else.
Whether a character stands inside of quotes is a matter of the whole text before it: some opening
quote has not met its like again.

* `Inside`: texts with a quote open at their end; `inside_iff`: reading a text character by
  character tells them from others;
* `Cut`: a text with its statements; `cut_statementsFrom`, `Cut.eq_statementsFrom`: reading finds
  the one way to cut it;
* `statementsFrom_append_separator`, `changesOf_append_separator`: scripts one after the other;
* **`statements_quoteAware`**: statements are cut outside of quotes, and scripts are read one by
  one.
-/

namespace Qualification.EnvScript

/-! ## Inside of quotes -/

/-- Whether what follows a text stands inside of quotes: an opening quote in the text, one that does
not itself stand inside of quotes, has not met the same quote again. -/
def Inside (before : List Char) : Prop :=
  ∃ (a : List Char) (q : Char) (body : List Char) (_ : before = a ++ q :: body),
    (q = '\'' ∨ q = '"') ∧ ¬ Inside a ∧ q ∉ body
termination_by before.length
decreasing_by simp_all

/-- The open quote after a text. -/
def openAfter (quote : Option Char) (cs : List Char) : Option Char := cs.foldl quoteAfter quote

section Inside

variable {quote : Option Char} {a b before : List Char} {c : Char}

@[simp]
theorem openAfter_nil : openAfter quote [] = quote := rfl

@[simp]
theorem openAfter_cons : openAfter quote (c :: a) = openAfter (quoteAfter quote c) a := rfl

@[simp]
theorem openAfter_append : openAfter quote (a ++ b) = openAfter (openAfter quote a) b :=
  List.foldl_append

theorem Passes.openAfter_eq {r : Option Char} (h : Passes quote a r) : openAfter quote a = r := by
  induction h with
  | nil => rfl
  | cons _ _ ih => exact ih

theorem isQuote_iff : isQuote c = true ↔ c = '\'' ∨ c = '"' := by
  simp [isQuote]

theorem isSeparator_iff : isSeparator c = true ↔ c = ';' ∨ c = '\n' := by
  simp [isSeparator]

theorem quoteAfter_of_separator (hc : c = ';' ∨ c = '\n') : quoteAfter none c = none := by
  rcases hc with rfl | rfl
  · rfl
  · rfl

/-- The open quote is the last opening one. -/
theorem exists_of_openAfter {q : Char} (h : openAfter none before = some q) :
    ∃ a body, before = a ++ q :: body ∧ isQuote q = true ∧ openAfter none a = none ∧ q ∉ body := by
  induction before using List.reverseRecOn generalizing q with
  | nil => cases h
  | append_singleton before c ih =>
    rw [openAfter_append, openAfter_cons, openAfter_nil] at h
    cases ho : openAfter none before with
    | none =>
      rw [ho, quoteAfter] at h
      split at h
      next hc =>
        cases h
        exact ⟨before, [], rfl, hc, ho, List.not_mem_nil⟩
      next => cases h
    | some r =>
      rw [ho, quoteAfter] at h
      split at h
      next => cases h
      next hne =>
        cases h
        obtain ⟨a, body, rfl, hq, ha, hbody⟩ := ih ho
        exact ⟨a, body ++ [c], by simp, hq, ha, by simpa [hbody] using Ne.symm hne⟩

/-- **A text stands inside of quotes exactly if reading it leaves one open.** -/
theorem inside_iff (before : List Char) : Inside before ↔ (openAfter none before).isSome := by
  induction before using Inside.induct with
  | case1 before ih =>
    rw [Inside]
    constructor
    · rintro ⟨a, q, body, rfl, hq, ha, hbody⟩
      rw [ih a q body rfl, Option.not_isSome_iff_eq_none] at ha
      rw [openAfter_append, ha, openAfter_cons, quoteAfter, if_pos (isQuote_iff.mpr hq),
        (passes_inside hbody).openAfter_eq]
      rfl
    · intro h
      obtain ⟨q, hopen⟩ := Option.isSome_iff_exists.mp h
      obtain ⟨a, body, rfl, hq, ha, hbody⟩ := exists_of_openAfter hopen
      refine ⟨a, q, body, rfl, isQuote_iff.mp hq, ?_, hbody⟩
      rw [ih a q body rfl, ha]
      exact Bool.false_ne_true

instance : DecidablePred Inside := fun before => decidable_of_iff _ (inside_iff before).symm

theorem not_inside_iff : ¬ Inside before ↔ openAfter none before = none := by
  rw [inside_iff, Option.not_isSome_iff_eq_none]

end Inside

/-! ## Cuts outside of quotes -/

/-- Whether each semicolon and each line feed in a text that follows `before` stands inside of
quotes. -/
def Kept (before s : List Char) : Prop :=
  ∀ x c y, s = x ++ c :: y → c = ';' ∨ c = '\n' → Inside (before ++ x)

/-- How a text that follows `before` is cut into statements: the semicolons and line feeds between
them, which stand outside of quotes, are removed, and none are left in a statement but those inside
of quotes. -/
inductive Cut : (before : List Char) → (statements : List (List Char)) → (text : List Char) → Prop
  | last {before s : List Char} (hs : Kept before s) : Cut before [s] s
  | cons {before s text : List Char} {c : Char} {ss : List (List Char)} (hs : Kept before s)
      (hc : c = ';' ∨ c = '\n') (houtside : ¬ Inside (before ++ s))
      (h : Cut (before ++ s ++ [c]) ss text) : Cut before (s :: ss) (s ++ c :: text)

section Cut

variable {before s text : List Char} {c : Char} {ss : List (List Char)}

theorem kept_nil (before : List Char) : Kept before [] := fun x c y h => by simp at h

theorem Kept.head (h : Kept before (c :: s)) (hc : c = ';' ∨ c = '\n') : Inside before := by
  simpa using h [] c s rfl hc

theorem Kept.tail (h : Kept before (c :: s)) : Kept (before ++ [c]) s := fun x d y hs hd => by
  simpa using h (c :: x) d y (congrArg (c :: ·) hs) hd

theorem Kept.cons (hc : c = ';' ∨ c = '\n' → Inside before) (h : Kept (before ++ [c]) s) :
    Kept before (c :: s) := by
  intro x d y hs hd
  cases x with
  | nil =>
    obtain ⟨rfl, -⟩ := List.cons.inj hs
    simpa using hc hd
  | cons e x =>
    obtain ⟨rfl, hrest⟩ := List.cons.inj hs
    simpa using h x d y hrest hd

/-- A character that is kept belongs to the first statement. -/
theorem Cut.lead (hc : c = ';' ∨ c = '\n' → Inside before)
    (h : Cut (before ++ [c]) (s :: ss) text) : Cut before ((c :: s) :: ss) (c :: text) := by
  cases h with
  | last hs => exact .last (hs.cons hc)
  | cons hs hd houtside h =>
    exact .cons (hs.cons hc) hd (by simpa using houtside) (by simpa using h)

/-- **Reading a text cuts it.** -/
theorem cut_statementsFrom (before text : List Char) :
    Cut before (statementsFrom (openAfter none before) text) text := by
  induction text generalizing before with
  | nil => exact .last (kept_nil before)
  | cons c text ih =>
    have hrest := ih (before ++ [c])
    rw [openAfter_append, openAfter_cons, openAfter_nil] at hrest
    rw [statementsFrom]
    split
    next hcut =>
      rw [Bool.and_eq_true, Option.isNone_iff_eq_none, isSeparator_iff] at hcut
      obtain ⟨hopen, hc⟩ := hcut
      rw [hopen, quoteAfter_of_separator hc] at hrest
      exact Cut.cons (kept_nil before) hc (by simpa [not_inside_iff] using hopen)
        (by simpa using hrest)
    next hcut =>
      obtain ⟨s, ss, hss⟩ := List.exists_cons_of_ne_nil
        (statementsFrom_ne_nil (quoteAfter (openAfter none before) c) text)
      rw [hss] at hrest ⊢
      refine hrest.lead fun hc => ?_
      rw [inside_iff, Option.isSome_iff_ne_none]
      intro hopen
      exact hcut (by simp [hopen, isSeparator_iff.mpr hc])

theorem passes_of_kept (h : Kept before s) :
    Passes (openAfter none before) s (openAfter none (before ++ s)) := by
  induction s generalizing before with
  | nil =>
    rw [List.append_nil]
    exact .nil _
  | cons c s ih =>
    have htail := ih h.tail
    rw [List.append_assoc, List.singleton_append] at htail
    refine .cons (fun hopen => ?_) (by simpa using htail)
    rw [Bool.eq_false_iff]
    exact fun hc => not_inside_iff.mpr hopen (h.head (isSeparator_iff.mp hc))

/-- **There is one way to cut a text**, the one that is found by reading it. -/
theorem Cut.eq_statementsFrom (h : Cut before ss text) :
    ss = statementsFrom (openAfter none before) text := by
  induction h with
  | @last before s hs =>
    simpa [statementsFrom] using (statementsFrom_append_of_passes (passes_of_kept hs) []).symm
  | @cons before s text c ss hs hc houtside _ ih =>
    have hopen : openAfter none (before ++ s) = none := not_inside_iff.mp houtside
    rw [statementsFrom_append_of_passes (passes_of_kept hs), hopen, ih, openAfter_append, hopen]
    simp [statementsFrom, isSeparator_iff.mpr hc, quoteAfter_of_separator hc]

end Cut

/-! ## Scripts one after the other -/

/-- Where the quotes of a text are closed at its end, what follows a separator after it is cut by
itself. -/
theorem statementsFrom_append_separator {quote : Option Char} {a : List Char} {c : Char}
    (h : openAfter quote a = none) (hc : isSeparator c = true) (b : List Char) :
    statementsFrom quote (a ++ c :: b) = statementsFrom quote a ++ statements b := by
  induction a generalizing quote with
  | nil =>
    rw [openAfter_nil] at h
    simp [statementsFrom, statements, h, hc]
  | cons d a ih =>
    rw [List.cons_append, statementsFrom, statementsFrom]
    split
    next hcut =>
      rw [Bool.and_eq_true, Option.isNone_iff_eq_none, isSeparator_iff] at hcut
      obtain ⟨rfl, hd⟩ := hcut
      rw [openAfter_cons, quoteAfter_of_separator hd] at h
      rw [ih h, List.cons_append]
    next =>
      obtain ⟨s, ss, hss⟩ := List.exists_cons_of_ne_nil
        (statementsFrom_ne_nil (quoteAfter quote d) a)
      rw [ih h, hss]
      rfl

theorem changesOf_append_separator {a : List Char} {c : Char} (ha : ¬ Inside a)
    (hc : isSeparator c = true) (b : List Char) :
    changesOf (a ++ c :: b) = changesOf a ++ changesOf b := by
  have hsplit : statements (a ++ c :: b) = statements a ++ statements b :=
    statementsFrom_append_separator (not_inside_iff.mp ha) hc b
  rw [changesOf, hsplit, List.flatMap_append, changesOf, changesOf]

/-- **Statements are cut outside of quotes.** The statements of a script are what is left of it
where the semicolons and line feeds outside of quotes are removed, and those alone; and where the
quotes of a script are closed at its end, another script in the next line is read by itself. -/
theorem statements_quoteAware :
    (∀ script ss, Cut [] ss script ↔ ss = statements script) ∧
    ∀ a b : String, ¬ Inside a.toList → changes (a ++ "\n" ++ b) = changes a ++ changes b := by
  refine ⟨fun script ss => ⟨fun h => h.eq_statementsFrom, ?_⟩, fun a b ha => ?_⟩
  · rintro rfl
    exact cut_statementsFrom [] script
  · have htext : (a ++ "\n" ++ b).toList = a.toList ++ '\n' :: b.toList := by simp
    change changesOf (a ++ "\n" ++ b).toList = changesOf a.toList ++ changesOf b.toList
    rw [htext, changesOf_append_separator ha (by decide)]

/-- Separators and the other quotes in quotes, in two scripts of which the second one stands in the
next line. -/
theorem statements_quoteAware_bothQuotes :
    let a := "A='x;\n\"y' ;export A"
    let b := "unset B;C=\"it's\""
    Cut [] ["A='x;\n\"y' ".toList, "export A".toList, "unset B".toList, "C=\"it's\"".toList]
      (a ++ "\n" ++ b).toList ∧
    ¬ Inside a.toList ∧ changes (a ++ "\n" ++ b) = changes a ++ changes b ∧
    changes a = [.set "A" "x;\n\"y"] ∧ changes b = [.unset "B", .set "C" "it's"] := by
  intro a b
  have ha : ¬ Inside a.toList := by decide +kernel
  obtain ⟨hcut, happend⟩ := statements_quoteAware
  exact ⟨(hcut _ _).mpr (by decide +kernel), ha, happend a b ha, by decide +kernel,
    by decide +kernel⟩

/-- A script is not read by itself after one that ends inside of quotes. -/
example : Inside "A='x".toList ∧ changes "A='x\nunset B" = [.set "A" "'x\nunset B"] := by
  decide +kernel

end Qualification.EnvScript
