import Mathlib.Logic.Function.Basic
import Qualification.Proofs.Text.Lines
/-!
# Placeholders

A placeholder is a name in braces. Putting values in the places of placeholders all at once reads
the text once, so what a value brings along is never read; replacing one name after the other reads
the values that were put in before.

* `substitute`: all values at once; `substitute_literal`, `substitute_placeholder`: what becomes of
  each piece of a text, and `pieces_induction` goes from piece to piece;
* `holes`: how often a text holds the placeholder of a name;
* `replaceFrom_placeholder`: replacing the placeholders of one name is putting in its value;
* **`substitute_substitute_iff`**: a value that is put in later goes to the same places exactly
  when the earlier ones have made no new placeholder of its name;
* `holes_substitute_of_flat`: where no value opens a brace and no brace opens inside braces, none is
  made.
-/

namespace Qualification.Text

/-- The text that stands for the value of a name. -/
def placeholder (name : List Char) : List Char := '\x7b' :: (name ++ ['\x7d'])

/-- Whether a text has no braces. -/
def Braceless (cs : List Char) : Prop := '\x7b' ∉ cs ∧ '\x7d' ∉ cs

instance (cs : List Char) : Decidable (Braceless cs) :=
  inferInstanceAs (Decidable ('\x7b' ∉ cs ∧ '\x7d' ∉ cs))

/-- Whether a character is an opening brace. -/
def opens (c : Char) : Bool := c == '\x7b'

/-- What follows an opening brace, with the value of the name that it begins with. -/
def fillPart (value? : List Char → Option (List Char)) (part : List Char) : List Char :=
  match cutAt? (· == '\x7d') part with
  | some (name, rest) =>
    match value? name with
    | some value => value ++ rest
    | none => '\x7b' :: part
  | none => '\x7b' :: part

/-- A text with the values of names in the places of their placeholders, all at once. -/
def substitute (value? : List Char → Option (List Char)) (text : List Char) : List Char :=
  match splitAt opens text with
  | [] => []
  | first :: parts => first ++ parts.flatMap (fillPart value?)

/-- How often a text holds the placeholder of a name. -/
def holes (name text : List Char) : Nat :=
  (splitAt opens text).tail.countP fun part => (dropPrefix? (name ++ ['\x7d']) part).isSome

/-- No brace opens inside braces. -/
def Flat (text : List Char) : Prop := ∀ part ∈ (splitAt opens text).tail.dropLast, '\x7d' ∈ part

instance (text : List Char) : Decidable (Flat text) := by unfold Flat; infer_instance

variable {value? : List Char → Option (List Char)} {name value a b text : List Char} {c : Char}

/-! ## Parts -/

section Parts

variable {α : Type} {p : α → Bool}

theorem splitAt_append_of_none {a b part : List α} {parts : List (List α)}
    (ha : ∀ c ∈ a, p c = false) (hb : splitAt p b = part :: parts) :
    splitAt p (a ++ b) = (a ++ part) :: parts := by
  induction a with
  | nil => exact hb
  | cons c a ih =>
    obtain ⟨hc, ha⟩ := List.forall_mem_cons.mp ha
    simp [splitAt, hc, ih ha]

/-- The first part is what comes before the first cut. -/
theorem splitAt_eq_cons {cs part : List α} {parts : List (List α)}
    (h : splitAt p cs = part :: parts) : (∀ c ∈ part, p c = false) ∧ part <+: cs := by
  induction cs generalizing part parts with
  | nil =>
    obtain ⟨rfl, -⟩ := List.cons.inj h
    simp
  | cons c cs ih =>
    by_cases hc : p c
    · obtain ⟨rfl, -⟩ := List.cons.inj (by simpa [splitAt, hc] using h)
      simp
    · obtain ⟨part', parts', hcs⟩ := List.exists_cons_of_ne_nil (splitAt_ne_nil p cs)
      obtain ⟨rfl, -⟩ := List.cons.inj (by simpa [splitAt, hc, hcs] using h)
      obtain ⟨hfree, hprefix⟩ := ih hcs
      exact ⟨List.forall_mem_cons.mpr ⟨by simpa using hc, hfree⟩,
        List.cons_prefix_cons.mpr ⟨rfl, hprefix⟩⟩

end Parts

theorem opens_eq_false : opens c = false ↔ c ≠ '\x7b' := by simp [opens]

theorem splitAt_open (cs : List Char) : splitAt opens ('\x7b' :: cs) = [] :: splitAt opens cs := rfl

/-- A text has a first part. -/
theorem exists_first (text : List Char) :
    ∃ first parts, splitAt opens text = first :: parts :=
  List.exists_cons_of_ne_nil (splitAt_ne_nil opens text)

theorem splitAt_literal {first : List Char} {parts : List (List Char)} (hc : c ≠ '\x7b')
    (h : splitAt opens text = first :: parts) :
    splitAt opens (c :: text) = (c :: first) :: parts := by
  simp [splitAt, opens_eq_false.mpr hc, h]

/-! ## Pieces -/

/-- Whether a character begins no placeholder of the text that goes on with `cs`. -/
def Literal (c : Char) (cs : List Char) : Prop :=
  ∀ name b, Braceless name → c :: cs ≠ placeholder name ++ b

theorem placeholder_append (name b : List Char) :
    placeholder name ++ b = '\x7b' :: (name ++ '\x7d' :: b) := by
  simp [placeholder]

theorem cutAt?_close (h : Braceless name) (b : List Char) :
    cutAt? (· == '\x7d') (name ++ '\x7d' :: b) = some (name, b) :=
  cutAt?_append_cons (fun c hc => by simpa using fun heq : c = '\x7d' => h.2 (heq ▸ hc)) (by simp) b

/-- A text begins with one placeholder at most. -/
theorem placeholder_inj {name' b' : List Char} (h : Braceless name) (h' : Braceless name')
    (heq : placeholder name ++ b = placeholder name' ++ b') : name = name' ∧ b = b' := by
  rw [placeholder_append, placeholder_append] at heq
  have hcut := cutAt?_close h b
  rw [(List.cons.inj heq).2, cutAt?_close h' b'] at hcut
  simpa [eq_comm] using hcut

/-- A text is read character by character, and each placeholder as a whole. -/
theorem pieces_induction {motive : List Char → Prop} (nil : motive [])
    (literal : ∀ c cs, Literal c cs → motive cs → motive (c :: cs))
    (hole : ∀ name cs, Braceless name → motive cs → motive (placeholder name ++ cs)) :
    ∀ text, motive text
  | [] => nil
  | c :: cs => by
    by_cases h : ∃ name b, Braceless name ∧ c :: cs = placeholder name ++ b
    · obtain ⟨name, b, hname, heq⟩ := h
      have hlt : b.length < cs.length + 1 := by
        rw [← List.length_cons (a := c), heq]
        simp [placeholder]
        omega
      rw [heq]
      exact hole name b hname (pieces_induction nil literal hole b)
    · exact literal c cs (fun name b hname heq => h ⟨name, b, hname, heq⟩)
        (pieces_induction nil literal hole cs)
termination_by text => text.length

theorem Literal.of_append {cs : List Char} (h : Literal c (cs ++ b)) : Literal c cs := by
  intro name r hname heq
  refine h name (r ++ b) hname ?_
  rw [← List.append_assoc, ← heq, List.cons_append]

/-- What stands before the next opening brace closes none that was opened before it. -/
theorem Literal.close_notMem {cs first : List Char} {parts : List (List Char)}
    (h : Literal '\x7b' cs) (hcut : splitAt opens cs = first :: parts) : '\x7d' ∉ first := by
  obtain ⟨hfree, tail, htail⟩ := splitAt_eq_cons hcut
  intro hclose
  obtain ⟨name, rest, rfl, hname⟩ := List.eq_append_cons_of_mem hclose
  have hopen : '\x7b' ∉ name := fun hmem =>
    opens_eq_false.mp (hfree _ (List.mem_append_left _ hmem)) rfl
  refine h name (rest ++ tail) ⟨hopen, hname⟩ ?_
  simp [placeholder, ← htail]

/-- A name and the brace that closes it belong to the part that they stand before. -/
theorem splitAt_close {first : List Char} {parts : List (List Char)} (h : Braceless name)
    (hb : splitAt opens b = first :: parts) :
    splitAt opens (name ++ '\x7d' :: b) = (name ++ '\x7d' :: first) :: parts :=
  splitAt_append_of_none (fun _ hc => opens_eq_false.mpr fun heq => h.1 (heq ▸ hc))
    (splitAt_literal (by decide) hb)

/-! ## Values in the places of placeholders -/

@[simp] theorem substitute_nil (value? : List Char → Option (List Char)) :
    substitute value? [] = [] := rfl

theorem substitute_open (value? : List Char → Option (List Char)) (cs : List Char) :
    substitute value? ('\x7b' :: cs) = (splitAt opens cs).flatMap (fillPart value?) := by
  simp [substitute, splitAt_open]

theorem substitute_append_open (value? : List Char → Option (List Char)) (a cs : List Char) :
    substitute value? (a ++ '\x7b' :: cs) =
      substitute value? a ++ substitute value? ('\x7b' :: cs) := by
  obtain ⟨first, parts, ha⟩ := exists_first a
  have hcut := splitAt_append_cons (p := opens) (c := '\x7b') rfl a cs
  rw [substitute_open, substitute, substitute, hcut, ha]
  simp

theorem fillPart_close (value? : List Char → Option (List Char)) (h : Braceless name)
    (b : List Char) :
    fillPart value? (name ++ '\x7d' :: b) = (value? name).getD (placeholder name) ++ b := by
  rw [fillPart, cutAt?_close h]
  cases hvalue : value? name <;> simp [hvalue, placeholder]

/-- **A placeholder gives way to its value,** and one without a value stays. -/
theorem substitute_placeholder (value? : List Char → Option (List Char)) (h : Braceless name)
    (b : List Char) : substitute value? (placeholder name ++ b) =
      (value? name).getD (placeholder name) ++ substitute value? b := by
  obtain ⟨first, parts, hb⟩ := exists_first b
  rw [placeholder_append, substitute_open, splitAt_close h hb, List.flatMap_cons,
    fillPart_close value? h, substitute, hb, List.append_assoc]

/-- **All other text stays.** -/
theorem substitute_literal (value? : List Char → Option (List Char)) (h : Literal c text) :
    substitute value? (c :: text) = c :: substitute value? text := by
  obtain ⟨first, parts, htext⟩ := exists_first text
  by_cases hc : c = '\x7b'
  · subst hc
    have hnone : cutAt? (· == '\x7d') first = none :=
      cutAt?_eq_none.mpr fun x hx => by
        simpa using fun heq : x = '\x7d' => h.close_notMem htext (heq ▸ hx)
    rw [substitute_open, substitute, htext]
    simp [fillPart, hnone]
  · simp [substitute, splitAt_literal hc htext, htext]

theorem substitute_append (value? : List Char → Option (List Char)) (h : Braceless name)
    (a b : List Char) : substitute value? (a ++ (placeholder name ++ b)) =
      substitute value? a ++ ((value? name).getD (placeholder name) ++ substitute value? b) := by
  rw [placeholder_append, substitute_append_open, ← placeholder_append,
    substitute_placeholder value? h]

/-- Without values nothing changes. -/
theorem substitute_none (text : List Char) : substitute (fun _ => none) text = text := by
  induction text using pieces_induction with
  | nil => rfl
  | literal c cs h ih => rw [substitute_literal _ h, ih]
  | hole name cs h ih => rw [substitute_placeholder _ h, ih, Option.getD_none]

theorem substitute_of_notMem (value? : List Char → Option (List Char)) (h : '\x7b' ∉ a) :
    substitute value? a = a := by
  have hsplit := splitAt_of_none (p := opens) fun c hc =>
    opens_eq_false.mpr fun heq => h (heq ▸ hc)
  simp [substitute, hsplit]

/-! ## How many placeholders -/

@[simp] theorem holes_nil (name : List Char) : holes name [] = 0 := rfl

theorem holes_append_open (name a cs : List Char) :
    holes name (a ++ '\x7b' :: cs) = holes name a + holes name ('\x7b' :: cs) := by
  obtain ⟨first, parts, ha⟩ := exists_first a
  have hcut := splitAt_append_cons (p := opens) (c := '\x7b') rfl a cs
  rw [holes, holes, holes, hcut, ha, splitAt_open, List.cons_append, List.tail_cons, List.tail_cons,
    List.tail_cons, List.countP_append]

theorem holes_cons_of_ne (name : List Char) (hc : c ≠ '\x7b') (text : List Char) :
    holes name (c :: text) = holes name text := by
  obtain ⟨first, parts, htext⟩ := exists_first text
  rw [holes, holes, splitAt_literal hc htext, htext, List.tail_cons, List.tail_cons]

theorem holes_open {first : List Char} {parts : List (List Char)} (name : List Char)
    (h : splitAt opens text = first :: parts) : holes name ('\x7b' :: text) =
      holes name text + if (dropPrefix? (name ++ ['\x7d']) first).isSome then 1 else 0 := by
  rw [holes, holes, splitAt_open, h, List.tail_cons, List.tail_cons, List.countP_cons]

theorem holes_le_append (name a b : List Char) : holes name b ≤ holes name (a ++ b) := by
  induction a with
  | nil => exact Nat.le_refl _
  | cons c a ih =>
    refine Nat.le_trans ih ?_
    rw [List.cons_append]
    by_cases hc : c = '\x7b'
    · obtain ⟨first, parts, h⟩ := exists_first (a ++ b)
      rw [hc, holes_open name h]
      exact Nat.le_add_right _ _
    · exact Nat.le_of_eq (holes_cons_of_ne name hc _).symm

theorem holes_literal (name : List Char) (h : Literal c text) :
    holes name (c :: text) = holes name text := by
  by_cases hc : c = '\x7b'
  · subst hc
    obtain ⟨first, parts, htext⟩ := exists_first text
    have hnone : dropPrefix? (name ++ ['\x7d']) first = none := by
      refine Option.eq_none_iff_forall_ne_some.mpr fun rest hrest => h.close_notMem htext ?_
      rw [dropPrefix?_eq_some.mp hrest]
      simp
    rw [holes_open name htext, hnone]
    rfl
  · exact holes_cons_of_ne name hc text

theorem holes_placeholder {name' : List Char} (hname : Braceless name) (h' : Braceless name')
    (b : List Char) : holes name (placeholder name' ++ b) =
      holes name b + if name' = name then 1 else 0 := by
  obtain ⟨first, parts, hb⟩ := exists_first b
  have hclosed := splitAt_close h' hb
  have hbegins : (dropPrefix? (name ++ ['\x7d']) (name' ++ '\x7d' :: first)).isSome ↔
      name' = name := by
    rw [Option.isSome_iff_exists]
    constructor
    · rintro ⟨rest, hrest⟩
      have heq : placeholder name' ++ first = placeholder name ++ rest := by
        rw [placeholder_append, dropPrefix?_eq_some.mp hrest]
        simp [placeholder]
      exact (placeholder_inj h' hname heq).1
    · rintro rfl
      exact ⟨first, dropPrefix?_eq_some.mpr (by simp)⟩
  rw [placeholder_append, holes_open name hclosed]
  simp only [hbegins, holes, hclosed, hb, List.tail_cons]

theorem holes_append (h : Braceless name) (a b : List Char) :
    holes name (a ++ (placeholder name ++ b)) = holes name a + (holes name b + 1) := by
  rw [placeholder_append, holes_append_open, ← placeholder_append, holes_placeholder h h,
    if_pos rfl]

/-- Cutting a text at one of its placeholders of a name. -/
theorem exists_of_holes (hname : Braceless name) (h : holes name text ≠ 0) :
    ∃ a b, text = a ++ (placeholder name ++ b) := by
  induction text using pieces_induction with
  | nil => exact absurd (holes_nil name) h
  | literal c cs hc ih =>
    rw [holes_literal name hc] at h
    obtain ⟨a, b, rfl⟩ := ih h
    exact ⟨c :: a, b, rfl⟩
  | hole name' cs h' ih =>
    by_cases heq : name' = name
    · exact ⟨[], cs, by rw [heq, List.nil_append]⟩
    · rw [holes_placeholder hname h', if_neg heq] at h
      obtain ⟨a, b, rfl⟩ := ih h
      exact ⟨placeholder name' ++ a, b, by rw [List.append_assoc]⟩

/-- A text is cut at the placeholders of one name until the parts have none. -/
theorem holes_induction (hname : Braceless name) {motive : List Char → Prop}
    (base : ∀ text, holes name text = 0 → motive text)
    (cut : ∀ a b, motive a → motive b → motive (a ++ (placeholder name ++ b))) (text : List Char) :
    motive text := by
  by_cases h : holes name text = 0
  · exact base text h
  · obtain ⟨a, b, heq⟩ := exists_of_holes hname h
    have hlength : text.length = a.length + (name.length + 2) + b.length := by
      simp [heq, placeholder]; omega
    rw [heq]
    exact cut a b (holes_induction hname base cut a) (holes_induction hname base cut b)
termination_by text.length

/-! ## One name after the other -/

/-- The value of one name only. -/
abbrev only (name value : List Char) : List Char → Option (List Char) :=
  Function.update (fun _ => none) name (some value)

theorem only_self (name value : List Char) : only name value name = some value :=
  Function.update_self ..

theorem replaceFrom_skip (part new : List Char) (skip : Nat) (cs : List Char) :
    replaceFrom part new skip cs = replaceFrom part new 0 (cs.drop skip) := by
  induction cs generalizing skip with
  | nil => simp [replaceFrom]
  | cons c cs ih =>
    cases skip with
    | zero => rfl
    | succ skip => rw [replaceFrom, ih, List.drop_succ_cons]

theorem replaceFrom_append_of_notMem (name new : List Char) (ha : '\x7b' ∉ a) (b : List Char) :
    replaceFrom (placeholder name) new 0 (a ++ b) =
      a ++ replaceFrom (placeholder name) new 0 b := by
  induction a with
  | nil => rfl
  | cons c a ih =>
    obtain ⟨hc, ha⟩ := not_or.mp (List.mem_cons.not.mp ha)
    have hnone : dropPrefix? (placeholder name) (c :: (a ++ b)) = none := by
      simp [placeholder, dropPrefix?, hc]
    rw [List.cons_append, replaceFrom, hnone, ih ha]
    rfl

/-- **Replacing the placeholders of one name** is putting in its value. -/
theorem replaceFrom_placeholder (hname : Braceless name) (value text : List Char) :
    replaceFrom (placeholder name) value 0 text = substitute (only name value) text := by
  induction text using pieces_induction with
  | nil => rfl
  | literal c cs h ih =>
    have hnone : dropPrefix? (placeholder name) (c :: cs) = none :=
      Option.eq_none_iff_forall_ne_some.mpr fun rest hrest =>
        h name rest hname (dropPrefix?_eq_some.mp hrest)
    rw [substitute_literal _ h, replaceFrom, hnone, ih]
    rfl
  | hole name' cs h' ih =>
    rw [substitute_placeholder _ h', ← ih]
    by_cases heq : name' = name
    · subst heq
      have hsome : dropPrefix? (placeholder name') ('\x7b' :: (name' ++ '\x7d' :: cs)) = some cs :=
        dropPrefix?_eq_some.mpr (placeholder_append name' cs).symm
      have hdrop : (name' ++ '\x7d' :: cs).drop ((placeholder name').length - 1) = cs := by
        simp [placeholder]
      rw [placeholder_append, replaceFrom, hsome, replaceFrom_skip, hdrop, only_self]
      rfl
    · have hnone : dropPrefix? (placeholder name) ('\x7b' :: (name' ++ '\x7d' :: cs)) = none := by
        refine Option.eq_none_iff_forall_ne_some.mpr fun rest hrest => heq ?_
        exact (placeholder_inj h' hname
          ((placeholder_append name' cs).trans (dropPrefix?_eq_some.mp hrest))).1
      have hpass := replaceFrom_append_of_notMem name value (a := name' ++ ['\x7d'])
        (by simpa using h'.1) cs
      rw [List.append_assoc, List.singleton_append] at hpass
      have hother : only name value name' = none := Function.update_of_ne heq ..
      rw [placeholder_append, replaceFrom, hnone, hother, hpass]
      simp [placeholder]

section Later

variable (hname : Braceless name)

include hname

/-- The value of a name that a text does not hold does not matter. -/
theorem substitute_update_of_holes (value : List Char) (h : holes name text = 0) :
    substitute (Function.update value? name (some value)) text = substitute value? text := by
  induction text using pieces_induction with
  | nil => rfl
  | literal c cs hc ih =>
    rw [holes_literal name hc] at h
    rw [substitute_literal _ hc, substitute_literal _ hc, ih h]
  | hole name' cs h' ih =>
    rw [holes_placeholder hname h'] at h
    have hne : name' ≠ name := fun heq => by simp [heq] at h
    rw [substitute_placeholder _ h', substitute_placeholder _ h', ih (by omega),
      Function.update_of_ne hne]

variable (hvalue : value? name = none)

include hvalue

/-- Values of other names leave the placeholders of a name where they are. -/
theorem holes_le_substitute (text : List Char) :
    holes name text ≤ holes name (substitute value? text) := by
  induction text using pieces_induction with
  | nil => exact Nat.le_refl _
  | literal c cs h ih =>
    rw [substitute_literal _ h, holes_literal name h]
    exact Nat.le_trans ih (holes_le_append name [c] _)
  | hole name' cs h' ih =>
    rw [substitute_placeholder _ h', holes_placeholder hname h']
    by_cases heq : name' = name
    · subst heq
      rw [hvalue, Option.getD_none, holes_placeholder h' h']
      omega
    · rw [if_neg heq, Nat.add_zero]
      exact Nat.le_trans ih (holes_le_append name _ _)

/-- A value that is its own placeholder changes nothing. -/
theorem substitute_update_placeholder (text : List Char) :
    substitute (Function.update value? name (some (placeholder name))) text =
      substitute value? text := by
  induction text using holes_induction hname with
  | base text h => exact substitute_update_of_holes hname _ h
  | cut a b iha ihb =>
    rw [substitute_append _ hname, substitute_append _ hname, iha, ihb, Function.update_self,
      hvalue, Option.getD_some, Option.getD_none]

/-- How much longer a text is with a value in the places of one name. -/
theorem length_substitute_update (value text : List Char) :
    (substitute (Function.update value? name (some value)) text).length +
        holes name text * (placeholder name).length =
      (substitute value? text).length + holes name text * value.length := by
  induction text using holes_induction hname with
  | base text h => simp [substitute_update_of_holes hname _ h, h]
  | cut a b iha ihb =>
    rw [substitute_append _ hname, substitute_append _ hname, holes_append hname,
      Function.update_self, hvalue, Option.getD_some, Option.getD_none]
    simp only [List.length_append, Nat.add_mul, Nat.one_mul]
    omega

/-- A value that is as long as its placeholder leaves the length. -/
theorem length_substitute_update_of_eq (h : value.length = (placeholder name).length)
    (text : List Char) :
    (substitute (Function.update value? name (some value)) text).length =
      (substitute value? text).length := by
  have hlength := length_substitute_update hname hvalue value text
  rw [h] at hlength
  exact Nat.add_right_cancel hlength

end Later

/-- A value as long as its placeholder is put into a text without changing it only if it is the
placeholder or the text has none. -/
theorem eq_or_holes_of_substitute_only (hname : Braceless name)
    (hlength : value.length = (placeholder name).length)
    (h : substitute (only name value) text = text) :
    value = placeholder name ∨ holes name text = 0 := by
  by_cases hzero : holes name text = 0
  · exact .inr hzero
  · obtain ⟨a, b, rfl⟩ := exists_of_holes hname hzero
    rw [substitute_append _ hname, only_self, Option.getD_some] at h
    have ha : (substitute (only name value) a).length = (substitute (fun _ => none) a).length :=
      length_substitute_update_of_eq hname rfl hlength a
    rw [substitute_none] at ha
    obtain ⟨-, hrest⟩ := List.append_inj h ha
    exact .inl (List.append_inj hrest hlength).1

section Twice

variable (hname : Braceless name) (hvalue : value? name = none)

include hname hvalue

theorem substitute_substitute_of_holes (value : List Char)
    (h : holes name (substitute value? text) = holes name text) :
    substitute (only name value) (substitute value? text) =
      substitute (Function.update value? name (some value)) text := by
  induction text using holes_induction hname with
  | base text hzero =>
    rw [hzero] at h
    rw [substitute_update_of_holes hname _ h, substitute_none,
      substitute_update_of_holes hname _ hzero]
  | cut a b iha ihb =>
    have hplaces : substitute value? (a ++ (placeholder name ++ b)) =
        substitute value? a ++ (placeholder name ++ substitute value? b) := by
      rw [substitute_append _ hname, hvalue, Option.getD_none]
    rw [hplaces, holes_append hname, holes_append hname] at h
    have ha := holes_le_substitute hname hvalue a
    have hb := holes_le_substitute hname hvalue b
    rw [hplaces, substitute_append _ hname, substitute_append _ hname, iha (by omega),
      ihb (by omega), Function.update_self, only_self]

/-- The lengths tell how often a value has been put in. -/
theorem holes_of_length_ne (hlength : value.length ≠ (placeholder name).length)
    (h : substitute (only name value) (substitute value? text) =
      substitute (Function.update value? name (some value)) text) :
    holes name (substitute value? text) = holes name text := by
  obtain ⟨new, hnew⟩ := Nat.exists_eq_add_of_le (holes_le_substitute hname hvalue text)
  have hlater : (substitute (only name value) (substitute value? text)).length + _ * _ =
      (substitute (fun _ => none) (substitute value? text)).length + _ * _ :=
    length_substitute_update hname rfl value (substitute value? text)
  have honce := length_substitute_update hname hvalue value text
  rw [substitute_none, h, hnew] at hlater
  simp only [Nat.add_mul] at hlater
  have hmul : new * (placeholder name).length = new * value.length := by omega
  rcases Nat.eq_zero_or_pos new with rfl | hpos
  · simpa using hnew
  · exact absurd (Nat.eq_of_mul_eq_mul_left hpos hmul).symm hlength

/-- Where lengths are kept, what stands before, in and after each place can be compared. -/
theorem holes_of_length_eq (hlength : value.length = (placeholder name).length)
    (h : substitute (only name value) (substitute value? text) =
      substitute (Function.update value? name (some value)) text) :
    value = placeholder name ∨ holes name (substitute value? text) = holes name text := by
  induction text using holes_induction hname with
  | base text hzero =>
    rw [substitute_update_of_holes hname _ hzero] at h
    rw [hzero]
    exact eq_or_holes_of_substitute_only hname hlength h
  | cut a b iha ihb =>
    rw [substitute_append _ hname, substitute_append _ hname, hvalue, Option.getD_none,
      substitute_append _ hname, Function.update_self, only_self] at h
    have hfront : (substitute (only name value) (substitute value? a)).length =
        (substitute (Function.update value? name (some value)) a).length := by
      rw [length_substitute_update_of_eq hname rfl hlength, substitute_none,
        length_substitute_update_of_eq hname hvalue hlength]
    obtain ⟨ha, hrest⟩ := List.append_inj h hfront
    rw [substitute_append _ hname, hvalue, Option.getD_none, holes_append hname, holes_append hname]
    rcases iha ha with hsame | ha
    · exact .inl hsame
    rcases ihb (List.append_inj hrest rfl).2 with hsame | hb
    · exact .inl hsame
    exact .inr (by rw [ha, hb])

/-- **A value that is put in later** goes to the same places exactly when the values before it have
made no new placeholder of its name, or when it is that placeholder itself. -/
theorem substitute_substitute_iff (value text : List Char) :
    substitute (only name value) (substitute value? text) =
        substitute (Function.update value? name (some value)) text ↔
      value = placeholder name ∨ holes name (substitute value? text) = holes name text := by
  constructor
  · intro h
    by_cases hlength : value.length = (placeholder name).length
    · exact holes_of_length_eq hname hvalue hlength h
    · exact .inr (holes_of_length_ne hname hvalue hlength h)
  · rintro (rfl | h)
    · rw [substitute_update_placeholder hname rfl, substitute_none,
        substitute_update_placeholder hname hvalue]
    · exact substitute_substitute_of_holes hname hvalue value h

end Twice

/-! ## Values without opening braces -/

theorem Flat.of_append (h : Flat (a ++ b)) : Flat b := by
  induction a with
  | nil => exact h
  | cons c a ih =>
    refine ih fun part hpart => h part ?_
    obtain ⟨first, parts, hcut⟩ := exists_first (a ++ b)
    rw [hcut, List.tail_cons] at hpart
    by_cases hc : c = '\x7b'
    · rw [List.cons_append, hc, splitAt_open, hcut, List.tail_cons]
      cases parts with
      | nil => cases hpart
      | cons part' parts => exact List.mem_cons_of_mem first hpart
    · rwa [List.cons_append, splitAt_literal hc hcut, List.tail_cons]

/-- What follows a brace that is never closed opens none. -/
theorem Flat.open_notMem {cs : List Char} (h : Flat ('\x7b' :: cs)) (hliteral : Literal '\x7b' cs) :
    '\x7b' ∉ cs := by
  intro hopen
  obtain ⟨part, rest, rfl, hpart⟩ := List.eq_append_cons_of_mem hopen
  have hcut : splitAt opens (part ++ '\x7b' :: rest) = part :: splitAt opens rest := by
    rw [splitAt_append_cons rfl, splitAt_of_none fun c hc => opens_eq_false.mpr fun heq =>
      hpart (heq ▸ hc), List.singleton_append]
  have hclosed : '\x7d' ∈ part := by
    refine h part ?_
    rw [splitAt_open, hcut, List.tail_cons, List.dropLast_cons_of_ne_nil (splitAt_ne_nil _ _)]
    exact List.mem_cons_self
  exact hliteral.close_notMem hcut hclosed

/-- **Values that open no brace make no placeholder** in a text where none opens inside braces. -/
theorem holes_substitute_of_flat (hname : Braceless name) (hvalue : value? name = none)
    (hopen : ∀ n v, value? n = some v → '\x7b' ∉ v) (h : Flat text) :
    holes name (substitute value? text) = holes name text := by
  have hpass : ∀ v b, '\x7b' ∉ v → holes name (v ++ b) = holes name b := by
    intro v b hv
    induction v with
    | nil => rfl
    | cons c v ih =>
      obtain ⟨hc, hv⟩ := not_or.mp (List.mem_cons.not.mp hv)
      rw [List.cons_append, holes_cons_of_ne name (Ne.symm hc), ih hv]
  induction text using pieces_induction with
  | nil => rfl
  | literal c cs hc ih =>
    by_cases hbrace : c = '\x7b'
    · subst hbrace
      rw [substitute_literal _ hc, substitute_of_notMem value? (h.open_notMem hc)]
    · rw [substitute_literal _ hc, holes_cons_of_ne name hbrace, holes_cons_of_ne name hbrace,
        ih (Flat.of_append (a := [c]) h)]
  | hole name' cs h' ih =>
    rw [substitute_placeholder _ h', holes_placeholder hname h', ← ih h.of_append]
    cases hv : value? name' with
    | none => rw [Option.getD_none, holes_placeholder hname h']
    | some v =>
      have hne : name' ≠ name := fun heq => by simp [← heq, hv] at hvalue
      rw [Option.getD_some, hpass v _ (hopen name' v hv), if_neg hne, Nat.add_zero]

end Qualification.Text
