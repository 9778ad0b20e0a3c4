import Mathlib.Data.List.Forall2
import Qualification.Options.Resolved
import Qualification.Proofs.Text.Blank
import Qualification.Proofs.Text.Lines
/-!
# Lists in options

What a value is read as that stands for a list: items between commas, with or without brackets
around the whole, and any blanks around each of them.

* `itemsOf_append_comma`, `itemsOf_blank_append`, `itemsOf_append_blank`, `filter_flatten_itemsOf`:
  the items of a text, part by part, and what is lost of it;
* `IsItem`: what an item can be; `isItem_of_mem_parseList`: each one that is read is so;
* `Joined`, `Bracketed`: how a list is written; `Enclosed`, `Joined.enclosed_iff`: when it looks as
  if it stood in brackets;
* `words_eq_nil_iff`, `words_ne_nil_of_mem_list`: items have words;
* **`Resolved.readsBack_list`**: lists are read back.
-/

namespace Qualification

namespace Text

theorem wordsFrom_eq_nil_iff (word cs : List Char) :
    wordsFrom word cs = [] ↔ word = [] ∧ ∀ c ∈ cs, isBlank c = true := by
  induction cs generalizing word with
  | nil => cases word <;> simp [wordsFrom]
  | cons c cs ih =>
    rw [wordsFrom]
    cases hc : isBlank c with
    | true => cases word <;> simp [ih, hc]
    | false => simp [ih, hc]

/-- A text without words holds nothing but blanks. -/
theorem words_eq_nil_iff (s : String) : words s = [] ↔ ∀ c ∈ s.toList, isBlank c = true := by
  simp [words, wordsFrom_eq_nil_iff]

end Text

namespace OptionList

open Text

/-! ## Items -/

/-- The items between commas. -/
def itemsOf (cs : List Char) : List (List Char) :=
  ((splitAt (· == ',') cs).map trimChars).filter (!·.isEmpty)

/-- A text without the brackets around it, if there are two. -/
def withoutBrackets (cs : List Char) : List Char :=
  match dropPrefix? ['['] cs with
  | some rest => (dropSuffix? [']'] rest).getD cs
  | none => cs

theorem parseList_eq (raw : String) :
    parseList raw = (itemsOf (withoutBrackets (trimChars raw.toList))).map String.ofList := rfl

theorem withoutBrackets_brackets (cs : List Char) :
    withoutBrackets ('[' :: (cs ++ [']'])) = cs := by
  simp [withoutBrackets, dropPrefix?, dropSuffix?]

theorem withoutBrackets_eq_self {cs : List Char} (h : ∀ inner, cs ≠ '[' :: (inner ++ [']'])) :
    withoutBrackets cs = cs := by
  unfold withoutBrackets
  split
  next rest hrest =>
    obtain rfl := dropPrefix?_eq_some.mp hrest
    have hnone : dropSuffix? [']'] rest = none := by
      rw [dropSuffix?, Option.map_eq_none_iff, Option.eq_none_iff_forall_ne_some]
      intro front hfront
      refine h front.reverse ?_
      rw [← List.reverse_reverse rest, dropPrefix?_eq_some.mp hfront]
      simp
    rw [hnone, Option.getD_none]
  next => rfl

section Items

variable {a b blanks : List Char}

theorem itemsOf_append_comma (a b : List Char) :
    itemsOf (a ++ ',' :: b) = itemsOf a ++ itemsOf b := by
  rw [itemsOf, splitAt_append_cons rfl, List.map_append, List.filter_append, itemsOf, itemsOf]

theorem itemsOf_of_notMem (h : ',' ∉ a) : itemsOf a = [trimChars a].filter (!·.isEmpty) := by
  have hfree : ∀ c ∈ a, (c == ',') = false := fun c hc => by
    simpa using fun heq : c = ',' => h (heq ▸ hc)
  rw [itemsOf, splitAt_of_none hfree, List.map_singleton]

theorem not_isBlank_comma : isBlank ',' = false := by decide

/-- Without commas in them, texts have the same items if they are trimmed to the same. -/
theorem itemsOf_eq_of_trimChars (ha : ',' ∉ a) (hb : ',' ∉ b) (h : trimChars a = trimChars b) :
    itemsOf a = itemsOf b := by
  rw [itemsOf_of_notMem ha, itemsOf_of_notMem hb, h]

theorem itemsOf_blank_append (h : ∀ c ∈ blanks, isBlank c = true) (a : List Char) :
    itemsOf (blanks ++ a) = itemsOf a := by
  have hblank := notMem_of_blank not_isBlank_comma h
  have hplain : ∀ part, ',' ∉ part → itemsOf (blanks ++ part) = itemsOf part := fun part hpart =>
    itemsOf_eq_of_trimChars (by simp [hblank, hpart]) hpart (trimChars_blank_append h part)
  by_cases hcomma : ',' ∈ a
  · obtain ⟨part, rest, rfl, hpart⟩ := List.eq_append_cons_of_mem hcomma
    rw [← List.append_assoc, itemsOf_append_comma, hplain part hpart, itemsOf_append_comma]
  · exact hplain a hcomma

theorem itemsOf_append_blank (h : ∀ c ∈ blanks, isBlank c = true) (a : List Char) :
    itemsOf (a ++ blanks) = itemsOf a := by
  have hblank := notMem_of_blank not_isBlank_comma h
  have hplain : ∀ part, ',' ∉ part → itemsOf (part ++ blanks) = itemsOf part := fun part hpart =>
    itemsOf_eq_of_trimChars (by simp [hblank, hpart]) hpart (trimChars_append_blank h part)
  by_cases hcomma : ',' ∈ a
  · -- The last comma is the first one from behind.
    obtain ⟨part, rest, ha, hpart⟩ := List.eq_append_cons_of_mem (List.mem_reverse.mpr hcomma)
    obtain rfl : a = rest.reverse ++ ',' :: part.reverse := by
      rw [← List.reverse_reverse a, ha]
      simp
    rw [List.append_assoc, List.cons_append, itemsOf_append_comma, hplain _ (by simpa using hpart),
      itemsOf_append_comma]
  · exact hplain a hcomma

theorem itemsOf_trimChars (a : List Char) : itemsOf (trimChars a) = itemsOf a := by
  obtain ⟨front, back, hfront, hback, ha⟩ := exists_trimChars a
  calc itemsOf (trimChars a)
    _ = itemsOf (front ++ (trimChars a ++ back)) := by
      rw [itemsOf_blank_append hfront, itemsOf_append_blank hback]
    _ = itemsOf a := by rw [← ha]

/-- **Nothing is lost but blanks and commas.** -/
theorem filter_flatten_itemsOf (a : List Char) :
    ((itemsOf a).flatten.filter fun c => !isBlank c) =
      (a.filter fun c => c != ',').filter fun c => !isBlank c := by
  have hparts : ∀ parts : List (List Char),
      ((parts.map trimChars).flatten.filter fun c => !isBlank c) =
        parts.flatten.filter fun c => !isBlank c := by
    intro parts
    induction parts with
    | nil => rfl
    | cons part parts ih => simp [filter_trimChars, ih]
  rw [itemsOf, List.flatten_filter_not_isEmpty, hparts, flatten_splitAt]
  rfl

/-- The brackets around a text are not lost in it. -/
theorem itemsOf_ne (inner : List Char) : itemsOf inner ≠ itemsOf ('[' :: (inner ++ [']'])) := by
  intro h
  have hlength := congrArg (fun items => (items.flatten.filter fun c => !isBlank c).length) h
  simp only [filter_flatten_itemsOf] at hlength
  have hopen : isBlank '[' = false := by decide
  have hclose : isBlank ']' = false := by decide
  simp [hopen, hclose] at hlength
  omega

end Items

/-! ## Lists as they are written -/

/-- The items that a list can have: texts that are not empty, without commas and without blanks at
their ends. -/
structure IsItem (item : String) : Prop where
  ne_empty : item ≠ ""
  comma : ',' ∉ item.toList
  first : ∀ c ∈ item.toList.head?, isBlank c = false
  last : ∀ c ∈ item.toList.getLast?, isBlank c = false

theorem isItem_iff {item : String} : IsItem item ↔ item ≠ "" ∧ ',' ∉ item.toList ∧
    item.toList.head?.all (!isBlank ·) = true ∧ item.toList.getLast?.all (!isBlank ·) = true := by
  have hall : ∀ o : Option Char, o.all (!isBlank ·) = true ↔ ∀ c ∈ o, isBlank c = false := by
    simp [Option.all_eq_true]
  rw [hall, hall]
  exact ⟨fun h => ⟨h.ne_empty, h.comma, h.first, h.last⟩,
    fun ⟨hne, hcomma, hfirst, hlast⟩ => ⟨hne, hcomma, hfirst, hlast⟩⟩

-- Only the characters at the ends are looked at, and not all that there are.
instance (item : String) : Decidable (IsItem item) := decidable_of_iff _ isItem_iff.symm

/-- A text with any blanks around it. -/
def Spaced (s text : String) : Prop :=
  ∃ front back : String, isBlankText front = true ∧ isBlankText back = true ∧
    text = front ++ s ++ back

/-- A list without brackets: its items with any blanks around each of them, joined by commas, and
any blanks around the whole. -/
def Joined (items : List String) (text : String) : Prop :=
  ∃ parts, List.Forall₂ Spaced items parts ∧ Spaced (joinWith "," parts) text

/-- A list in brackets, with any blanks inside of them and around them. -/
def Bracketed (items : List String) (text : String) : Prop :=
  ∃ inner, Joined items inner ∧ Spaced ("[" ++ inner ++ "]") text

/-- Whether the first item begins with a bracket and the last one ends with one, as if they stood
around the whole. -/
def Enclosed (items : List String) : Prop :=
  (∃ first ∈ items.head?, first.toList.head? = some '[') ∧
    ∃ last ∈ items.getLast?, last.toList.getLast? = some ']'

section Written

variable {s text item : String} {items parts : List String}

theorem Spaced.refl (s : String) : Spaced s s := ⟨"", "", rfl, rfl, by simp⟩

theorem Spaced.exists_chars (h : Spaced s text) : ∃ front back, (∀ c ∈ front, isBlank c = true) ∧
    (∀ c ∈ back, isBlank c = true) ∧ text.toList = front ++ (s.toList ++ back) := by
  obtain ⟨front, back, hfront, hback, rfl⟩ := h
  exact ⟨front.toList, back.toList, List.all_eq_true.mp hfront, List.all_eq_true.mp hback, by simp⟩

theorem Spaced.itemsOf_eq (h : Spaced s text) : itemsOf text.toList = itemsOf s.toList := by
  obtain ⟨front, back, hfront, hback, htext⟩ := h.exists_chars
  rw [htext, itemsOf_blank_append hfront, itemsOf_append_blank hback]

theorem Spaced.trimChars_eq (h : Spaced s text) : trimChars text.toList = trimChars s.toList := by
  obtain ⟨front, back, hfront, hback, htext⟩ := h.exists_chars
  rw [htext, trimChars_blank_append hfront, trimChars_append_blank hback]

theorem IsItem.toList_ne_nil (h : IsItem item) : item.toList ≠ [] :=
  fun hnil => h.ne_empty (String.toList_eq_nil_iff.mp hnil)

theorem IsItem.itemsOf_eq (h : IsItem item) : itemsOf item.toList = [item.toList] := by
  rw [itemsOf_of_notMem h.comma, trimChars_eq_self h.first h.last]
  simpa using h.ne_empty

theorem toList_joinWith_cons (part next : String) (parts : List String) :
    (joinWith "," (part :: next :: parts)).toList =
      part.toList ++ ',' :: (joinWith "," (next :: parts)).toList := by
  simp [joinWith]

/-- **Joined items are found again.** -/
theorem itemsOf_joinWith (h : List.Forall₂ Spaced items parts) (hitems : ∀ i ∈ items, IsItem i) :
    itemsOf (joinWith "," parts).toList = items.map String.toList := by
  induction h with
  | nil => rfl
  | @cons item part items parts hpart hparts ih =>
    obtain ⟨hitem, hitems⟩ := List.forall_mem_cons.mp hitems
    have hfirst : itemsOf part.toList = [item.toList] := hpart.itemsOf_eq.trans hitem.itemsOf_eq
    cases hparts with
    | nil => exact hfirst
    | cons =>
      rw [toList_joinWith_cons, itemsOf_append_comma, hfirst, ih hitems]
      rfl

theorem Joined.itemsOf_eq (h : Joined items text) (hitems : ∀ i ∈ items, IsItem i) :
    itemsOf text.toList = items.map String.toList := by
  obtain ⟨parts, hparts, htext⟩ := h
  rw [htext.itemsOf_eq, itemsOf_joinWith hparts hitems]

theorem Joined.trimChars_nil (h : Joined [] text) : trimChars text.toList = [] := by
  obtain ⟨parts, hparts, htext⟩ := h
  cases hparts
  rw [htext.trimChars_eq]
  rfl

theorem exists_of_head? (h : List.Forall₂ Spaced items parts) (hfirst : items.head? = some item) :
    ∃ front back, (∀ c ∈ front, isBlank c = true) ∧
      (joinWith "," parts).toList = front ++ (item.toList ++ back) := by
  cases h with
  | nil => cases hfirst
  | @cons first part items parts hpart hparts =>
    obtain rfl : first = item := by simpa using hfirst
    obtain ⟨front, back, hfront, -, hchars⟩ := hpart.exists_chars
    cases parts with
    | nil => exact ⟨front, back, hfront, hchars⟩
    | cons next rest =>
      refine ⟨front, back ++ ',' :: (joinWith "," (next :: rest)).toList, hfront, ?_⟩
      rw [toList_joinWith_cons, hchars]
      simp

theorem exists_of_getLast? (h : List.Forall₂ Spaced items parts)
    (hlast : items.getLast? = some item) :
    ∃ front back, (∀ c ∈ back, isBlank c = true) ∧
      (joinWith "," parts).toList = front ++ (item.toList ++ back) := by
  induction h with
  | nil => cases hlast
  | @cons first part items parts hpart hparts ih =>
    cases hparts with
    | nil =>
      obtain rfl : first = item := by simpa using hlast
      obtain ⟨front, back, -, hback, hchars⟩ := hpart.exists_chars
      exact ⟨front, back, hback, hchars⟩
    | cons =>
      rw [List.getLast?_cons_cons] at hlast
      obtain ⟨front, back, hback, hjoin⟩ := ih hlast
      exact ⟨part.toList ++ ',' :: front, back, hback, by rw [toList_joinWith_cons, hjoin]; simp⟩

theorem Joined.head?_eq (h : Joined items text) (hfirst : items.head? = some item)
    (hitem : IsItem item) : (trimChars text.toList).head? = item.toList.head? := by
  obtain ⟨parts, hparts, htext⟩ := h
  obtain ⟨front, back, hfront, hjoin⟩ := exists_of_head? hparts hfirst
  obtain ⟨c, cs, hcs⟩ := List.exists_cons_of_ne_nil hitem.toList_ne_nil
  rw [htext.trimChars_eq, hjoin, trimChars_blank_append hfront, hcs]
  exact head?_trimChars_of rfl (hitem.first c (by rw [hcs]; rfl))

theorem Joined.getLast?_eq (h : Joined items text) (hlast : items.getLast? = some item)
    (hitem : IsItem item) : (trimChars text.toList).getLast? = item.toList.getLast? := by
  obtain ⟨parts, hparts, htext⟩ := h
  obtain ⟨front, back, hback, hjoin⟩ := exists_of_getLast? hparts hlast
  have hne := hitem.toList_ne_nil
  have hc := List.getLast?_eq_getLast_of_ne_nil hne
  rw [htext.trimChars_eq, hjoin, ← List.append_assoc, trimChars_append_blank hback, hc]
  refine getLast?_trimChars_of ?_ (hitem.last _ hc)
  rw [List.getLast?_append_of_ne_nil _ hne, hc]

theorem brackets_iff {cs : List Char} : cs.head? = some '[' ∧ cs.getLast? = some ']' ↔
    ∃ inner, cs = '[' :: (inner ++ [']']) := by
  constructor
  · rintro ⟨hhead, hlast⟩
    obtain ⟨rest, rfl⟩ := List.head?_eq_some_iff.mp hhead
    cases rest with
    | nil => simp at hlast
    | cons c rest =>
      rw [List.getLast?_cons_cons] at hlast
      obtain ⟨inner, hinner⟩ := List.getLast?_eq_some_iff.mp hlast
      exact ⟨inner, congrArg ('[' :: ·) hinner⟩
  · rintro ⟨inner, rfl⟩
    exact ⟨rfl, by rw [← List.cons_append, List.getLast?_concat]⟩

/-- **A list is taken for one in brackets exactly if its items begin and end so.** -/
theorem Joined.enclosed_iff (h : Joined items text) (hitems : ∀ i ∈ items, IsItem i) :
    Enclosed items ↔ ∃ inner, trimChars text.toList = '[' :: (inner ++ [']']) := by
  cases items with
  | nil => simp [Enclosed, h.trimChars_nil]
  | cons item items =>
    have hhead := h.head?_eq rfl (hitems item List.mem_cons_self)
    have hsome := List.getLast?_eq_getLast_of_ne_nil (List.cons_ne_nil item items)
    have hlast := h.getLast?_eq hsome (hitems _ (List.mem_of_getLast? hsome))
    rw [← brackets_iff, hhead, hlast]
    simp [Enclosed, hsome]

end Written

/-! ## Lists as they are read -/

theorem parseList_of_bracketed {items : List String} {text : String} (h : Bracketed items text)
    (hitems : ∀ i ∈ items, IsItem i) : parseList text = items := by
  obtain ⟨inner, hinner, htext⟩ := h
  have hbrackets : ("[" ++ inner ++ "]").toList = '[' :: (inner.toList ++ [']']) := by simp
  have htrim : trimChars text.toList = '[' :: (inner.toList ++ [']']) := by
    rw [htext.trimChars_eq, hbrackets]
    exact trimChars_of_ends (by decide) (by decide) rfl ('[' :: inner.toList) rfl
  rw [parseList_eq, htrim, withoutBrackets_brackets, hinner.itemsOf_eq hitems]
  simp

theorem parseList_joined_iff {items : List String} {text : String} (h : Joined items text)
    (hitems : ∀ i ∈ items, IsItem i) : parseList text = items ↔ ¬ Enclosed items := by
  have hwhole : itemsOf (trimChars text.toList) = items.map String.toList := by
    rw [itemsOf_trimChars, h.itemsOf_eq hitems]
  rw [h.enclosed_iff hitems, parseList_eq]
  constructor
  · rintro heq ⟨inner, htrim⟩
    rw [htrim, withoutBrackets_brackets] at heq
    refine itemsOf_ne inner ?_
    rw [← htrim, hwhole, ← heq]
    simp
  · intro hplain
    rw [withoutBrackets_eq_self fun inner htrim => hplain ⟨inner, htrim⟩, hwhole]
    simp

theorem isItem_of_mem_itemsOf {cs item : List Char} (h : item ∈ itemsOf cs) :
    IsItem (String.ofList item) := by
  obtain ⟨hmem, hne⟩ := List.mem_filter.mp h
  obtain ⟨part, hpart, rfl⟩ := List.mem_map.mp hmem
  refine ⟨by simpa using hne, ?_, ?_, ?_⟩
  · intro hcomma
    rw [String.toList_ofList] at hcomma
    exact absurd (not_of_mem_splitAt hpart ',' (mem_of_mem_trimChars hcomma)) (by simp)
  · rw [String.toList_ofList]
    exact head?_trimChars part
  · rw [String.toList_ofList]
    exact getLast?_trimChars part

theorem isItem_of_mem_parseList {raw item : String} (h : item ∈ parseList raw) : IsItem item := by
  rw [parseList_eq] at h
  obtain ⟨chars, hchars, rfl⟩ := List.mem_map.mp h
  exact isItem_of_mem_itemsOf hchars

/-- Items that are joined without blanks. -/
theorem bracketed_joinWith (items : List String) :
    Bracketed items ("[" ++ joinWith "," items ++ "]") :=
  ⟨joinWith "," items, ⟨items, List.forall₂_same.mpr fun i _ => .refl i, .refl _⟩, .refl _⟩

end OptionList

open OptionList

namespace Resolved

theorem list_eq {r : Resolved} {name raw : String} (h : r.get? name = some raw) :
    r.list name = parseList raw := by
  rw [list, h]

theorem isItem_of_mem_list {r : Resolved} {name item : String} (h : item ∈ r.list name) :
    IsItem item := by
  unfold list at h
  split at h
  · cases h
  · exact isItem_of_mem_parseList h

/-- An item of a list has words. -/
theorem words_ne_nil_of_mem_list {r : Resolved} {name item : String} (h : item ∈ r.list name) :
    Text.words item ≠ [] := by
  have hitem := isItem_of_mem_list h
  obtain ⟨c, cs, hcs⟩ := List.exists_cons_of_ne_nil hitem.toList_ne_nil
  have hc : Text.isBlank c = false := hitem.first c (by rw [hcs]; rfl)
  rw [Ne, Text.words_eq_nil_iff, hcs]
  exact fun hall => Text.notMem_of_blank hc hall List.mem_cons_self

/-- **Lists are read back.** Items in brackets are read as they were written, whatever blanks stand
around them and around the whole; without brackets they are, too, unless the first one begins with a
bracket and the last one ends with one, which are then taken for brackets around the whole. What is
read of any value are such items, and they are read again from their own list in brackets. -/
theorem readsBack_list (r : Resolved) (name : String) :
    (∀ items text, (∀ i ∈ items, IsItem i) → r.get? name = some text →
      (Bracketed items text → r.list name = items) ∧
      (Joined items text → (r.list name = items ↔ ¬ Enclosed items))) ∧
    (∀ i ∈ r.list name, IsItem i) ∧
    ∀ (again : Resolved) (other : String),
      again.get? other = some ("[" ++ Text.joinWith "," (r.list name) ++ "]") →
        again.list other = r.list name := by
  have hitems : ∀ i ∈ r.list name, IsItem i := fun i hi => isItem_of_mem_list hi
  refine ⟨fun items text hall htext => ?_, hitems, fun again other htext => ?_⟩
  · rw [list_eq htext]
    exact ⟨fun h => parseList_of_bracketed h hall, fun h => parseList_joined_iff h hall⟩
  · rw [list_eq htext]
    exact parseList_of_bracketed (bracketed_joinWith _) hitems

/-- Items with blanks and brackets in them, with many blanks around them; a list that is not taken
for one in brackets; and what is read of the first list, written again. -/
theorem readsBack_list_brackets :
    let triggers := ["load cpu", "[mem]", "x]y"]
    let hosts := ["[a", "b"]
    let r : Resolved := ⟨Dict.ofList [("triggers", "\t[ load cpu ,[mem],\n x]y ] "),
      ("hosts", "[a , b "), ("again", "[load cpu,[mem],x]y]")], Dict.empty⟩
    (∀ i ∈ triggers, IsItem i) ∧ Bracketed triggers "\t[ load cpu ,[mem],\n x]y ] " ∧
    (∀ i ∈ hosts, IsItem i) ∧ Joined hosts "[a , b " ∧ ¬ Enclosed hosts ∧
    r.list "triggers" = triggers ∧ r.list "hosts" = hosts ∧ r.list "again" = triggers := by
  intro triggers hosts r
  have htriggers : ∀ i ∈ triggers, IsItem i := by decide +kernel
  have hhosts : ∀ i ∈ hosts, IsItem i := by decide +kernel
  have hspaced : ∀ (front s back : String), Text.isBlankText front = true →
      Text.isBlankText back = true → Spaced s (front ++ s ++ back) :=
    fun front s back hfront hback => ⟨front, back, hfront, hback, rfl⟩
  have hbracketed : Bracketed triggers "\t[ load cpu ,[mem],\n x]y ] " :=
    ⟨" load cpu ,[mem],\n x]y ", ⟨[" load cpu ", "[mem]", "\n x]y "],
      .cons (hspaced " " _ " " rfl rfl)
        (.cons (.refl _) (.cons (hspaced "\n " _ " " rfl rfl) .nil)), .refl _⟩,
      hspaced "\t" _ " " rfl rfl⟩
  have hjoined : Joined hosts "[a , b " :=
    ⟨["[a ", " b"], .cons (hspaced "" _ " " rfl rfl) (.cons (hspaced " " _ "" rfl rfl) .nil),
      hspaced "" _ " " rfl rfl⟩
  have hopen : ¬ Enclosed hosts := by
    rintro ⟨-, last, hlast, hclose⟩
    cases hlast
    exact absurd hclose (by decide)
  obtain ⟨hread, -, hagain⟩ := readsBack_list r "triggers"
  obtain ⟨hhostsRead, -, -⟩ := readsBack_list r "hosts"
  have hlist : r.list "triggers" = triggers :=
    (hread triggers _ htriggers (by decide +kernel)).1 hbracketed
  refine ⟨htriggers, hbracketed, hhosts, hjoined, hopen, hlist,
    ((hhostsRead hosts _ hhosts (by decide +kernel)).2 hjoined).mpr hopen, ?_⟩
  rw [← hlist]
  exact hagain r "again" (by rw [hlist]; decide +kernel)

/-- Brackets of the items that are taken for brackets around the whole, brackets within those, and
one that is not closed. -/
example : parseList "[a,b]" = ["a", "b"] ∧ parseList "[]" = [] ∧ parseList "[[]]" = ["[]"] ∧
    parseList "[, ,a" = ["[", "a"] := by decide +kernel

end Resolved

end Qualification
