import Qualification.Text.Blank
/-!
# Cutting texts

Cuts at characters, affixes, and simultaneous and successive replacement, over lists of
characters and over strings.

* `cutAt?` splits once, at the first character of a class; `splitAt` splits at all of them;
* `dropPrefix?`, `dropSuffix?` take an affix off;
* `replaceAll` replaces every occurrence of a text, from the left;
* `lines` cuts at line feeds and drops one carriage return before each.
-/

namespace Qualification.Text

/-- The parts before and after the first character of a class. -/
def cutAt? {α : Type} (p : α → Bool) : List α → Option (List α × List α)
  | [] => none
  | c :: cs => if p c then some ([], cs) else (cutAt? p cs).map fun (a, b) => (c :: a, b)

/-- All parts between the characters of a class; always one more than there are such characters. -/
def splitAt {α : Type} (p : α → Bool) : List α → List (List α)
  | [] => [[]]
  | c :: cs =>
    if p c then [] :: splitAt p cs
    else match splitAt p cs with
      | [] => [[c]]
      | part :: parts => (c :: part) :: parts

/-- The rest of a text that begins with `start`. -/
def dropPrefix? {α : Type} [DecidableEq α] : (start text : List α) → Option (List α)
  | [], cs => some cs
  | _ :: _, [] => none
  | p :: ps, c :: cs => if p = c then dropPrefix? ps cs else none

/-- The front of a text that ends with `tail`. -/
def dropSuffix? {α : Type} [DecidableEq α] (tail text : List α) : Option (List α) :=
  (dropPrefix? tail.reverse text.reverse).map List.reverse

/-- Whether `part` occurs in a text. -/
def occursIn (part : List Char) : List Char → Bool
  | [] => part.isEmpty
  | c :: cs => (dropPrefix? part (c :: cs)).isSome || occursIn part cs

/-- Replaces every occurrence of a nonempty `part`, leftmost first; `skip` counts the characters
of the last occurrence that are still to be passed over. -/
def replaceFrom (part new : List Char) : (skip : Nat) → List Char → List Char
  | _, [] => []
  | skip + 1, _ :: cs => replaceFrom part new skip cs
  | 0, c :: cs =>
    if (dropPrefix? part (c :: cs)).isSome then
      new ++ replaceFrom part new (part.length - 1) cs
    else c :: replaceFrom part new 0 cs

/-- Replaces every occurrence of a nonempty `part` in a text, leftmost first. -/
def replaceAll (part new text : String) : String :=
  String.ofList (replaceFrom part.toList new.toList 0 text.toList)

/-- The lines of characters or bytes: what stands between line feeds, without a final empty line and
without one carriage return at the end of each terminated line. -/
def linesAt {α : Type} [DecidableEq α] (feed return_ : α) (cs : List α) : List (List α) :=
  let parts := splitAt (fun c => decide (c = feed)) cs
  let ended := parts.dropLast.map fun l => (dropSuffix? [return_] l).getD l
  ended ++ (parts.getLast?.filter fun l => !l.isEmpty).toList

/-- The lines of a text. -/
def lines (s : String) : List String := (linesAt '\n' '\r' s.toList).map String.ofList

/-- The text parts between separators, as strings. -/
def splitOn (sep : Char) (s : String) : List String :=
  (splitAt (· == sep) s.toList).map String.ofList

/-- Whether `s` begins with `start`. -/
def startsWith (s start : String) : Bool := (dropPrefix? start.toList s.toList).isSome

/-- Whether `s` ends with `tail`. -/
def endsWith (s tail : String) : Bool := (dropSuffix? tail.toList s.toList).isSome

/-- The texts one after the other with a separator between them. -/
def joinWith (sep : String) : List String → String
  | [] => ""
  | [s] => s
  | s :: t :: rest => s ++ sep ++ joinWith sep (t :: rest)

/-- A text filled up with blanks on the right to a number of characters. -/
def padRight (width : Nat) (s : String) : String :=
  s ++ String.ofList (List.replicate (width - s.length) ' ')

/-- A text filled up with blanks on the left to a number of characters. -/
def padLeft (width : Nat) (s : String) : String :=
  String.ofList (List.replicate (width - s.length) ' ') ++ s

/-- A letter of the ASCII alphabet in lower case; other characters are unchanged. -/
def lowerAscii (s : String) : String := String.ofList (s.toList.map Char.toLower)

theorem cutAt?_eq_some {α : Type} {p : α → Bool} {cs a b : List α} (h : cutAt? p cs = some (a, b)) :
    ∃ c, p c = true ∧ cs = a ++ c :: b ∧ ∀ x ∈ a, p x = false := by
  induction cs generalizing a with
  | nil => simp [cutAt?] at h
  | cons c cs ih =>
    by_cases hc : p c
    · simp only [cutAt?, hc, if_true, Option.some.injEq, Prod.mk.injEq] at h
      obtain ⟨rfl, rfl⟩ := h
      exact ⟨c, hc, rfl, by simp⟩
    · simp only [cutAt?, hc, Bool.false_eq_true, if_false, Option.map_eq_some_iff] at h
      obtain ⟨⟨a', b'⟩, h', e⟩ := h
      obtain ⟨rfl, rfl⟩ := Prod.mk.inj e
      obtain ⟨x, hx, rfl, ha⟩ := ih h'
      exact ⟨x, hx, rfl, by simpa [hc] using ha⟩

theorem cutAt?_append_cons {α : Type} {p : α → Bool} {a : List α} (ha : ∀ x ∈ a, p x = false)
    {c : α} (hc : p c = true) (b : List α) : cutAt? p (a ++ c :: b) = some (a, b) := by
  induction a with
  | nil => simp [cutAt?, hc]
  | cons x a ih =>
    obtain ⟨hx, ha⟩ := List.forall_mem_cons.mp ha
    simp [cutAt?, hx, ih ha]

theorem cutAt?_eq_none {α : Type} {p : α → Bool} {cs : List α} :
    cutAt? p cs = none ↔ ∀ x ∈ cs, p x = false := by
  induction cs with
  | nil => simp [cutAt?]
  | cons c cs ih => by_cases hc : p c <;> simp [cutAt?, hc, ih]

theorem dropPrefix?_eq_some {α : Type} [DecidableEq α] {p cs r : List α} :
    dropPrefix? p cs = some r ↔ cs = p ++ r := by
  induction p generalizing cs with
  | nil => simp [dropPrefix?, eq_comm]
  | cons a p ih =>
    cases cs with
    | nil => simp [dropPrefix?]
    | cons c cs => by_cases h : a = c <;> simp [dropPrefix?, h, ih, eq_comm]

end Qualification.Text
