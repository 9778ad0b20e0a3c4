/-!
# Blank characters and trimming

A character is blank when it has the `White_Space` property of Unicode.

* `isBlank`, `trim`, `words`, `isBlankText`;
* `trim` removes the blanks of both ends and nothing else; `words` cuts at runs of blanks.
-/

namespace Qualification.Text

/-- The characters with the `White_Space` property. -/
def isBlank (c : Char) : Bool :=
  let n := c.toNat
  (9 ≤ n && n ≤ 13) || n == 0x20 || n == 0x85 || n == 0xA0 || n == 0x1680 ||
    (0x2000 ≤ n && n ≤ 0x200A) || n == 0x2028 || n == 0x2029 || n == 0x202F || n == 0x205F ||
    n == 0x3000

/-- A text without its leading blanks. -/
def dropBlanks (cs : List Char) : List Char := cs.dropWhile isBlank

/-- A text without its trailing blanks. -/
def dropEndBlanks (cs : List Char) : List Char := (dropBlanks cs.reverse).reverse

/-- A text without the blanks at its ends. -/
def trimChars (cs : List Char) : List Char := dropEndBlanks (dropBlanks cs)

/-- A text without the blanks at its ends. -/
def trim (s : String) : String := String.ofList (trimChars s.toList)

/-- Whether a text holds nothing but blanks. -/
def isBlankText (s : String) : Bool := s.toList.all isBlank

/-- The words between runs of blanks; `word` is the one being read, last character first. -/
def wordsFrom (word : List Char) : List Char → List (List Char)
  | [] => if word.isEmpty then [] else [word.reverse]
  | c :: cs =>
    if isBlank c then
      if word.isEmpty then wordsFrom [] cs else word.reverse :: wordsFrom [] cs
    else wordsFrom (c :: word) cs

/-- The words of a text: its maximal runs of characters that are not blank. -/
def words (s : String) : List String := (wordsFrom [] s.toList).map String.ofList

theorem isBlank_space : isBlank ' ' = true := by decide

theorem not_isBlank_colon : isBlank ':' = false := by decide

theorem dropBlanks_append_of_all {a b : List Char} (h : a.all isBlank) :
    dropBlanks (a ++ b) = dropBlanks b := by
  induction a with
  | nil => rfl
  | cons c a ih => simp_all [dropBlanks]

theorem dropBlanks_eq_self {a : List Char} (h : ∀ c ∈ a.head?, isBlank c = false) :
    dropBlanks a = a := by
  cases a with
  | nil => rfl
  | cons c a => simp_all [dropBlanks]

end Qualification.Text
