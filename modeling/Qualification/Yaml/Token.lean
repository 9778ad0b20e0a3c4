/-!
# Tokens of YAML

`Yaml.tokens?` cuts a stream into tokens. Block structure becomes tokens of its own: a deeper column
opens a block, a shallower one closes it. A key without a mark is recognised by the colon after it,
so the key token is put in front of tokens that were already read; such a key stands on one line and
has at most 1024 characters.
-/

namespace Qualification.Yaml

/-- How a scalar was written. -/
inductive Style where
  | plain | singleQuoted | doubleQuoted | literal | folded
  deriving DecidableEq, Repr, Inhabited

/-- The tokens of a stream. -/
inductive Token where
  | version (major minor : Nat)
  | tagDirective (handle tagStart : List Char)
  | documentStart | documentEnd
  | blockSequence | blockMapping | blockEnd
  | flowSequence | flowSequenceEnd | flowMapping | flowMappingEnd
  | blockEntry | flowEntry | key | value
  | alias (name : List Char)
  | anchor (name : List Char)
  | tag (handle suffix : List Char)
  | scalar (text : List Char) (style : Style)
  | streamEnd
  deriving DecidableEq, Inhabited

/-! ## Characters -/

def isBreak (c : Char) : Bool :=
  c == '\n' || c == '\r' || c.toNat == 0x85 || c.toNat == 0x2028 || c.toNat == 0x2029

def isBlank (c : Char) : Bool := c == ' ' || c == '\t'

/-- Whether the text ends here or goes on with a blank or a line break. -/
def atBlank : List Char → Bool
  | [] => true
  | c :: _ => isBlank c || isBreak c

/-- Whether the text ends here or goes on with a line break. -/
def atBreak : List Char → Bool
  | [] => true
  | c :: _ => isBreak c

/-- The characters of names: ASCII letters, digits, hyphen and underscore. -/
def isNameChar (c : Char) : Bool := c.isAlphanum || c == '_' || c == '-'

/-- The characters that a stream may hold. -/
def isAllowed (c : Char) : Bool :=
  let n := c.toNat
  n == 9 || n == 10 || n == 13 || (0x20 ≤ n && n ≤ 0x7E) || n == 0x85 ||
    (0xA0 ≤ n && n ≤ 0xD7FF) || (0xE000 ≤ n && n ≤ 0xFFFD) || (0x10000 ≤ n && n ≤ 0x10FFFF)

def byteOrderMark : Char := Char.ofNat 0xFEFF

/-! ## Places in the stream -/

/-- A place: the text from here on, and the index, line and column of its first character. -/
structure Cursor where
  rest : List Char
  index : Nat
  line : Nat
  column : Nat
  deriving Inhabited

namespace Cursor

/-- One character on, within the line. -/
def skip (c : Cursor) : Cursor := ⟨c.rest.tail, c.index + 1, c.line, c.column + 1⟩

/-- Some characters on, within the line. -/
def skipN (c : Cursor) (n : Nat) : Cursor := ⟨c.rest.drop n, c.index + n, c.line, c.column + n⟩

/-- Over a line break, with the characters that stand for it. -/
def readLine (c : Cursor) : List Char × Cursor :=
  match c.rest with
  | '\r' :: '\n' :: rest => (['\n'], ⟨rest, c.index + 2, c.line + 1, 0⟩)
  | x :: rest =>
    if x.toNat == 0x2028 || x.toNat == 0x2029 then ([x], ⟨rest, c.index + 1, c.line + 1, 0⟩)
    else if isBreak x then (['\n'], ⟨rest, c.index + 1, c.line + 1, 0⟩)
    else ([], c)
  | [] => ([], c)

def skipLine (c : Cursor) : Cursor := c.readLine.2

/-- Over the longest run of characters of a class. -/
def takeWhile (c : Cursor) (p : Char → Bool) : List Char × Cursor :=
  let run := c.rest.takeWhile p
  (run, c.skipN run.length)

/-- Whether a document marker stands here: three equal marks at the start of a line. -/
def atMarker (c : Cursor) (mark : Char) : Bool :=
  c.column == 0 && c.rest.take 3 == [mark, mark, mark] && atBlank (c.rest.drop 3)

def atDocumentMark (c : Cursor) : Bool := c.atMarker '-' || c.atMarker '.'

end Cursor

/-! ## Blanks inside scalars -/

/-- Blanks and line breaks between two pieces of a scalar. -/
structure Gap where
  blanks : List Char
  broken : Bool
  firstBreak : List Char
  moreBreaks : List Char

/-- What a gap stands for: one line break is a blank, of several the first one is dropped. -/
def Gap.text (g : Gap) : List Char :=
  if !g.broken then g.blanks
  else if g.firstBreak == ['\n'] then (if g.moreBreaks.isEmpty then [' '] else g.moreBreaks)
  else g.firstBreak ++ g.moreBreaks

/-- Reads a gap; a tab may not stand before the column `indent` of a new line. -/
def readGap (indent : Nat) : (fuel : Nat) → Gap → Cursor → Option (Gap × Cursor)
  | 0, g, c => some (g, c)
  | fuel + 1, g, c =>
    match c.rest with
    | [] => some (g, c)
    | x :: _ =>
      if isBlank x then
        if g.broken then
          if x == '\t' && c.column < indent then none else readGap indent fuel g c.skip
        else readGap indent fuel { g with blanks := g.blanks ++ [x] } c.skip
      else if isBreak x then
        let (b, c) := c.readLine
        if g.broken then readGap indent fuel { g with moreBreaks := g.moreBreaks ++ b } c
        else readGap indent fuel ⟨[], true, b, []⟩ c
      else some (g, c)

/-! ## Plain scalars -/

/-- The characters up to a blank or to what ends a plain scalar. -/
def plainRun (flow : Bool) : List Char → Option (List Char)
  | [] => some []
  | c :: rest =>
    if isBlank c || isBreak c then some []
    else if flow && c == ':' && rest.head?.any (",?[]\x7b\x7d".toList.contains ·) then none
    else if (c == ':' && atBlank rest) || (flow && ",[]\x7b\x7d".toList.contains c) then some []
    else (plainRun flow rest).map (c :: ·)

/-- A plain scalar: its pieces are joined by the text of the gaps between them. The last component
tells whether it ended after a line break. -/
def plainScalar (flow : Bool) (indent : Nat) :
    (fuel : Nat) → List Char → Gap → Cursor → Option (List Char × Bool × Cursor)
  | 0, text, gap, c => some (text, gap.broken, c)
  | fuel + 1, text, gap, c =>
    if c.atDocumentMark || c.rest.head? == some '#' then some (text, gap.broken, c)
    else do
      let run ← plainRun flow c.rest
      let c := c.skipN run.length
      let (text, gap) := if run.isEmpty then (text, gap) else (text ++ gap.text ++ run, ⟨[], false, [], []⟩)
      if c.rest.isEmpty || !atBlank c.rest then some (text, gap.broken, c)
      else
        let (gap, c) ← readGap indent (c.rest.length + 1) ⟨[], false, [], []⟩ c
        if !flow && c.column < indent then some (text, gap.broken, c)
        else plainScalar flow indent fuel text gap c

/-! ## Quoted scalars -/

def hexValue? (c : Char) : Option Nat :=
  if '0' ≤ c ∧ c ≤ '9' then some (c.toNat - '0'.toNat)
  else if 'a' ≤ c ∧ c ≤ 'f' then some (c.toNat - 'a'.toNat + 10)
  else if 'A' ≤ c ∧ c ≤ 'F' then some (c.toNat - 'A'.toNat + 10)
  else none

/-- The number of exactly `count` hexadecimal digits. -/
def hexNumber? (count : Nat) (cs : List Char) : Option Nat :=
  if cs.length < count then none
  else (cs.take count).foldlM (fun n c => (hexValue? c).map fun d => n * 16 + d) 0

/-- The character of a code given by digits. -/
def codeChar? (n : Nat) : Option Char :=
  if (0xD800 ≤ n ∧ n ≤ 0xDFFF) ∨ 0x10FFFF < n then none else some (Char.ofNat n)

/-- What the characters after a backslash stand for, and how many they are. -/
def escape? : List Char → Option (Char × Nat)
  | '0' :: _ => some (Char.ofNat 0, 1)
  | 'a' :: _ => some (Char.ofNat 7, 1)
  | 'b' :: _ => some (Char.ofNat 8, 1)
  | 't' :: _ => some ('\t', 1)
  | '\t' :: _ => some ('\t', 1)
  | 'n' :: _ => some ('\n', 1)
  | 'v' :: _ => some (Char.ofNat 11, 1)
  | 'f' :: _ => some (Char.ofNat 12, 1)
  | 'r' :: _ => some ('\r', 1)
  | 'e' :: _ => some (Char.ofNat 27, 1)
  | ' ' :: _ => some (' ', 1)
  | '"' :: _ => some ('"', 1)
  | '/' :: _ => some ('/', 1)
  | '\\' :: _ => some ('\\', 1)
  | 'N' :: _ => some (Char.ofNat 0x85, 1)
  | '_' :: _ => some (Char.ofNat 0xA0, 1)
  | 'L' :: _ => some (Char.ofNat 0x2028, 1)
  | 'P' :: _ => some (Char.ofNat 0x2029, 1)
  | 'x' :: r => (hexNumber? 2 r).bind fun n => (codeChar? n).map (·, 3)
  | 'u' :: r => (hexNumber? 4 r).bind fun n => (codeChar? n).map (·, 5)
  | 'U' :: r => (hexNumber? 8 r).bind fun n => (codeChar? n).map (·, 9)
  | _ => none

/-- A quoted scalar after its opening quote. -/
def quotedScalar (single : Bool) : (fuel : Nat) → List Char → Cursor → Option (List Char × Cursor)
  | 0, _, _ => none
  | fuel + 1, text, c =>
    if c.atDocumentMark then none
    else match c.rest with
      | [] => none
      | x :: rest =>
        if single && x == '\'' && rest.head? == some '\'' then
          quotedScalar single fuel (text ++ ['\'']) (c.skipN 2)
        else if x == (if single then '\'' else '"') then some (text, c.skip)
        else if !single && x == '\\' then
          if rest.head?.any isBreak then do
            let (gap, c) ← readGap 0 (rest.length + 1) ⟨[], true, [], []⟩ c.skip.skipLine
            quotedScalar single fuel (text ++ gap.text) c
          else do
            let (y, n) ← escape? rest
            quotedScalar single fuel (text ++ [y]) (c.skipN (n + 1))
        else if isBlank x || isBreak x then do
          let (gap, c) ← readGap 0 (rest.length + 2) ⟨[], false, [], []⟩ c
          quotedScalar single fuel (text ++ gap.text) c
        else quotedScalar single fuel (text ++ [x]) c.skip

/-! ## Block scalars -/

/-- Which of the line breaks at the end of a block scalar are kept. -/
inductive Chomp where
  | strip | clip | keep
  deriving DecidableEq

/-- The marks after the indicator: an indentation and a chomping sign, in any order. -/
def blockHeader? (c : Cursor) : Option (Chomp × Nat × Cursor) :=
  let sign? : List Char → Option Chomp
    | '+' :: _ => some .keep
    | '-' :: _ => some .strip
    | _ => none
  let digit? : List Char → Option (Option Nat)
    | x :: _ => if x == '0' then none else some (if x.isDigit then some (x.toNat - 48) else none)
    | [] => some none
  match sign? c.rest with
  | some chomp => do
    let c := c.skip
    match ← digit? c.rest with
    | some n => pure (chomp, n, c.skip)
    | none => pure (chomp, 0, c)
  | none => do
    match ← digit? c.rest with
    | some n =>
      let c := c.skip
      match sign? c.rest with
      | some chomp => pure (chomp, n, c.skip)
      | none => pure (.clip, n, c)
    | none => pure (.clip, 0, c)

/-- Reads empty lines and the indentation of the next one; `indent = 0` is not known yet. -/
def blockBreaks (indent : Nat) : (fuel : Nat) → (deepest : Nat) → List Char → Cursor →
    Option (List Char × Nat × Cursor)
  | 0, deepest, breaks, c => some (breaks, deepest, c)
  | fuel + 1, deepest, breaks, c =>
    let run := c.rest.takeWhile (· == ' ')
    let n := if indent == 0 then run.length else min run.length (indent - c.column)
    let c := c.skipN n
    let deepest := max deepest c.column
    if (indent == 0 || c.column < indent) && c.rest.head? == some '\t' then none
    else if c.rest.isEmpty || !atBreak c.rest then some (breaks, deepest, c)
    else
      let (b, c) := c.readLine
      blockBreaks indent fuel deepest (breaks ++ b) c

/-- The lines of a block scalar: its text, the break after its last line, and further breaks. -/
def blockLines (folded : Bool) (indent : Nat) : (fuel : Nat) → (text firstBreak breaks : List Char) →
    (afterBlank : Bool) → Cursor → Option (List Char × List Char × List Char × Cursor)
  | 0, text, firstBreak, breaks, _, c => some (text, firstBreak, breaks, c)
  | fuel + 1, text, firstBreak, breaks, afterBlank, c =>
    if c.column != indent || c.rest.isEmpty then some (text, firstBreak, breaks, c)
    else do
      let blank := c.rest.head?.any isBlank
      let joined :=
        if folded && firstBreak == ['\n'] && !afterBlank && !blank then
          (if breaks.isEmpty then [' '] else [])
        else firstBreak
      let (line, c) := c.takeWhile fun x => !isBreak x
      let (b, c) := c.readLine
      let (more, _, c) ← blockBreaks indent (c.rest.length + 1) 0 [] c
      blockLines folded indent fuel (text ++ joined ++ breaks ++ line) b more blank c

/-- A block scalar after its indicator, inside a block at column `parent`. -/
def blockScalar (folded : Bool) (parent : Int) (c : Cursor) : Option (List Char × Cursor) := do
  let (chomp, increment, c) ← blockHeader? c
  let (_, c) := c.takeWhile isBlank
  let c := if c.rest.head? == some '#' then (c.takeWhile fun x => !isBreak x).2 else c
  if !atBreak c.rest then none
  else
    let c := c.skipLine
    let known := if increment == 0 then 0 else (max parent 0).toNat + increment
    let (breaks, deepest, c) ← blockBreaks known (c.rest.length + 1) 0 [] c
    let indent := if known != 0 then known else max (max deepest (parent + 1).toNat) 1
    let (text, firstBreak, breaks, c) ← blockLines folded indent (c.rest.length + 1) [] [] breaks false c
    pure (text ++ (if chomp == .strip then [] else firstBreak) ++
      (if chomp == .keep then breaks else []), c)

/-! ## Tags and directives -/

/-- The characters of a tag, with two hexadecimal digits after a percent sign for one byte. -/
def tagChars (verbatim : Bool) : (fuel : Nat) → List UInt8 → Cursor → Option (List UInt8 × Cursor)
  | 0, bytes, c => some (bytes, c)
  | fuel + 1, bytes, c =>
    match c.rest with
    | '%' :: r => do
      let n ← hexNumber? 2 r
      tagChars verbatim fuel (bytes ++ [UInt8.ofNat n]) (c.skipN 3)
    | x :: _ =>
      if isNameChar x || ";/?:@&=+$.!~*'()".toList.contains x ||
          (verbatim && ",[]".toList.contains x) then
        tagChars verbatim fuel (bytes ++ [UInt8.ofNat x.toNat]) c.skip
      else some (bytes, c)
    | [] => some (bytes, c)

/-- The text of tag characters. -/
def tagText? (verbatim : Bool) (c : Cursor) : Option (List Char × Cursor) := do
  let (bytes, c) ← tagChars verbatim (c.rest.length + 1) [] c
  let s ← String.fromUTF8? ⟨bytes.toArray⟩
  pure (s.toList, c)

/-- A handle: `!`, or a name between two of them; without its second one it is no handle yet. -/
def tagHandle? (c : Cursor) : Option (List Char × Cursor) :=
  match c.rest with
  | '!' :: _ =>
    let (name, c) := c.skip.takeWhile isNameChar
    match c.rest with
    | '!' :: _ => some ('!' :: name ++ ['!'], c.skip)
    | _ => some ('!' :: name, c)
  | _ => none

/-- A tag: verbatim, or a handle and a suffix. -/
def tagToken? (flow : Bool) (c : Cursor) : Option (Token × Cursor) := do
  let (handle, suffix, c) ← match c.rest with
    | '!' :: '<' :: _ => do
      let (uri, c) ← tagText? true (c.skipN 2)
      if uri.isEmpty || c.rest.head? != some '>' then none else pure ([], uri, c.skip)
    | _ => do
      let (handle, c) ← tagHandle? c
      if 1 < handle.length && handle.getLast? == some '!' then
        let (suffix, c) ← tagText? false c
        if suffix.isEmpty then none else pure (handle, suffix, c)
      else
        let (more, c) ← tagText? false c
        let suffix := handle.tail ++ more
        if suffix.isEmpty then pure ([], ['!'], c) else pure (['!'], suffix, c)
  if atBlank c.rest || (flow && c.rest.head? == some ',') then pure (.tag handle suffix, c) else none

/-- A version number. -/
def versionNumber? (c : Cursor) : Option (Nat × Cursor) :=
  let (ds, c) := c.takeWhile Char.isDigit
  if ds.isEmpty || 9 < ds.length then none
  else some (ds.foldl (fun n d => n * 10 + (d.toNat - 48)) 0, c)

/-- A directive after its percent sign. -/
def directive? (c : Cursor) : Option (Token × Cursor) := do
  let (name, c) := c.takeWhile isNameChar
  if !atBlank c.rest then none
  else
    let (token, c) ←
      if name == "YAML".toList then do
        let (major, c) ← versionNumber? (c.takeWhile isBlank).2
        if c.rest.head? != some '.' then none
        else
          let (minor, c) ← versionNumber? c.skip
          pure (Token.version major minor, c)
      else if name == "TAG".toList then do
        let (handle, c) ← tagHandle? (c.takeWhile isBlank).2
        if handle.length != 1 && handle.getLast? != some '!' then none
        else if !(c.rest.head?.any isBlank) then none
        else
          let (start, c) ← tagText? true (c.takeWhile isBlank).2
          if start.isEmpty || !atBlank c.rest then none else pure (Token.tagDirective handle start, c)
      else none
    let (_, c) := c.takeWhile isBlank
    let c := if c.rest.head? == some '#' then (c.takeWhile fun x => !isBreak x).2 else c
    if atBreak c.rest then pure (token, c.skipLine) else none

/-! ## The scanner -/

/-- A place where a key without a mark may begin. -/
structure PossibleKey where
  required : Bool
  /-- The number of tokens before it. -/
  position : Nat
  index : Nat
  line : Nat
  column : Nat

/-- The state between two tokens. -/
structure Scanner where
  cursor : Cursor
  tokens : Array Token
  /-- The column of the innermost block, and those of the blocks around it. -/
  indent : Int
  outer : List Int
  /-- The possible key of each flow collection, innermost first, and last that of the block. -/
  keys : List (Option PossibleKey)
  keyAllowed : Bool

namespace Scanner

/-- Whether the innermost collection is a flow collection. -/
def inFlow (s : Scanner) : Bool := 1 < s.keys.length

def push (s : Scanner) (t : Token) : Scanner := { s with tokens := s.tokens.push t }

/-- Puts a token in front of tokens that were already read. -/
def insertAt (s : Scanner) (position : Nat) (t : Token) : Scanner :=
  { s with tokens := s.tokens.take position ++ #[t] ++ s.tokens.drop position }

/-- Gives up the possible key of the innermost collection, unless it must be one. -/
def dropKey? (s : Scanner) : Option Scanner :=
  match s.keys with
  | some k :: rest => if k.required then none else some { s with keys := none :: rest }
  | _ => some s

/-- Notes that a key may begin here. -/
def noteKey? (s : Scanner) : Option Scanner :=
  if !s.keyAllowed then some s
  else do
    let s ← s.dropKey?
    let k : PossibleKey := ⟨!s.inFlow && s.indent == s.cursor.column, s.tokens.size, s.cursor.index,
      s.cursor.line, s.cursor.column⟩
    pure { s with keys := some k :: s.keys.tail }

/-- Gives up possible keys that are too long or on an earlier line. -/
def dropStaleKeys? (s : Scanner) : Option Scanner := do
  let keys ← s.keys.mapM fun k? => match k? with
    | none => some none
    | some k =>
      if k.line < s.cursor.line || k.index + 1024 < s.cursor.index then
        (if k.required then none else some none)
      else some (some k)
  pure { s with keys }

/-- Opens a block at a column that is deeper than the current one. -/
def openBlock (s : Scanner) (column : Nat) (position : Option Nat) (t : Token) : Scanner :=
  if s.inFlow || (column : Int) ≤ s.indent then s
  else
    let s := { s with outer := s.indent :: s.outer, indent := column }
    match position with
    | none => s.push t
    | some p => s.insertAt p t

/-- The tokens and columns after closing all blocks deeper than a column. -/
def closing (column : Int) : List Int → Int → Array Token → Array Token × Int × List Int
  | [], indent, tokens => (tokens, indent, [])
  | o :: outer, indent, tokens =>
    if column < indent then closing column outer o (tokens.push .blockEnd)
    else (tokens, indent, o :: outer)

/-- Closes all blocks that are deeper than a column. -/
def closeBlocks (s : Scanner) (column : Int) : Scanner :=
  if s.inFlow then s
  else
    let (tokens, indent, outer) := closing column s.outer s.indent s.tokens
    { s with tokens, indent, outer }

/-- Goes on to the next token, over blanks, comments and line breaks. -/
def toNextToken : (fuel : Nat) → Scanner → Scanner
  | 0, s => s
  | fuel + 1, s =>
    let c := s.cursor
    let c := if c.column == 0 && c.rest.head? == some byteOrderMark then c.skip else c
    let (_, c) := c.takeWhile fun x => x == ' ' || ((s.inFlow || !s.keyAllowed) && x == '\t')
    let c := if c.rest.head? == some '#' then (c.takeWhile fun x => !isBreak x).2 else c
    if !c.rest.isEmpty && atBreak c.rest then
      toNextToken fuel { s with cursor := c.skipLine, keyAllowed := s.keyAllowed || !s.inFlow }
    else { s with cursor := c }

/-- Reads a document marker. -/
def marker? (s : Scanner) (t : Token) : Option Scanner := do
  let s ← (s.closeBlocks (-1)).dropKey?
  pure ({ s with keyAllowed := false, cursor := s.cursor.skipN 3 }.push t)

/-- Reads the indicator of an item, key or value in a block. -/
def blockIndicator? (s : Scanner) (opens t : Token) (keyAllowed : Bool) : Option Scanner := do
  if !s.inFlow && !s.keyAllowed then none
  else
    let s := if s.inFlow then s else s.openBlock s.cursor.column none opens
    let s ← s.dropKey?
    pure ({ s with keyAllowed, cursor := s.cursor.skip }.push t)

/-- Reads the colon of a value; it makes the possible key a key. -/
def value? (s : Scanner) : Option Scanner :=
  match s.keys with
  | some k :: rest =>
    let s := s.insertAt k.position .key
    let s := s.openBlock k.column (some k.position) .blockMapping
    some ({ s with keys := none :: rest, keyAllowed := false, cursor := s.cursor.skip }.push .value)
  | _ =>
    if !s.inFlow && !s.keyAllowed then none
    else
      let s := if s.inFlow then s else s.openBlock s.cursor.column none .blockMapping
      some ({ s with keyAllowed := !s.inFlow, cursor := s.cursor.skip }.push .value)

/-- Reads a name after `&` or `*`. -/
def name? (s : Scanner) (token : List Char → Token) : Option Scanner := do
  let s ← s.noteKey?
  let (name, c) := s.cursor.skip.takeWhile isNameChar
  if name.isEmpty || !(atBlank c.rest || c.rest.head?.any ("?:,]\x7d%@`".toList.contains ·)) then none
  else pure ({ s with keyAllowed := false, cursor := c }.push (token name))

/-- Reads a token that begins with a given character, not at the end of the stream. -/
def token? (s : Scanner) (x : Char) (rest : List Char) : Option Scanner :=
  let c := s.cursor
  if c.column == 0 && x == '%' then do
    let s ← (s.closeBlocks (-1)).dropKey?
    let (t, c) ← directive? c.skip
    pure ({ s with keyAllowed := false, cursor := c }.push t)
  else if c.atMarker '-' then s.marker? .documentStart
  else if c.atMarker '.' then s.marker? .documentEnd
  else if x == '[' || x == '\x7b' then do
    let s ← s.noteKey?
    pure ({ s with keys := none :: s.keys, keyAllowed := true, cursor := c.skip }.push
      (if x == '[' then .flowSequence else .flowMapping))
  else if x == ']' || x == '\x7d' then do
    let s ← s.dropKey?
    pure ({ s with keys := if s.inFlow then s.keys.tail else s.keys, keyAllowed := false,
                   cursor := c.skip }.push
      (if x == ']' then .flowSequenceEnd else .flowMappingEnd))
  else if x == ',' then do
    let s ← s.dropKey?
    pure ({ s with keyAllowed := true, cursor := c.skip }.push .flowEntry)
  else if x == '-' && atBlank rest then s.blockIndicator? .blockSequence .blockEntry true
  else if x == '?' && (s.inFlow || atBlank rest) then
    s.blockIndicator? .blockMapping .key (!s.inFlow)
  else if x == ':' && (s.inFlow || atBlank rest) then s.value?
  else if x == '*' then s.name? .alias
  else if x == '&' then s.name? .anchor
  else if x == '!' then do
    let s ← s.noteKey?
    let (t, c) ← tagToken? s.inFlow c
    pure ({ s with keyAllowed := false, cursor := c }.push t)
  else if (x == '|' || x == '>') && !s.inFlow then do
    let s ← s.dropKey?
    let (text, c) ← blockScalar (x == '>') s.indent c.skip
    pure ({ s with keyAllowed := true, cursor := c }.push
      (.scalar text (if x == '>' then .folded else .literal)))
  else if x == '\'' || x == '"' then do
    let s ← s.noteKey?
    let (text, c) ← quotedScalar (x == '\'') (rest.length + 2) [] c.skip
    pure ({ s with keyAllowed := false, cursor := c }.push
      (.scalar text (if x == '\'' then .singleQuoted else .doubleQuoted)))
  else if (!(isBlank x || isBreak x) && !("-?:,[]\x7b\x7d#&*!|>'\"%@`".toList.contains x)) ||
      (x == '-' && !(rest.head?.any isBlank)) ||
      (!s.inFlow && (x == '?' || x == ':') && !atBlank rest) then do
    let s ← s.noteKey?
    let (text, broken, c) ← plainScalar s.inFlow (s.indent + 1).toNat (rest.length + 2) []
      ⟨[], false, [], []⟩ c
    pure ({ s with keyAllowed := broken, cursor := c }.push (.scalar text .plain))
  else none

/-- Reads tokens to the end of the stream. -/
def run : (fuel : Nat) → Scanner → Option (Array Token)
  | 0, _ => none
  | fuel + 1, s => do
    let s := toNextToken (s.cursor.rest.length + 1) s
    let s ← s.dropStaleKeys?
    let s := s.closeBlocks s.cursor.column
    match s.cursor.rest with
    | [] =>
      let s ← (s.closeBlocks (-1)).dropKey?
      pure (s.tokens.push .streamEnd)
    | x :: rest => run fuel (← s.token? x rest)

end Scanner

/-- The tokens of a stream, if it has a structure at all. -/
def tokens? (s : String) : Option (List Token) :=
  let cs := match s.toList with
    | c :: rest => if c == byteOrderMark then rest else c :: rest
    | [] => []
  if cs.all isAllowed then
    (Scanner.run (cs.length + 2)
      ⟨⟨cs, 0, 0, 0⟩, #[], -1, [], [none], true⟩).map Array.toList
  else none

end Qualification.Yaml
