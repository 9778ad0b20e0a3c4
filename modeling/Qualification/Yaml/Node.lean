import Qualification.Yaml.Token
/-!
# Documents of YAML

`Yaml.document?` groups the tokens of a stream into the nodes of its one document. An alias holds the
number of an anchor; the document knows the node of each number.
-/

namespace Qualification.Yaml

/-- A node of a document. -/
inductive Node where
  | scalar (tag : Option String) (text : String) (style : Style)
  | sequence (tag : Option String) (items : List Node)
  | mapping (tag : Option String) (entries : List (Node × Node))
  | alias (anchor : Nat)
  deriving Inhabited

/-- A node that was left out. -/
def Node.absent : Node := .scalar none "" .plain

/-- A document: its node, if the stream is not empty, the anchored nodes, the latest first, and the
number of places where something begins or ends. -/
structure Document where
  root : Option Node
  anchors : List (Nat × Node)
  size : Nat

/-- What is known while a document is read. -/
structure Reading where
  tokens : List Token
  handles : List (List Char × List Char)
  /-- The number of each anchor name. -/
  names : List (List Char × Nat)
  anchors : List (Nat × Node)
  size : Nat

namespace Reading

def next (r : Reading) : Reading := { r with tokens := r.tokens.tail }

def peek (r : Reading) : Token := r.tokens.head?.getD .streamEnd

/-- Gives a name the next number; a name that is used again also counts its first use. -/
def nameAnchor (r : Reading) (name : List Char) : Nat × Reading :=
  let n := r.names.length
  (n, { r with names := (name, n) :: r.names.filter fun e => e.1 != name })

/-- The text of a tag, if its handle is known. -/
def tagText? (r : Reading) (handle suffix : List Char) : Option (List Char) :=
  if handle.isEmpty then some suffix else (r.handles.lookup handle).map (· ++ suffix)

def count (r : Reading) (n : Nat) : Reading := { r with size := r.size + n }

end Reading

/-- An anchor name and a tag in front of a node, in any order. -/
def properties? (r : Reading) : Option (Option (List Char) × Option (List Char) × Reading) :=
  match r.tokens with
  | .anchor a :: .tag h s :: _ => do
    let t ← r.tagText? h s
    pure (some a, some t, r.next.next)
  | .tag h s :: .anchor a :: _ => do
    let t ← r.tagText? h s
    pure (some a, some t, r.next.next)
  | .anchor a :: _ => some (some a, none, r.next)
  | .tag h s :: _ => do
    let t ← r.tagText? h s
    pure (none, some t, r.next)
  | _ => some (none, none, r)

/-- Whether one of the given tokens comes next. -/
def Reading.at (r : Reading) (ts : List Token) : Bool := ts.contains r.peek

mutual

/-- A node: `block` allows block collections, and `bare` a sequence at the column of its key. -/
def node? (block bare : Bool) : (fuel : Nat) → Reading → Option (Node × Reading)
  | 0, _ => none
  | fuel + 1, r =>
    match r.tokens with
    | .alias name :: _ => do
      let n ← r.names.lookup name
      pure (.alias n, r.next.count 1)
    | _ => do
      let (anchor, tag, r) ← properties? r
      let (id, r) := match anchor with
        | some a => let (n, r) := r.nameAnchor a; (some n, r)
        | none => (none, r)
      let label := tag.map String.ofList
      let (node, r) ←
        if bare && r.peek == .blockEntry then do
          let (items, r) ← bareItems? fuel r
          pure (.sequence label items, r.count 2)
        else match r.tokens with
          | .scalar text style :: _ =>
            -- the tag `!` says of a scalar only what its style says
            let label := if label == some "!" then none else label
            some (.scalar label (String.ofList text) style, r.next.count 1)
          | .flowSequence :: _ => do
            let (items, r) ← flowItems? true fuel r.next
            pure (.sequence label items, r.count 2)
          | .flowMapping :: _ => do
            let (entries, r) ← flowEntries? true fuel r.next
            pure (.mapping label entries, r.count 2)
          | .blockSequence :: _ =>
            if block then do
              let (items, r) ← blockItems? fuel r.next
              pure (.sequence label items, r.count 2)
            else if anchor.isSome || tag.isSome then
              some (.scalar label "" .plain, r.count 1)
            else none
          | .blockMapping :: _ =>
            if block then do
              let (entries, r) ← blockEntries? fuel r.next
              pure (.mapping label entries, r.count 2)
            else if anchor.isSome || tag.isSome then
              some (.scalar label "" .plain, r.count 1)
            else none
          | _ =>
            if anchor.isSome || tag.isSome then some (.scalar label "" .plain, r.count 1) else none
      match id with
      | some n => pure (node, { r with anchors := (n, node) :: r.anchors })
      | none => pure (node, r)

/-- A node, or an absent one before any of the given tokens. -/
def nodeUnless? (block bare : Bool) (ends : List Token) : (fuel : Nat) → Reading →
    Option (Node × Reading)
  | 0, _ => none
  | fuel + 1, r => if r.at ends then some (.absent, r.count 1) else node? block bare fuel r

/-- The items of a block sequence, to its end. -/
def blockItems? : (fuel : Nat) → Reading → Option (List Node × Reading)
  | 0, _ => none
  | fuel + 1, r =>
    match r.peek with
    | .blockEntry => do
      let (n, r) ← nodeUnless? true false [.blockEntry, .blockEnd] fuel r.next
      let (ns, r) ← blockItems? fuel r
      pure (n :: ns, r)
    | .blockEnd => some ([], r.next)
    | _ => none

/-- The items of a sequence at the column of its key. -/
def bareItems? : (fuel : Nat) → Reading → Option (List Node × Reading)
  | 0, _ => none
  | fuel + 1, r =>
    match r.peek with
    | .blockEntry => do
      let (n, r) ← nodeUnless? true false [.blockEntry, .key, .value, .blockEnd] fuel r.next
      let (ns, r) ← bareItems? fuel r
      pure (n :: ns, r)
    | _ => some ([], r)

/-- The entries of a block mapping, to its end. -/
def blockEntries? : (fuel : Nat) → Reading → Option (List (Node × Node) × Reading)
  | 0, _ => none
  | fuel + 1, r =>
    match r.peek with
    | .key => do
      let (k, r) ← nodeUnless? true true [.key, .value, .blockEnd] fuel r.next
      let (v, r) ← if r.peek == .value then
          nodeUnless? true true [.key, .value, .blockEnd] fuel r.next
        else some (.absent, r.count 1)
      let (es, r) ← blockEntries? fuel r
      pure ((k, v) :: es, r)
    | .blockEnd => some ([], r.next)
    | _ => none

/-- The items of a flow sequence, to its end; a key in it makes a mapping of one entry. -/
def flowItems? (first : Bool) : (fuel : Nat) → Reading → Option (List Node × Reading)
  | 0, _ => none
  | fuel + 1, r =>
    if r.peek == .flowSequenceEnd then some ([], r.next)
    else do
      let r ← if first then some r else if r.peek == .flowEntry then some r.next else none
      match r.peek with
      | .key =>
        let r := r.next
        let (k, r) ← if r.at [.value, .flowEntry, .flowSequenceEnd] then
            some (.absent, r.next.count 1)
          else node? false false fuel r
        let (v, r) ← if r.peek == .value then
            nodeUnless? false false [.flowEntry, .flowSequenceEnd] fuel r.next
          else some (.absent, r.count 1)
        let (ns, r) ← flowItems? false fuel r
        pure (.mapping none [(k, v)] :: ns, r.count 2)
      | .flowSequenceEnd => some ([], r.next)
      | _ =>
        let (n, r) ← node? false false fuel r
        let (ns, r) ← flowItems? false fuel r
        pure (n :: ns, r)

/-- The entries of a flow mapping, to its end; an item without a key mark is a key. -/
def flowEntries? (first : Bool) : (fuel : Nat) → Reading →
    Option (List (Node × Node) × Reading)
  | 0, _ => none
  | fuel + 1, r =>
    if r.peek == .flowMappingEnd then some ([], r.next)
    else do
      let r ← if first then some r else if r.peek == .flowEntry then some r.next else none
      match r.peek with
      | .key =>
        let (k, r) ← nodeUnless? false false [.value, .flowEntry, .flowMappingEnd] fuel r.next
        let (v, r) ← if r.peek == .value then
            nodeUnless? false false [.flowEntry, .flowMappingEnd] fuel r.next
          else some (.absent, r.count 1)
        let (es, r) ← flowEntries? false fuel r
        pure ((k, v) :: es, r)
      | .flowMappingEnd => some ([], r.next)
      | _ =>
        let (k, r) ← node? false false fuel r
        let (es, r) ← flowEntries? false fuel (r.count 1)
        pure ((k, .absent) :: es, r)

end

/-- The handles that are always known. -/
def standardHandles : List (List Char × List Char) :=
  [(['!'], ['!']), (['!', '!'], "tag:yaml.org,2002:".toList)]

/-- The directives before a document: at most one version, 1.1 or 1.2, and handles, each once. -/
def directives? : List Token → (versioned : Bool) → List (List Char × List Char) →
    Option (List (List Char × List Char) × List Token)
  | .version major minor :: rest, versioned, handles =>
    if versioned || major != 1 || (minor != 1 && minor != 2) then none
    else directives? rest true handles
  | .tagDirective h p :: rest, versioned, handles =>
    if (handles.lookup h).isSome then none else directives? rest versioned ((h, p) :: handles)
  | tokens, _, handles => some (handles, tokens)

/-- Adds the standard handles to those of the directives. -/
def withStandard (handles : List (List Char × List Char)) : List (List Char × List Char) :=
  handles ++ standardHandles

/-- The one document of a stream. -/
def document? (s : String) : Option Document := do
  let tokens ← tokens? s
  let fuel := 4 * tokens.length + 8
  match tokens with
  | [.streamEnd] => pure ⟨none, [], 0⟩
  | _ =>
    let (handles, rest) ← directives? tokens false []
    let explicit := rest.head? == some .documentStart
    let directed := rest.length != tokens.length
    if directed && !explicit then none
    else
      let r : Reading := ⟨if explicit then rest.tail else rest, withStandard handles, [], [], 0⟩
      let (n, r) ←
        if explicit then nodeUnless? true false [.documentStart, .documentEnd, .streamEnd] fuel r
        else node? true false fuel r
      let after := r.tokens.dropWhile (· == .documentEnd)
      if after == [.streamEnd] then pure ⟨some n, r.anchors, r.size⟩ else none

end Qualification.Yaml
