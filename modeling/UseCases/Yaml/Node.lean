/-
YAML nodes, and documents made of them.

Nodes are read from tokens by recursive descent. Anchors are known from where they stand
on, so an alias can be replaced by what it means as soon as it is read; an alias of a
collection becomes an empty one of the same kind, because only scalars are ever asked for.
-/
import UseCases.Yaml.Token

namespace UseCases.Yaml

/-- A node of a document. -/
inductive Node where
  /-- A scalar, whether it is plain, and its tag. -/
  | scalar (text : String) (plain : Bool) (tag : Option String)
  | sequence (items : List Node)
  | mapping (pairs : List (Node × Node))
deriving Repr

/-- The node of nothing: an empty plain scalar. -/
def Node.nothing : Node := .scalar "" true none

/-- What tags and aliases of a document refer to. -/
structure Names where
  /-- The handles of tags and what they stand for. -/
  handles : List (String × String)
  anchors : List (String × Node)
deriving Repr

/-- What stands in front of the tags of the language itself. -/
def coreTag : String := "tag:yaml.org,2002:"

namespace Names

/-- The names that every document knows. -/
def standard : Names := ⟨[("!", "!"), ("!!", coreTag)], []⟩

/-- The tag that a handle and a suffix mean. A tag in full has no handle. -/
def tag? (n : Names) (handle suffix : String) : Option String :=
  if handle.isEmpty then some suffix
  else (n.handles.lookup handle).map (· ++ suffix)

/-- The names with one more anchor, if there is one. -/
def anchored (n : Names) (anchor : Option String) (node : Node) : Names :=
  match anchor with
  | some name => { n with anchors := (name, node) :: n.anchors }
  | none => n

end Names

/-- A node that was read, the tokens after it and the names after it. -/
structure NodeRead where
  node : Node
  tokens : List Token
  names : Names
deriving Repr

/-- The anchor and the tag in front of a node. -/
structure Properties where
  anchor : Option String
  tag : Option String
deriving Repr

/-- No anchor and no tag. -/
def Properties.none : Properties := ⟨Option.none, Option.none⟩

/-- Reads an anchor and a tag, each at most once and in any order. -/
def readProperties? (names : Names) : List Token → Option (Properties × List Token)
  | .anchor a :: .tag h s :: rest => (names.tag? h s).map fun t => (⟨some a, some t⟩, rest)
  | .tag h s :: .anchor a :: rest => (names.tag? h s).map fun t => (⟨some a, some t⟩, rest)
  | .anchor a :: rest => some (⟨some a, none⟩, rest)
  | .tag h s :: rest => (names.tag? h s).map fun t => (⟨none, some t⟩, rest)
  | rest => some (.none, rest)

/-- No value of a block can start with this token. -/
def endsBlockValue : List Token → Bool
  | .key :: _ | .value :: _ | .blockEnd :: _ => true
  | _ => false

/-- No item of a sequence without a block of its own can start with this token. -/
def endsItem : List Token → Bool
  | .item :: _ => true
  | rest => endsBlockValue rest

/-- No item of a block of its own can start with this token. -/
def endsBlockItem : List Token → Bool
  | .item :: _ | .blockEnd :: _ => true
  | _ => false

/-- No value between braces can start with this token. -/
def endsFlowValue : List Token → Bool
  | .comma :: _ | .flowMappingEnd :: _ => true
  | _ => false

/-- No key between braces can start with this token. -/
def endsFlowKey : List Token → Bool
  | .value :: _ => true
  | rest => endsFlowValue rest

/-- No value of a pair between square brackets can start with this token. -/
def endsPairValue : List Token → Bool
  | .comma :: _ | .flowSequenceEnd :: _ => true
  | _ => false

/-- No key of a pair between square brackets can start with this token. -/
def endsPairKey : List Token → Bool
  | .value :: _ => true
  | rest => endsPairValue rest

mutual

/-- Reads a node, in at most `fuel` steps. A block can start only where `block` holds, and a
sequence without a block of its own only where `bare` does. -/
def readNode? (block bare : Bool) : (fuel : Nat) → Names → List Token → Option NodeRead
  | 0, _, _ => none
  | fuel + 1, names, tokens =>
    match tokens with
    | .alias name :: rest => (names.anchors.lookup name).map fun node => ⟨node, rest, names⟩
    | _ => do
      let (properties, tokens) ← readProperties? names tokens
      let sequenceNames := names.anchored properties.anchor (.sequence [])
      let mappingNames := names.anchored properties.anchor (.mapping [])
      let scalar (text : String) (plain : Bool) (rest : List Token) : NodeRead :=
        let node := Node.scalar text plain properties.tag
        ⟨node, rest, names.anchored properties.anchor node⟩
      match tokens, block, bare with
      | .item :: _, _, true => readBareItems? fuel [] sequenceNames tokens
      | .scalar text plain :: rest, _, _ => return scalar text plain rest
      | .flowSequence :: rest, _, _ => readFlowItems? fuel true [] sequenceNames rest
      | .flowMapping :: rest, _, _ => readFlowPairs? fuel true [] mappingNames rest
      | .blockSequence :: rest, true, _ => readItems? fuel [] sequenceNames rest
      | .blockMapping :: rest, true, _ => readPairs? fuel [] mappingNames rest
      | rest, _, _ =>
        if properties.anchor.isSome || properties.tag.isSome then return scalar "" true rest
        else none

/-- Reads the items of a block after those that were read before. -/
def readItems? : (fuel : Nat) → List Node → Names → List Token → Option NodeRead
  | 0, _, _, _ => none
  | fuel + 1, items, names, tokens =>
    match tokens with
    | .item :: rest => do
      let read ← if endsBlockItem rest then some ⟨.nothing, rest, names⟩
        else readNode? true false fuel names rest
      readItems? fuel (items ++ [read.node]) read.names read.tokens
    | .blockEnd :: rest => some ⟨.sequence items, rest, names⟩
    | _ => none

/-- Reads the items of a sequence without a block of its own. -/
def readBareItems? : (fuel : Nat) → List Node → Names → List Token → Option NodeRead
  | 0, _, _, _ => none
  | fuel + 1, items, names, tokens =>
    match tokens with
    | .item :: rest => do
      let read ← if endsItem rest then some ⟨.nothing, rest, names⟩
        else readNode? true false fuel names rest
      readBareItems? fuel (items ++ [read.node]) read.names read.tokens
    | rest => some ⟨.sequence items, rest, names⟩

/-- Reads the pairs of a block after those that were read before. -/
def readPairs? : (fuel : Nat) → List (Node × Node) → Names → List Token → Option NodeRead
  | 0, _, _, _ => none
  | fuel + 1, pairs, names, tokens =>
    match tokens with
    | .blockEnd :: rest => some ⟨.mapping pairs, rest, names⟩
    | .key :: rest => do
      let key ← if endsBlockValue rest then some ⟨.nothing, rest, names⟩
        else readNode? true true fuel names rest
      let value ← readBlockValue? fuel key.names key.tokens
      readPairs? fuel (pairs ++ [(key.node, value.node)]) value.names value.tokens
    | _ => none

/-- Reads the value of a pair of a block, if there is one. -/
def readBlockValue? : (fuel : Nat) → Names → List Token → Option NodeRead
  | 0, _, _ => none
  | fuel + 1, names, tokens =>
    match tokens with
    | .value :: rest =>
      if endsBlockValue rest then some ⟨.nothing, rest, names⟩
      else readNode? true true fuel names rest
    | rest => some ⟨.nothing, rest, names⟩

/-- Reads the items between square brackets after those that were read before. Between two
items stands a comma. -/
def readFlowItems? :
    (fuel : Nat) → (first : Bool) → List Node → Names → List Token → Option NodeRead
  | 0, _, _, _, _ => none
  | fuel + 1, first, items, names, tokens =>
    let another (tokens : List Token) : Option NodeRead :=
      match tokens with
      | .flowSequenceEnd :: rest => some ⟨.sequence items, rest, names⟩
      | .key :: rest => do
        let key ← if endsPairKey rest then some ⟨.nothing, rest, names⟩
          else readNode? false false fuel names rest
        let value ← match key.tokens with
          | .value :: rest =>
            if endsPairValue rest then some ⟨.nothing, rest, key.names⟩
            else readNode? false false fuel key.names rest
          | rest => some ⟨.nothing, rest, key.names⟩
        let pair := Node.mapping [(key.node, value.node)]
        readFlowItems? fuel false (items ++ [pair]) value.names value.tokens
      | rest => do
        let read ← readNode? false false fuel names rest
        readFlowItems? fuel false (items ++ [read.node]) read.names read.tokens
    match first, tokens with
    | _, .flowSequenceEnd :: rest => some ⟨.sequence items, rest, names⟩
    | true, _ => another tokens
    | false, .comma :: rest => another rest
    | false, _ => none

/-- Reads the pairs between braces after those that were read before. Between two pairs
stands a comma. -/
def readFlowPairs? :
    (fuel : Nat) → (first : Bool) → List (Node × Node) → Names → List Token → Option NodeRead
  | 0, _, _, _, _ => none
  | fuel + 1, first, pairs, names, tokens =>
    let another (tokens : List Token) : Option NodeRead :=
      match tokens with
      | .flowMappingEnd :: rest => some ⟨.mapping pairs, rest, names⟩
      | .key :: rest => do
        let key ← if endsFlowKey rest then some ⟨.nothing, rest, names⟩
          else readNode? false false fuel names rest
        let value ← match key.tokens with
          | .value :: rest =>
            if endsFlowValue rest then some ⟨.nothing, rest, key.names⟩
            else readNode? false false fuel key.names rest
          | rest => some ⟨.nothing, rest, key.names⟩
        readFlowPairs? fuel false (pairs ++ [(key.node, value.node)]) value.names value.tokens
      | rest => do
        let read ← readNode? false false fuel names rest
        readFlowPairs? fuel false (pairs ++ [(read.node, .nothing)]) read.names read.tokens
    match first, tokens with
    | _, .flowMappingEnd :: rest => some ⟨.mapping pairs, rest, names⟩
    | true, _ => another tokens
    | false, .comma :: rest => another rest
    | false, _ => none

end

/-! ### Documents -/

/-- What the directives in front of a document say. -/
structure Directives where
  version : Bool
  handles : List (String × String)
deriving Repr

/-- Reads directives; each can be given once, and the version is 1.1 or 1.2. -/
def readDirectives? (found : Directives) : List Token → Option (Directives × List Token)
  | .version major minor :: rest =>
    if found.version || major != 1 || !(minor == 1 || minor == 2) then none
    else readDirectives? { found with version := true } rest
  | .tagDirective handle stem :: rest =>
    if (found.handles.lookup handle).isSome then none
    else readDirectives? { found with handles := (handle, stem) :: found.handles } rest
  | rest => some (found, rest)

/-- The document has no content before this token. -/
def endsDocument : List Token → Bool
  | [] => true
  | .version _ _ :: _ | .tagDirective _ _ :: _ | .documentStart :: _ | .documentEnd :: _ => true
  | _ => false

/-- The content of a document, in at most `fuel` steps. -/
def readContent? (fuel : Nat) (names : Names) (tokens : List Token) :
    Option (Node × List Token) :=
  if endsDocument tokens then some (.nothing, tokens)
  else (readNode? true false fuel names tokens).map fun read => (read.node, read.tokens)

/-- Reads the first document. Only the first one can do without the marker of its start. -/
def readDocument? (fuel : Nat) (tokens : List Token) : Option (Node × List Token) := do
  let (directives, rest) ← readDirectives? ⟨false, []⟩ tokens
  let names : Names :=
    { Names.standard with handles := directives.handles ++ Names.standard.handles }
  match rest with
  | .documentStart :: rest => readContent? fuel names rest
  | rest =>
    if endsDocument rest || directives.version || !directives.handles.isEmpty then none
    else readContent? fuel names rest

/-- The tokens without markers of a document's end in front. -/
def skipDocumentEnds : List Token → List Token
  | .documentEnd :: rest => skipDocumentEnds rest
  | rest => rest

/-- The one document of a text, or `none` inside when the text has no document at all. A text
with two documents is refused. -/
def parse? (text : String) : Option (Option Node) := do
  let tokens ← tokens? text.toList
  if tokens.isEmpty then return none
  let (node, rest) ← readDocument? (4 * tokens.length + 4) tokens
  if (skipDocumentEnds rest).isEmpty then return some node else none

end UseCases.Yaml
