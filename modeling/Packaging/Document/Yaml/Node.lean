import Packaging.Document.Yaml.Token

/-! From YAML tokens to the one document they spell. Nodes are anchored and aliased by labels of
any kind, which are names as written here.
-/

namespace Packaging.Yaml

/-- A node of a document. -/
inductive Node (label : Type) where
  | alias (target : label)
  | scalar (anchor : Option label) (tag : Option (List Char)) (plain : Bool)
      (content : List Char)
  | sequence (anchor : Option label) (tag : Option (List Char)) (items : List (Node label))
  | mapping (anchor : Option label) (tag : Option (List Char))
      (entries : List (Node label × Node label))
deriving Inhabited

/-- A node whose labels are names. -/
abbrev NamedNode := Node (List Char)

/-- The scalar that stands where nothing is written. -/
def NamedNode.empty : NamedNode :=
  .scalar none none true []

/-- A step of reading: what was read and the tokens after it. -/
abbrev Step (α : Type) := Option (α × List Token)

/-- Continue on the tokens that the first step left. -/
def Step.andThen {α β : Type} (step : Step α) (next : α → List Token → Step β) : Step β :=
  Option.bind step fun (value, rest) => next value rest

def Step.mapValue {α β : Type} (step : Step α) (f : α → β) : Step β :=
  Option.map (fun (value, rest) => (f value, rest)) step

/-! ### Directives -/

/-- The tag handles in force, each with the text it stands for. -/
abbrev Handles := List (List Char × List Char)

/-- The handles that need no directive. -/
def defaultHandles : Handles :=
  [(['!'], ['!']), (['!', '!'], "tag:yaml.org,2002:".toList)]

/-- Read the directives of a document. A version is given once and is 1.1 or 1.2, and a handle is
declared once.
-/
def readDirectives (versioned : Bool) (handles : Handles) : List Token → Step Handles
  | .version major minor :: rest =>
    if versioned ∨ major ≠ 1 ∨ ¬(minor = 1 ∨ minor = 2) then none
    else readDirectives true handles rest
  | .tagDirective handle lead :: rest =>
    if handles.any (·.1 = handle) then none
    else readDirectives versioned ((handle, lead) :: handles) rest
  | rest => some (handles, rest)

/-- The tag that a handle and a suffix stand for. Declared handles come before the default ones.
-/
def resolveTag (handles : Handles) (handle suffix : List Char) : Option (List Char) :=
  if handle.isEmpty then some suffix
  else (handles.find? (·.1 = handle)).map fun found => found.2 ++ suffix

/-! ### Properties of a node -/

/-- An anchor and a tag, in either order. -/
structure Properties where
  anchor : Option (List Char) := none
  tag : Option (List Char) := none

/-- Whether a node has properties of its own. -/
def Properties.isEmpty (properties : Properties) : Bool :=
  properties.anchor.isNone && properties.tag.isNone

def readProperties (handles : Handles) : List Token → Step Properties
  | .anchor name :: .tag handle suffix :: rest =>
    (resolveTag handles handle suffix).map fun tag => ({ anchor := some name, tag }, rest)
  | .tag handle suffix :: .anchor name :: rest =>
    (resolveTag handles handle suffix).map fun tag => ({ anchor := some name, tag }, rest)
  | .anchor name :: rest => some ({ anchor := some name }, rest)
  | .tag handle suffix :: rest =>
    (resolveTag handles handle suffix).map fun tag => ({ tag }, rest)
  | rest => some ({}, rest)

def scalarNode (properties : Properties) (plain : Bool) (content : List Char) : NamedNode :=
  .scalar properties.anchor properties.tag plain content

/-! ### Collections

Each reader takes the reader of the nodes inside. A round that leaves no fewer tokens would end
the reading; none does, since each starts with a token of its own.
-/

/-- A reader of nodes, in the contexts named by its arguments: whether block collections may
start, and whether a sequence may stand without indentation.
-/
abbrev NodeReader := (block indentless : Bool) → List Token → Step NamedNode

/-- Continue with `next` on the tokens that a part left, if they are fewer than before. -/
def continueWith {α β : Type} (before : List Token) (part : Step α)
    (next : α → (rest : List Token) → rest.length < before.length → Option β) : Option β :=
  match part with
  | none => none
  | some (value, rest) =>
    if h : rest.length < before.length then next value rest h else none

/-- The node of a block entry, empty if the entry ends at once. -/
def blockItem (node : NodeReader) (ends : Token → Bool) (indentless : Bool)
    (tokens : List Token) : Step NamedNode :=
  match tokens with
  | token :: _ => if ends token then some (.empty, tokens) else node true indentless tokens
  | [] => node true indentless tokens

/-- Whether a token ends an entry of an indented sequence. -/
def endsEntry : Token → Bool
  | .blockEntry | .blockEnd => true
  | _ => false

/-- Whether a token ends a key or a value of a block mapping. -/
def endsPart : Token → Bool
  | .key | .value | .blockEnd => true
  | _ => false

/-- The items of an indented sequence, up to its end. -/
def blockItems (node : NodeReader) (done : List NamedNode) (tokens : List Token)
    : Step (List NamedNode) :=
  match _start : tokens with
  | .blockEntry :: rest =>
    continueWith tokens (blockItem node endsEntry false rest) fun item left _shorter =>
      blockItems node (item :: done) left
  | .blockEnd :: rest => some (done.reverse, rest)
  | _ => none
termination_by tokens.length
decreasing_by simpa [_start] using _shorter

/-- The items of a sequence that is not indented against its key. Its end has no token. -/
def indentlessItems (node : NodeReader) (done : List NamedNode) (tokens : List Token)
    : Step (List NamedNode) :=
  match _start : tokens with
  | .blockEntry :: rest =>
    let ends token := endsEntry token || endsPart token
    continueWith tokens (blockItem node ends false rest) fun item left _shorter =>
      indentlessItems node (item :: done) left
  | _ => some (done.reverse, tokens)
termination_by tokens.length
decreasing_by simpa [_start] using _shorter

/-- The value of a block entry, empty if no colon is there. -/
def blockValue (node : NodeReader) : List Token → Step NamedNode
  | .value :: rest => blockItem node endsPart true rest
  | rest => some (.empty, rest)

/-- The entries of a block mapping, up to its end. -/
def blockEntries (node : NodeReader) (done : List (NamedNode × NamedNode))
    (tokens : List Token) : Step (List (NamedNode × NamedNode)) :=
  match _start : tokens with
  | .key :: rest =>
    let entry :=
      (blockItem node endsPart true rest).andThen fun key rest =>
        (blockValue node rest).mapValue fun value => (key, value)
    continueWith tokens entry fun entry left _shorter => blockEntries node (entry :: done) left
  | .blockEnd :: rest => some (done.reverse, rest)
  | _ => none
termination_by tokens.length
decreasing_by simpa [_start] using _shorter

/-- The value of a flow entry, empty if no colon is there or the entry ends after it. -/
def flowValue (node : NodeReader) (last : Token) : List Token → Step NamedNode
  | .value :: rest =>
    match rest with
    | token :: _ =>
      if token = .flowEntry ∨ token = last then some (.empty, rest) else node false false rest
    | [] => node false false rest
  | rest => some (.empty, rest)

/-- The one entry of a mapping that stands in a flow sequence without braces. A key that ends at
once takes the token that ends it along.
-/
def flowPair (node : NodeReader) (tokens : List Token) : Step NamedNode :=
  let key :=
    match tokens with
    | .value :: rest | .flowEntry :: rest | .flowSequenceEnd :: rest =>
      some (NamedNode.empty, rest)
    | _ => node false false tokens
  Step.andThen key fun key rest =>
    (flowValue node .flowSequenceEnd rest).mapValue fun value =>
      .mapping none none [(key, value)]

/-- The tokens after the comma between two entries. The first entry has none before it. -/
def afterComma (first : Bool) (tokens : List Token) : Option (List Token) :=
  if first then some tokens
  else
    match tokens with
    | .flowEntry :: rest => some rest
    | _ => none

/-- The items of a flow sequence, up to its bracket. -/
def flowItems (node : NodeReader) (done : List NamedNode) (tokens : List Token)
    : Step (List NamedNode) :=
  match _start : tokens with
  | .flowSequenceEnd :: rest => some (done.reverse, rest)
  | _ =>
    match afterComma done.isEmpty tokens with
    | none => none
    | some (.flowSequenceEnd :: rest) => some (done.reverse, rest)
    | some inner =>
      let item :=
        match inner with
        | .key :: rest => flowPair node rest
        | _ => node false false inner
      continueWith tokens item fun item left _ => flowItems node (item :: done) left
termination_by tokens.length

/-- One entry of a flow mapping. A node without a key mark is a key without a value. -/
def flowEntry (node : NodeReader) (tokens : List Token) : Step (NamedNode × NamedNode) :=
  match tokens with
  | .key :: rest =>
    let key :=
      match rest with
      | .value :: _ | .flowEntry :: _ | .flowMappingEnd :: _ => some (NamedNode.empty, rest)
      | _ => node false false rest
    Step.andThen key fun key rest =>
      (flowValue node .flowMappingEnd rest).mapValue fun value => (key, value)
  | _ => Step.mapValue (node false false tokens) fun key => (key, .empty)

/-- The entries of a flow mapping, up to its brace. -/
def flowEntries (node : NodeReader) (done : List (NamedNode × NamedNode))
    (tokens : List Token) : Step (List (NamedNode × NamedNode)) :=
  match _start : tokens with
  | .flowMappingEnd :: rest => some (done.reverse, rest)
  | _ =>
    match afterComma done.isEmpty tokens with
    | none => none
    | some (.flowMappingEnd :: rest) => some (done.reverse, rest)
    | some inner =>
      continueWith tokens (flowEntry node inner) fun entry left _ =>
        flowEntries node (entry :: done) left
termination_by tokens.length

/-! ### Nodes and documents -/

/-- Read a node with at most `depth` collections inside one another. -/
def readNode (handles : Handles) (depth : Nat) (block indentless : Bool) (tokens : List Token)
    : Step NamedNode :=
  match tokens with
  | .alias name :: rest => some (.alias name, rest)
  | _ =>
    (readProperties handles tokens).andThen fun properties rest =>
      match depth, rest with
      | _, .scalar content plain :: rest => some (scalarNode properties plain content, rest)
      | depth + 1, .flowSequenceStart :: rest =>
        (flowItems (readNode handles depth) [] rest).mapValue
          (.sequence properties.anchor properties.tag)
      | depth + 1, .flowMappingStart :: rest =>
        (flowEntries (readNode handles depth) [] rest).mapValue
          (.mapping properties.anchor properties.tag)
      | depth + 1, rest =>
        match block, indentless, rest with
        | _, true, .blockEntry :: _ =>
          (indentlessItems (readNode handles depth) [] rest).mapValue
            (.sequence properties.anchor properties.tag)
        | true, _, .blockSequenceStart :: rest =>
          (blockItems (readNode handles depth) [] rest).mapValue
            (.sequence properties.anchor properties.tag)
        | true, _, .blockMappingStart :: rest =>
          (blockEntries (readNode handles depth) [] rest).mapValue
            (.mapping properties.anchor properties.tag)
        | _, _, rest => emptyNode properties rest
      | 0, rest => emptyNode properties rest
where
  /-- Properties alone make an empty scalar. -/
  emptyNode (properties : Properties) (rest : List Token) : Step NamedNode :=
    if properties.isEmpty then none
    else some (.scalar properties.anchor properties.tag true [], rest)

/-- Whether a document's content ends before it starts. -/
def endsDocument : List Token → Bool
  | [] | .documentStart :: _ | .documentEnd :: _ | .version _ _ :: _ | .tagDirective _ _ :: _ =>
    true
  | _ => false

/-- The document of the tokens, or nothing for a text without any. A second document is refused,
but not further marks of the first one's end.
-/
def readDocument (depth : Nat) (tokens : List Token) : Option (Option NamedNode) := do
  if tokens.isEmpty then return none
  let explicit :=
    match tokens with
    | .documentStart :: _ | .version _ _ :: _ | .tagDirective _ _ :: _ => true
    | _ => false
  let (node, rest) ←
    if explicit then do
      let (handles, rest) ← readDirectives false [] tokens
      match rest with
      | .documentStart :: rest =>
        if endsDocument rest then some (NamedNode.empty, rest)
        else readNode (handles ++ defaultHandles) depth true false rest
      | _ => none
    else readNode defaultHandles depth true false tokens
  guard (rest.all (· = .documentEnd))
  return some node

end Packaging.Yaml
