import Packaging.Document.Yaml.Node
import Packaging.Document.Yaml.Resolution
import Packaging.Document.Yaml.Scanner

/-! Reading YAML text into a value. Aliases are replaced by what they stand for, within limits on
nesting and on their number.
-/

namespace Packaging.Yaml

/-! ### Numbering of anchors

An anchor is known by a number, which is the count of distinct names before it. When a name is
used again its number is new, and the next new name shares it.
-/

/-- The number of each name so far. -/
abbrev Names := List (List Char × Nat)

def Names.find? (names : Names) (name : List Char) : Option Nat :=
  (List.find? (·.1 = name) names).map Prod.snd

/-- The names after an anchor, and its number. -/
def Names.declare (names : Names) (name : List Char) : Names × Nat :=
  let number := names.length
  if names.any (·.1 = name) then
    (names.map fun entry => if entry.1 = name then (name, number) else entry, number)
  else ((name, number) :: names, number)

/-- The names after the anchor of a node, if it has one. -/
def Names.anchored (names : Names) : Option (List Char) → Names × Option Nat
  | none => (names, none)
  | some name =>
    let (names, number) := names.declare name
    (names, some number)

mutual

/-- Replace the names in a node by numbers. An alias needs an anchor before it. -/
def number (names : Names) : NamedNode → Option (Names × Node Nat)
  | .alias name => (names.find? name).map fun target => (names, .alias target)
  | .scalar anchor tag plain content =>
    let (names, anchor) := names.anchored anchor
    some (names, .scalar anchor tag plain content)
  | .sequence anchor tag items =>
    let (names, anchor) := names.anchored anchor
    (numberItems names items).map fun (names, items) => (names, .sequence anchor tag items)
  | .mapping anchor tag entries =>
    let (names, anchor) := names.anchored anchor
    (numberEntries names entries).map fun (names, entries) =>
      (names, .mapping anchor tag entries)

def numberItems (names : Names) : List NamedNode → Option (Names × List (Node Nat))
  | [] => some (names, [])
  | item :: rest => do
    let (names, item) ← number names item
    let (names, rest) ← numberItems names rest
    return (names, item :: rest)

/-- Number the entries in order, each key before its value. -/
def numberEntries (names : Names)
    : List (NamedNode × NamedNode) → Option (Names × List (Node Nat × Node Nat))
  | [] => some (names, [])
  | (key, value) :: rest => do
    let (names, key) ← number names key
    let (names, value) ← number names value
    let (names, rest) ← numberEntries names rest
    return (names, (key, value) :: rest)

end

/-- The anchored nodes, a later one before an earlier one. -/
abbrev Anchored := List (Nat × Node Nat)

/-- Add a node if it has an anchor. -/
def Anchored.add (anchored : Anchored) (anchor : Option Nat) (node : Node Nat) : Anchored :=
  match anchor with
  | none => anchored
  | some number => (number, node) :: anchored

mutual

/-- Collect the anchored nodes inside a node. -/
def collect (anchored : Anchored) : Node Nat → Anchored
  | .alias _ => anchored
  | .scalar anchor tag plain content => anchored.add anchor (.scalar anchor tag plain content)
  | .sequence anchor tag items =>
    collectItems (anchored.add anchor (.sequence anchor tag items)) items
  | .mapping anchor tag entries =>
    collectEntries (anchored.add anchor (.mapping anchor tag entries)) entries

def collectItems (anchored : Anchored) : List (Node Nat) → Anchored
  | [] => anchored
  | item :: rest => collectItems (collect anchored item) rest

def collectEntries (anchored : Anchored) : List (Node Nat × Node Nat) → Anchored
  | [] => anchored
  | (key, value) :: rest => collectEntries (collect (collect anchored key) value) rest

end

mutual

/-- The count of marks that a node takes in a document's sequence of events: one for a scalar or
an alias, and two for a collection besides its parts.
-/
def size : Node Nat → Nat
  | .alias _ => 1
  | .scalar .. => 1
  | .sequence _ _ items => sizeItems items + 2
  | .mapping _ _ entries => sizeEntries entries + 2

def sizeItems : List (Node Nat) → Nat
  | [] => 0
  | item :: rest => size item + sizeItems rest

def sizeEntries : List (Node Nat × Node Nat) → Nat
  | [] => 0
  | (key, value) :: rest => size key + size value + sizeEntries rest

end

/-! ### Values -/

/-- What aliases stand for, and how many of them may be followed in all. -/
structure Context where
  anchored : Anchored
  limit : Nat

/-- A reading that counts the aliases it has followed. -/
abbrev Counted (α : Type) := StateT Nat Option α

/-- The node itself, or the node that an alias stands for. -/
def Context.follow (context : Context) : Node Nat → Counted (Node Nat)
  | .alias target => do
    let followed ← get
    if context.limit ≤ followed then failure
    set (followed + 1)
    match context.anchored.find? (·.1 = target) with
    | some (_, node) => return node
    | none => failure
  | node => return node

/-- The key that a node stands for: the content of a scalar, whatever its tag. -/
def Context.key (context : Context) (node : Node Nat) : Counted String := do
  match ← context.follow node with
  | .scalar _ _ _ content => return String.ofList content
  | _ => failure

/-- Whether a collection may have the given tag. A local tag is refused. -/
def allowsTag (tag : Option (List Char)) : Bool :=
  (tag.bind List.head?) ≠ some '!'

def scalarValue? (tag : Option (List Char)) (plain : Bool) (content : List Char)
    : Option Value :=
  match tag with
  | some tag => taggedValue? tag content
  | none => if plain then plainValue? content else some (.text (String.ofList content))

/-- The value of a node with at most `depth` collections inside one another. The last of
repeated keys wins.
-/
def Context.value (context : Context) (depth : Nat) (node : Node Nat) : Counted Value := do
  match ← context.follow node with
  | .alias _ => failure
  | .scalar _ tag plain content => StateT.lift (scalarValue? tag plain content)
  | .sequence _ tag items =>
    match depth with
    | 0 => failure
    | depth + 1 =>
      if allowsTag tag then .list <$> items.mapM (context.value depth) else failure
  | .mapping _ tag entries =>
    match depth with
    | 0 => failure
    | depth + 1 =>
      if allowsTag tag then
        let fields ← entries.foldlM (fun fields (key, item) => do
          let key ← context.key key
          let item ← context.value depth item
          return Fields.insert key item fields) []
        return .mapping fields
      else failure

/-- How many collections may stand inside one another. -/
def depthLimit : Nat := 128

/-- How many aliases may be followed for each mark of the document. -/
def aliasesPerMark : Nat := 100

/-- The value that a YAML text stands for, null if it holds no document. -/
def read? (text : String) : Option Value := do
  let tokens ← tokens? text.toList
  match ← readDocument depthLimit tokens with
  | none => return .null
  | some document =>
    let (_, node) ← number [] document
    let context : Context := { anchored := collect [] node, limit := aliasesPerMark * size node }
    (context.value depthLimit node).run' 0

end Packaging.Yaml
