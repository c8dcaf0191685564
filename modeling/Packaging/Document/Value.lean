/-! The untyped value tree that documents are read into and written from. A mapping is a list of
entries, kept in ascending order of keys by every operation here.
-/

namespace Packaging

/-- A document before any typed decoding, so that an absent key and a key given as `null` stay
apart. A real number is kept as the bits of its double.
-/
inductive Value where
  | null
  | boolean (given : Bool)
  | integer (number : Int)
  | real (bits : UInt64)
  | text (content : String)
  | list (items : List Value)
  | mapping (entries : List (String × Value))
deriving Inhabited

/-- The entries of a mapping. -/
abbrev Fields := List (String × Value)

namespace Fields

/-- The value under `key`, if the mapping has one. -/
def find? (key : String) : Fields → Option Value
  | [] => none
  | (name, value) :: rest => if name = key then some value else find? key rest

/-- Whether the mapping has an entry under `key`, be it `null`. -/
def has (key : String) (fields : Fields) : Bool :=
  (find? key fields).isSome

/-- The mapping without its entries under `key`. -/
def erase (key : String) (fields : Fields) : Fields :=
  fields.filter fun entry => entry.1 ≠ key

/-- The mapping with `value` under `key`, in the place of an earlier value or before the first
greater key. Keys compare by code points, which is the order of their encoded bytes.
-/
def insert (key : String) (value : Value) : Fields → Fields
  | [] => [(key, value)]
  | (name, old) :: rest =>
    if key < name then (key, value) :: (name, old) :: rest
    else if key = name then (key, value) :: rest
    else (name, old) :: insert key value rest

/-- The mapping with `value` under `key` unless it already has that key. -/
def insertNew (key : String) (value : Value) (fields : Fields) : Fields :=
  if has key fields then fields else insert key value fields

/-- The mapping of the given entries, the last one of a repeated key winning. -/
def ofList (entries : List (String × Value)) : Fields :=
  entries.foldl (fun fields entry => insert entry.1 entry.2 fields) []

/-- The keys in the order of the entries. -/
def keys (fields : Fields) : List String :=
  fields.map Prod.fst

/-- Every key stands before the keys after it, so no key is repeated. -/
def Ascending (fields : Fields) : Prop :=
  fields.Pairwise fun left right => left.1 < right.1

end Fields

namespace Value

mutual

/-- The same tree with the entries of every mapping in ascending order. -/
def sorted : Value → Value
  | .list items => .list (sortedItems items)
  | .mapping entries => .mapping (Fields.ofList (sortedEntries entries))
  | value => value

def sortedItems : List Value → List Value
  | [] => []
  | item :: rest => item.sorted :: sortedItems rest

/-- Each value sorted under its key. -/
def sortedEntries : List (String × Value) → List (String × Value)
  | [] => []
  | (key, value) :: rest => (key, value.sorted) :: sortedEntries rest

end

mutual

def same : Value → Value → Bool
  | .null, .null => true
  | .boolean a, .boolean b => a = b
  | .integer a, .integer b => a = b
  | .real a, .real b => a = b
  | .text a, .text b => a = b
  | .list a, .list b => sameItems a b
  | .mapping a, .mapping b => sameEntries a b
  | _, _ => false

/-- Whether two lists hold the same trees. -/
def sameItems : List Value → List Value → Bool
  | [], [] => true
  | a :: as, b :: bs => same a b && sameItems as bs
  | _, _ => false

/-- Whether two lists hold the same entries. -/
def sameEntries : List (String × Value) → List (String × Value) → Bool
  | [], [] => true
  | (k, a) :: as, (l, b) :: bs => k = l && same a b && sameEntries as bs
  | _, _ => false

end

mutual

/-- The test for sameness decides equality, by induction over the left tree. -/
theorem same_iff (a b : Value)
    : same a b = true ↔ a = b := by
  cases a <;> cases b <;> simp [same, sameItems_iff, sameEntries_iff]

/-- The test on lists decides equality, item by item. -/
theorem sameItems_iff (as bs : List Value)
    : sameItems as bs = true ↔ as = bs := by
  match as, bs with
  | [], [] => simp [sameItems]
  | [], _ :: _ => simp [sameItems]
  | _ :: _, [] => simp [sameItems]
  | a :: as, b :: bs => simp [sameItems, same_iff a b, sameItems_iff as bs]

/-- The test on entries decides equality, entry by entry. -/
theorem sameEntries_iff (as bs : List (String × Value))
    : sameEntries as bs = true ↔ as = bs := by
  match as, bs with
  | [], [] => simp [sameEntries]
  | [], _ :: _ => simp [sameEntries]
  | _ :: _, [] => simp [sameEntries]
  | (k, a) :: as, (l, b) :: bs =>
    simp [sameEntries, same_iff a b, sameEntries_iff as bs, and_assoc]

end

instance : DecidableEq Value := fun a b => decidable_of_iff (same a b = true) (same_iff a b)

end Value

/-- What a value is, as far as a message that expected something else names it. -/
inductive Kind where
  | null
  | boolean
  | number
  | text
  | list
  | mapping
deriving DecidableEq

/-- The kind of a value. -/
def Value.kind : Value → Kind
  | .null => .null
  | .boolean _ => .boolean
  | .integer _ => .number
  | .real _ => .number
  | .text _ => .text
  | .list _ => .list
  | .mapping _ => .mapping

/-- The kind with its article. -/
def Kind.phrase : Kind → String
  | .null => "null"
  | .boolean => "a boolean"
  | .number => "a number"
  | .text => "a string"
  | .list => "a list"
  | .mapping => "a mapping"

end Packaging
