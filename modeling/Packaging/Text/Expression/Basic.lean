/-! Regular expressions and the places in a text that they lead to. Each way through an expression
gives one place, and the places stand in the order in which the ways are tried.
-/

namespace Packaging.Text

/-- A place in a text: the character before it, the text after it, and what groups by their numbers
have taken on the way, the last one first.
-/
structure Place where
  previous : Option Char
  rest : List Char
  groups : List (Nat × List Char) := []
deriving DecidableEq

namespace Place

/-- The place after one more character. -/
def next? (place : Place) : Option (Char × Place) :=
  match place.rest with
  | [] => none
  | c :: rest => some (c, { place with previous := some c, rest := rest })

/-- The place after one of several tests for each next character, if all of them succeed. -/
def passed? (place : Place) : List (Char → Bool) → Option Place
  | [] => some place
  | accepts :: more =>
    match place.next? with
    | some (c, next) => if accepts c then next.passed? more else none
    | none => none

/-- The text from a place to a later one. -/
def textTo (place later : Place) : List Char :=
  place.rest.take (place.rest.length - later.rest.length)

end Place

/-- A regular expression. A repetition that is not `greedy` tries few rounds before many, and what
is meant `once` gives only the first of its ways. What a numbered group has taken can be wanted
`again`, where `same` compares characters.
-/
inductive Expression where
  | empty
  | one (accepts : Char → Bool)
  | here (holds : Place → Bool)
  | sequence (first second : Expression)
  | either (first second : Expression)
  | repeated (least : Nat) (greatest : Option Nat) (greedy : Bool) (inner : Expression)
  | once (inner : Expression)
  | group (number : Nat) (inner : Expression)
  | again (number : Nat) (same : Char → Char → Bool)
  | ahead (wanted : Bool) (inner : Expression)
  | behind (wanted : Bool) (width : Nat) (inner : Expression)

namespace Expression

/-- The places after exactly `count` rounds of a step. -/
def rounds (step : Place → List Place) : (count : Nat) → Place → List Place
  | 0, place => [place]
  | count + 1, place => (step place).flatMap (rounds step count)

/-- The places after at most `count` rounds of a step. A round that takes nothing is the last. -/
def upTo (step : Place → List Place) (greedy : Bool) : (count : Nat) → Place → List Place
  | 0, place => [place]
  | count + 1, place =>
    let further := (step place).flatMap fun next =>
      if next.rest.length < place.rest.length then upTo step greedy count next else [next]
    if greedy then further ++ [place] else place :: further

/-- The places that an expression leads to. What looks behind starts as many characters earlier as
its `width` says, in the text `whole`.
-/
def places (whole : List Char) : Expression → Place → List Place
  | .empty, place => [place]
  | .one accepts, place =>
    match place.next? with
    | some (c, next) => if accepts c then [next] else []
    | none => []
  | .here holds, place => if holds place then [place] else []
  | .sequence first second, place =>
    (places whole first place).flatMap (places whole second)
  | .either first second, place => places whole first place ++ places whole second place
  | .repeated least greatest greedy inner, place =>
    let more := match greatest with
      | some greatest => min (greatest - least) (place.rest.length + 1)
      | none => place.rest.length + 1
    (rounds (places whole inner) least place).flatMap
      (upTo (places whole inner) greedy more)
  | .once inner, place => (places whole inner place).take 1
  | .group number inner, place =>
    (places whole inner place).map fun next =>
      { next with groups := (number, place.textTo next) :: next.groups }
  | .again number same, place =>
    match place.groups.lookup number with
    | some taken => (place.passed? (taken.map same)).toList
    | none => []
  | .ahead wanted inner, place =>
    match places whole inner place with
    | [] => if wanted then [] else [place]
    | next :: _ => if wanted then [{ place with groups := next.groups }] else []
  | .behind wanted width inner, place =>
    let passed := whole.length - place.rest.length
    let start := passed - width
    let before := { place with previous := (whole.take start).getLast?, rest := whole.drop start }
    let found := (places whole inner before).find? (·.rest = place.rest)
    match if width ≤ passed then found else none with
    | none => if wanted then [] else [place]
    | some next => if wanted then [{ place with groups := next.groups }] else []

def starts (previous : Option Char) : List Char → List Place
  | [] => [{ previous, rest := [] }]
  | c :: rest => { previous, rest := c :: rest } :: starts (some c) rest

/-- Whether an expression leads anywhere from some place of a text. -/
def occursIn (expression : Expression) (text : List Char) : Bool :=
  (starts none text).any fun place => !(places text expression place).isEmpty

end Expression

end Packaging.Text
