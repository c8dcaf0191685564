import Mathlib.Data.String.Basic
import Packaging.Git.RemoteUrl

/-! Remote URLs of one repository. Its namespace and its name are the last two parts of the URL,
whatever stands before them, whichever characters separate them and however the URL ends.
-/

namespace Packaging.Git.RemoteUrl

-----------------------------------------------------------------------------------------
-- Separators
-----------------------------------------------------------------------------------------

theorem separates_iff {c : Char}
    : separates c = true ↔ c = '/' ∨ c = ':' := by
  simp [separates]

/-- A text in which nothing separates parts. -/
def Plain (text : List Char) : Prop :=
  '/' ∉ text ∧ ':' ∉ text
deriving Decidable

theorem plain_iff {text : List Char}
    : Plain text ↔ ∀ c ∈ text, separates c = false := by
  constructor
  · intro plain c member
    refine Bool.eq_false_iff.mpr fun separated => ?_
    rcases separates_iff.mp separated with rfl | rfl
    · exact plain.1 member
    · exact plain.2 member
  · intro plain
    constructor <;>
      intro member <;>
      exact absurd (plain _ member) (by decide)

/-- A text has a last separator unless it is plain. By induction over the text. -/
theorem plain_or_exists_last (text : List Char)
    : Plain text
      ∨ ∃ before separator last,
          separates separator = true ∧ Plain last ∧ text = before ++ separator :: last := by
  induction text with
  | nil => exact .inl ⟨List.not_mem_nil, List.not_mem_nil⟩
  | cons c rest ih =>
      rcases ih with plain | ⟨before, separator, last, separated, plain, rfl⟩
      · cases separated : separates c with
        | true => exact .inr ⟨[], c, rest, separated, plain, rfl⟩
        | false =>
            exact .inl (plain_iff.mpr (List.forall_mem_cons.mpr ⟨separated, plain_iff.mp plain⟩))
      · exact .inr ⟨c :: before, separator, last, separated, plain, rfl⟩

-----------------------------------------------------------------------------------------
-- The last two parts
-----------------------------------------------------------------------------------------

/-- What may stand before the last two parts: nothing, or what ends with a separator. -/
def IsFront (front : List Char) : Prop :=
  front = [] ∨ ∃ before separator, separates separator = true ∧ front = before ++ [separator]

/-- The last two parts of a text. The name is behind the last separator, and the scope between that
one and the one before it, if there is any.
-/
structure LastParts (text scope name : List Char) : Prop where
  plainScope : Plain scope
  plainName : Plain name
  ends
    : ∃ front separator,
        IsFront front ∧ separates separator = true ∧ text = front ++ scope ++ separator :: name

/-- A text has two last parts unless it is plain. -/
theorem plain_or_lastParts (text : List Char)
    : Plain text ∨ ∃ scope name, LastParts text scope name := by
  rcases plain_or_exists_last text with plain | ⟨before, second, name, separated, plainName, rfl⟩
  · exact .inl plain
  · right
    rcases plain_or_exists_last before with plain | ⟨front, first, scope, parted, plainScope, rfl⟩
    · exact ⟨before, name, plain, plainName, [], second, .inl rfl, separated, rfl⟩
    · refine ⟨scope, name, plainScope, plainName, front ++ [first], second, ?_, separated, ?_⟩
      · exact .inr ⟨front, first, parted, rfl⟩
      · simp

theorem pieces_of_plain {text : List Char} (plain : Plain text)
    : Text.pieces separates text = [text] :=
  Text.pieces_of_forall (plain_iff.mp plain)

/-- The last two parts are the last two of the pieces. -/
theorem LastParts.exists_pieces {text scope name : List Char} (parts : LastParts text scope name)
    : ∃ others, Text.pieces separates text = others ++ [scope, name] := by
  obtain ⟨plainScope, plainName, front, second, isFront, separated, rfl⟩ := parts
  have behind
      : Text.pieces separates (front ++ scope ++ second :: name)
        = Text.pieces separates (front ++ scope) ++ [name] := by
    rw [Text.pieces_append separated, pieces_of_plain plainName]
  rcases isFront with rfl | ⟨before, first, parted, rfl⟩
  · exact ⟨[], by rw [behind, List.nil_append, pieces_of_plain plainScope]; rfl⟩
  · refine ⟨Text.pieces separates before, ?_⟩
    rw [behind, List.append_assoc before, List.singleton_append, Text.pieces_append parted,
      pieces_of_plain plainScope]
    simp

theorem split?_of_plain {url : String} (plain : Plain (trimmed url.toList))
    : split? url = none := by
  rw [split?, pieces_of_plain plain]
  rfl

theorem split?_of_lastParts {url : String} {scope name : List Char}
    (parts : LastParts (trimmed url.toList) scope name)
    : split? url
      = if scope = [] ∨ name = [] then none
        else some (String.ofList scope, String.ofList name) := by
  obtain ⟨others, pieces⟩ := parts.exists_pieces
  have reversed
      : (Text.pieces separates (trimmed url.toList)).reverse
        = name :: scope :: others.reverse := by
    rw [pieces]
    simp
  rw [split?, reversed]
  simp [or_comm]

-----------------------------------------------------------------------------------------
-- Ends of URLs
-----------------------------------------------------------------------------------------

/-- The ending that a name may have in a URL. -/
def ending : List Char :=
  ['.', 'g', 'i', 't']

/-- What is left of a URL without all slashes at its end, and then without one ending. -/
def LeftOf (url rest : List Char) : Prop :=
  ∃ core slashes,
    url = core ++ List.replicate slashes '/'
    ∧ core.getLast? ≠ some '/'
    ∧ (core = rest ++ ending ∨ core = rest ∧ ¬ ending <:+ core)

theorem dropWhile_slashes {core : List Char} (last : core.getLast? ≠ some '/') (slashes : Nat)
    : (core ++ List.replicate slashes '/').reverse.dropWhile (· = '/') = core.reverse := by
  have all : ∀ c ∈ List.replicate slashes '/', decide (c = '/') = true := by
    intro c member
    exact decide_eq_true (List.eq_of_mem_replicate member)
  rw [List.reverse_append, List.reverse_replicate, List.dropWhile_append_of_pos all]
  cases reversed : core.reverse with
  | nil => rfl
  | cons c rest =>
      have other : c ≠ '/' := by
        rintro rfl
        exact last (by rw [List.getLast?_eq_head?_reverse, reversed, List.head?_cons])
      exact List.dropWhile_cons_of_neg (by simpa using other)

/-- Every URL is a text that does not end with a slash, and slashes behind it. -/
theorem exists_core (url : List Char)
    : ∃ core slashes, url = core ++ List.replicate slashes '/' ∧ core.getLast? ≠ some '/' := by
  have all
      : url.reverse.takeWhile (· = '/')
        = List.replicate (url.reverse.takeWhile (· = '/')).length '/' := by
    refine List.eq_replicate_iff.mpr ⟨rfl, fun c member => ?_⟩
    simpa using List.all_eq_true.mp List.all_takeWhile c member
  refine ⟨(url.reverse.dropWhile (· = '/')).reverse,
    (url.reverse.takeWhile (· = '/')).length, ?_, ?_⟩
  · calc url
      _ = (url.reverse.takeWhile (· = '/') ++ url.reverse.dropWhile (· = '/')).reverse := by
        rw [List.takeWhile_append_dropWhile, List.reverse_reverse]
      _ = _ := by
        rw [List.reverse_append, all, List.reverse_replicate, List.length_replicate]
  · rw [List.getLast?_reverse]
    intro slash
    have fails := List.head?_dropWhile_not (· = '/') url.reverse
    simp [slash] at fails

theorem trimmed_of_ending (rest : List Char) (slashes : Nat)
    : trimmed (rest ++ ending ++ List.replicate slashes '/') = rest := by
  have last : (rest ++ ending).getLast? ≠ some '/' := by simp [ending]
  rw [trimmed, dropWhile_slashes last]
  simp [ending]

theorem trimmed_of_not_ending {core : List Char} (last : core.getLast? ≠ some '/')
    (other : ¬ ending <:+ core) (slashes : Nat)
    : trimmed (core ++ List.replicate slashes '/') = core := by
  rw [trimmed, dropWhile_slashes last]
  split
  · next rest reversed =>
    refine absurd ⟨rest.reverse, ?_⟩ other
    rw [← List.reverse_inj, reversed]
    simp [ending]
  · exact List.reverse_reverse core

/-- Exactly one text is left of a URL. -/
theorem leftOf_iff {url rest : List Char}
    : LeftOf url rest ↔ trimmed url = rest := by
  constructor
  · rintro ⟨core, slashes, rfl, last, rfl | ⟨rfl, other⟩⟩
    · exact trimmed_of_ending rest slashes
    · exact trimmed_of_not_ending last other slashes
  · rintro rfl
    obtain ⟨core, slashes, rfl, last⟩ := exists_core url
    refine ⟨core, slashes, rfl, last, ?_⟩
    by_cases suffix : ending <:+ core
    · obtain ⟨rest, rfl⟩ := suffix
      exact .inl (by rw [trimmed_of_ending])
    · exact .inr ⟨(trimmed_of_not_ending last suffix slashes).symm, suffix⟩

-----------------------------------------------------------------------------------------
-- Spellings
-----------------------------------------------------------------------------------------

/-- A namespace or a name: it has content, and no separator. -/
structure IsPart (text : String) : Prop where
  content : text ≠ ""
  plain : Plain text.toList

/-- A URL from what stands before its last two parts, these parts and how it ends. -/
def spelled (front : String) (scope : String) (separator : Char) (name : String)
    (withEnding : Bool) (slashes : Nat)
    : String :=
  front ++ scope ++ String.singleton separator ++ name ++ (if withEnding then ".git" else "")
    ++ String.ofList (List.replicate slashes '/')

theorem toList_spelled (front scope : String) (separator : Char) (name : String)
    (withEnding : Bool) (slashes : Nat)
    : (spelled front scope separator name withEnding slashes).toList
      = front.toList ++ scope.toList ++ separator :: name.toList
        ++ (if withEnding then ending else []) ++ List.replicate slashes '/' := by
  cases withEnding <;> simp [spelled, String.toList_append, ending]

/-- No separator is part of the ending, so the ending of a URL is one of its name. -/
theorem suffix_name_of_suffix {before name : List Char} {separator : Char}
    (separated : separates separator = true) (suffix : ending <:+ before ++ separator :: name)
    : ending <:+ name := by
  have outside : separator ∉ ending := by
    rcases separates_iff.mp separated with rfl | rfl <;> decide
  have behind : separator :: name <:+ before ++ separator :: name := List.suffix_append _ _
  rcases List.suffix_or_suffix_of_suffix suffix behind with within | around
  · rcases List.suffix_cons_iff.mp within with same | within
    · exact absurd (same ▸ List.mem_cons_self) outside
    · exact within
  · exact absurd (around.subset List.mem_cons_self) outside

/-- What is left of a spelled URL ends with the name. -/
theorem leftOf_spelled (front scope : String) {separator : Char} {name : String}
    (separated : separates separator = true) (part : IsPart name)
    (other : ¬ ending <:+ name.toList) (withEnding : Bool) (slashes : Nat)
    : LeftOf (spelled front scope separator name withEnding slashes).toList
        (front.toList ++ scope.toList ++ separator :: name.toList) := by
  rw [toList_spelled]
  refine ⟨_, slashes, rfl, ?_, ?_⟩
  · cases withEnding with
    | true => simp [ending, List.getLast?_cons]
    | false =>
        have content : name.toList ≠ [] := String.toList_eq_nil_iff.not.mpr part.content
        rw [if_neg Bool.false_ne_true, List.append_nil, List.getLast?_append, List.getLast?_cons,
          List.getLast?_eq_some_getLast content]
        intro slash
        exact part.plain.1 (Option.some.inj slash ▸ List.getLast_mem content)
  · cases withEnding with
    | true => exact .inl rfl
    | false =>
        refine .inr ⟨List.append_nil _, fun suffix => other ?_⟩
        rw [if_neg Bool.false_ne_true, List.append_nil] at suffix
        exact suffix_name_of_suffix separated suffix

/-- A URL is split into its last two parts just when both have content. -/
theorem split?_eq_some_iff {url scope name : String}
    : split? url = some (scope, name)
      ↔ IsPart scope ∧ IsPart name
        ∧ ∃ rest, LeftOf url.toList rest ∧ LastParts rest scope.toList name.toList := by
  constructor
  · intro split
    rcases plain_or_lastParts (trimmed url.toList) with plain | ⟨ownScope, ownName, parts⟩
    · rw [split?_of_plain plain] at split
      cases split
    · rw [split?_of_lastParts parts] at split
      split at split
      · cases split
      · next content =>
        obtain ⟨rfl, rfl⟩ := Prod.mk.inj (Option.some.inj split)
        obtain ⟨scopeContent, nameContent⟩ := not_or.mp content
        refine ⟨⟨?_, ?_⟩, ⟨?_, ?_⟩, _, leftOf_iff.mpr rfl, ?_⟩
        · simpa using scopeContent
        · simpa using parts.plainScope
        · simpa using nameContent
        · simpa using parts.plainName
        · simpa using parts
  · rintro ⟨partScope, partName, rest, left, parts⟩
    rw [← leftOf_iff.mp left] at parts
    have content : ¬ (scope.toList = [] ∨ name.toList = []) := by
      simp [partScope.content, partName.content]
    rw [split?_of_lastParts parts, if_neg content, String.ofList_toList, String.ofList_toList]

/-- A URL is not split just when one of its last two parts is missing or empty. -/
theorem split?_eq_none_iff {url : String}
    : split? url = none
      ↔ ∃ rest,
          LeftOf url.toList rest
          ∧ (Plain rest ∨ ∃ scope name, LastParts rest scope name ∧ (scope = [] ∨ name = [])) := by
  constructor
  · intro unsplit
    refine ⟨_, leftOf_iff.mpr rfl, ?_⟩
    rcases plain_or_lastParts (trimmed url.toList) with plain | ⟨scope, name, parts⟩
    · exact .inl plain
    · rw [split?_of_lastParts parts] at unsplit
      refine .inr ⟨scope, name, parts, ?_⟩
      by_contra content
      rw [if_neg content] at unsplit
      cases unsplit
  · rintro ⟨rest, left, missing⟩
    obtain rfl := leftOf_iff.mp left
    rcases missing with plain | ⟨scope, name, parts, empty⟩
    · exact split?_of_plain plain
    · rw [split?_of_lastParts parts, if_pos empty]

/-- All spellings of a URL have the same parts: whatever stands before them, whichever separators
there are, with and without the ending, and with any number of slashes behind it. Conversely, the
parts of any URL are the last two of what is left of it, if both have content. None are found just
when one of the two is missing or empty.
-/
theorem spellings_agree
    : (∀ front scope separator name withEnding slashes,
        IsFront front.toList
        → IsPart scope
        → separates separator = true
        → IsPart name
        → ¬ ending <:+ name.toList
        → split? (spelled front scope separator name withEnding slashes) = some (scope, name))
      ∧ (∀ url scope name,
          split? url = some (scope, name)
          ↔ IsPart scope ∧ IsPart name
            ∧ ∃ rest, LeftOf url.toList rest ∧ LastParts rest scope.toList name.toList)
      ∧ ∀ url,
          split? url = none
          ↔ ∃ rest,
              LeftOf url.toList rest
              ∧ (Plain rest
                ∨ ∃ scope name, LastParts rest scope name ∧ (scope = [] ∨ name = [])) := by
  refine ⟨?_, fun url scope name => split?_eq_some_iff, fun url => split?_eq_none_iff⟩
  intro front scope separator name withEnding slashes isFront partScope separated partName other
  have left := leftOf_spelled front scope separated partName other withEnding slashes
  refine split?_eq_some_iff.mpr ⟨partScope, partName, _, left, ?_⟩
  exact ⟨partScope.plain, partName.plain, _, _, isFront, separated, rfl⟩

/-- A URL with a host is split, and a bare name is not. -/
theorem spellings_agree_with_host
    : split? "https://github.com/packit/ogr.git//" = some ("packit", "ogr")
      ∧ split? "ogr" = none := by
  have laws := spellings_agree
  constructor
  · have front : IsFront "https://github.com/".toList :=
      .inr ⟨"https://github.com".toList, '/', by decide, by decide⟩
    have spelling := laws.1 "https://github.com/" "packit" '/' "ogr" true 2 front
      ⟨by decide, by decide⟩ (by decide) ⟨by decide, by decide⟩ (by decide)
    exact spelling
  · refine (laws.2.2 "ogr").mpr ⟨"ogr".toList, ?_, .inl (by decide)⟩
    exact ⟨"ogr".toList, 0, by decide, by decide, .inr ⟨rfl, by decide⟩⟩

end Packaging.Git.RemoteUrl
