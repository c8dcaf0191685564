import Packaging.Proofs.Files.Following

/-! Trees that stand on disk without links. Where the entries at and below a location are those of a
tree, a path to the location leads on to what stands in the tree, and every tree can be put so.
-/

namespace Packaging

namespace FileSystem

variable {fs : FileSystem}

/-- The entries at and below a location are those of a tree. -/
def StandsAt (fs : FileSystem) (tree : FileTree) (location : Location) : Prop :=
  ∀ way : List FileName,
    fs.entry? (location ++ way.map (·.text)) = (tree.at? way).map FileTree.entry

-----------------------------------------------------------------------------------------
-- Names on the way
-----------------------------------------------------------------------------------------

/-- What stands in a directory stands one name below it. -/
theorem StandsAt.below {entries : List (FileName × FileTree)} {location : Location}
    {name : FileName} {tree : FileTree} (stands : fs.StandsAt (.directory entries) location)
    (found : entries.lookup name = some tree)
    : fs.StandsAt tree (location ++ [name.text]) := by
  intro way
  have further := stands (name :: way)
  rw [FileTree.at?, found] at further
  simpa using further

/-- A name in a directory is followed to the entry that stands there. -/
theorem follow_name {location : Location} {name : FileName} {tree : FileTree}
    (short : name.text.utf8ByteSize ≤ nameLimit)
    (entry : fs.entry? (location ++ [name.text]) = some tree.entry) (links : Nat)
    (rest : List String)
    : fs.follow links location .directory (name.text :: rest)
      = fs.follow links (location ++ [name.text]) tree.entry rest := by
  have stays : ¬ (name.text = "" ∨ name.text = ".") := not_or.mpr ⟨name.content, name.noStep.1⟩
  rw [follow, if_neg (not_not_intro rfl), if_neg stays, if_neg name.noStep.2,
    if_neg (Nat.not_lt.mpr short), entry]
  cases tree <;> rfl

/-- A link in a directory is followed to its target. -/
theorem follow_link {location : Location} {name : FileName} {target : String}
    (short : name.text.utf8ByteSize ≤ nameLimit)
    (entry : fs.entry? (location ++ [name.text]) = some (.link target)) (links : Nat)
    (rest : List String)
    : fs.follow (links + 1) location .directory (name.text :: rest)
      = fs.follow links (if isAbsolute target then [] else location) .directory
          (components target ++ rest) := by
  have stays : ¬ (name.text = "" ∨ name.text = ".") := not_or.mpr ⟨name.content, name.noStep.1⟩
  rw [follow, if_neg (not_not_intro rfl), if_neg stays, if_neg name.noStep.2,
    if_neg (Nat.not_lt.mpr short), entry]

/-- The names of a way in a tree lead to what stands at its end. By induction over the way. -/
theorem follow_way {tree node : FileTree} {location : Location} {way : List FileName}
    (stands : fs.StandsAt tree location) (found : tree.at? way = some node)
    (short : ∀ name ∈ way, name.text.utf8ByteSize ≤ nameLimit) (links : Nat)
    : fs.follow links location tree.entry (way.map (·.text))
      = .ok (location ++ way.map (·.text), node.entry) := by
  induction way generalizing tree location with
  | nil =>
      obtain rfl : tree = node := by simpa [FileTree.at?] using found
      rw [List.map_nil, follow, List.append_nil]
  | cons name rest ih =>
      obtain ⟨first, others⟩ := List.forall_mem_cons.mp short
      cases tree with
      | file executable content => cases found
      | directory entries =>
          obtain ⟨below, here, further⟩ := Option.bind_eq_some_iff.mp found
          have deeper := stands.below here
          have entry : fs.entry? (location ++ [name.text]) = some below.entry := by
            simpa [FileTree.at?] using deeper []
          rw [List.map_cons, FileTree.entry, follow_name first entry, ih deeper further others]
          simp

/-- Names that stand for nothing in a tree lead nowhere. By induction over them. -/
theorem follow_missing {tree : FileTree} {location : Location} {way : List FileName}
    (stands : fs.StandsAt tree location) (missing : tree.at? way = none) (links : Nat)
    (result : Location × Entry)
    : fs.follow links location tree.entry (way.map (·.text)) ≠ .ok result := by
  induction way generalizing tree location with
  | nil => cases tree <;> cases missing
  | cons name rest ih =>
      intro followed
      obtain ⟨isDirectory, short, _, standing⟩ := entry?_of_follow followed
      cases tree with
      | file executable content => cases isDirectory
      | directory entries =>
          rw [FileTree.at?] at missing
          have here
              : fs.entry? (location ++ [name.text]) = (entries.lookup name).map (·.entry) := by
            simpa [FileTree.at?_single] using stands [name]
          cases found : entries.lookup name with
          | none => simp [here, found] at standing
          | some below =>
              rw [found] at here missing
              rw [List.map_cons, FileTree.entry, follow_name short here] at followed
              exact ih (stands.below found) missing followed

-----------------------------------------------------------------------------------------
-- Paths of ways
-----------------------------------------------------------------------------------------

/-- The path of a name never ends with a slash. -/
theorem getLast?_pathBelow (path : String) (name : FileName)
    : (pathBelow path name.text).toList.getLast? ≠ some '/' := by
  have content : name.text.toList ≠ [] := String.toList_eq_nil_iff.not.mpr name.content
  have ends : (pathBelow path name.text).toList.getLast? = name.text.toList.getLast? := by
    unfold pathBelow
    split <;> simp [String.toList_append, List.getLast?_append, List.getLast?_cons,
      List.getLast?_eq_some_getLast content]
  rw [ends]
  intro slash
  exact name.slash (List.mem_of_getLast? slash)

/-- A path without a slash at its end keeps its components, and the names of a way come after them.
By induction over the way.
-/
theorem components_pathOf {path : String} (noSlash : path.toList.getLast? ≠ some '/')
    (way : List FileName)
    : components (pathOf path way) = components path ++ way.map (·.text) := by
  induction way generalizing path with
  | nil => exact (List.append_nil _).symm
  | cons name rest ih =>
      have split
          : (pathBelow path name.text).toList = path.toList ++ '/' :: name.text.toList := by
        rw [pathBelow, if_neg noSlash]
        simp [String.toList_append]
      have first : components (pathBelow path name.text) = components path ++ [name.text] := by
        rw [components_of_slash split, components_name]
      calc components (pathOf path (name :: rest))
        _ = components (pathBelow path name.text) ++ rest.map (·.text) :=
          ih (getLast?_pathBelow path name)
        _ = components path ++ (name :: rest).map (·.text) := by
          rw [first, List.append_assoc, List.singleton_append, List.map_cons]

/-- A way stays proper: it starts where its path does, and no name adds a zero. By induction over
the way.
-/
theorem proper_pathOf {path : String} (content : path ≠ "") (way : List FileName)
    : pathOf path way ≠ ""
      ∧ fs.origin (pathOf path way) = fs.origin path
      ∧ ('\x00' ∈ (pathOf path way).toList ↔ '\x00' ∈ path.toList) := by
  induction way generalizing path with
  | nil => exact ⟨content, rfl, Iff.rfl⟩
  | cons name rest ih =>
      have below : pathBelow path name.text ≠ "" := by
        unfold pathBelow
        split <;> simp [content]
      obtain ⟨further, origin, zero⟩ := ih below
      exact ⟨further, origin.trans (origin_pathBelow content _),
        zero.trans zero_mem_pathBelow_iff⟩

/-- A directory holds the tree that stands at its location, where nothing refuses to be opened. -/
theorem StandsAt.holds {path : String} {tree : FileTree} {location : Location}
    (stands : fs.StandsAt tree location) (free : fs.refusals = [])
    (found : fs.find path = .ok (location, tree.entry))
    (noSlash : path.toList.getLast? ≠ some '/')
    (short
      : ∀ way node,
          tree.at? way = some node
          → (pathOf path way).utf8ByteSize < pathLimit
            ∧ ∀ name ∈ way, name.text.utf8ByteSize ≤ nameLimit)
    : fs.Holds path tree := by
  obtain ⟨plain, content, _, followed⟩ := find_eq_ok_iff.mp found
  obtain ⟨left, further⟩ := fs.follow_append linkLimit (fs.origin path) .directory (components path)
  rw [followed] at further
  have onward (way : List FileName)
      : fs.follow linkLimit (fs.origin (pathOf path way)) .directory (components (pathOf path way))
        = fs.follow left location tree.entry (way.map (·.text)) := by
    rw [(proper_pathOf content way).2.1, components_pathOf noSlash, further]
  constructor
  · intro way node stood
    obtain ⟨bounded, shortNames⟩ := short way node stood
    obtain ⟨proper, _, zero⟩ := fs.proper_pathOf content way
    have reached : fs.find (pathOf path way) = .ok (location ++ way.map (·.text), node.entry) := by
      refine find_eq_ok_iff.mpr ⟨zero.not.mpr plain, proper, bounded, ?_⟩
      rw [onward, follow_way stands stood shortNames]
    exact ⟨_, (opened_of_free free _).trans reached⟩
  · intro way _ missing result reached
    obtain ⟨_, _, _, followed⟩ := find_eq_ok_iff.mp reached
    rw [onward] at followed
    exact follow_missing stands missing left result followed

end FileSystem

-----------------------------------------------------------------------------------------
-- Trees that are put on disk
-----------------------------------------------------------------------------------------

/-- Among the entries whose keys pass a test the same is found under such a key, and nothing under
other keys. By induction over the entries.
-/
theorem lookup_filter_key {κ α : Type} [BEq κ] [LawfulBEq κ] (test : κ → Bool) (key : κ)
    (entries : List (κ × α))
    : (entries.filter fun entry => test entry.1).lookup key
      = if test key then entries.lookup key else none := by
  induction entries with
  | nil => simp
  | cons entry rest ih =>
      obtain ⟨own, value⟩ := entry
      by_cases same : key = own
      · subst same
        cases passes : test key <;> simp [passes, ih]
      · have other := beq_eq_false_iff_ne.mpr same
        cases passes : test own <;> simp [passes, ih, List.lookup_cons, other]

namespace FileTree

mutual

/-- The entries of a tree that is put at a location. -/
def placed (location : Location) : FileTree → List (Location × Entry)
  | .file _ content => [(location, .file content)]
  | .directory entries => (location, .directory) :: placedEntries location entries

/-- The entries of a directory that is put at a location. What is below a name covers all that
later entries have below it.
-/
def placedEntries (location : Location)
    : List (FileName × FileTree) → List (Location × Entry)
  | [] => []
  | (name, tree) :: rest =>
    placed (location ++ [name.text]) tree
      ++ (placedEntries location rest).filter fun entry =>
        !(location ++ [name.text]).isPrefixOf entry.1

end

mutual

/-- What is put at a location stands there or below it. -/
theorem exists_of_mem_placed {location : Location} {tree : FileTree} {entry : Location × Entry}
    (member : entry ∈ tree.placed location)
    : ∃ way : List FileName, entry.1 = location ++ way.map (·.text) := by
  cases tree with
  | file executable content =>
      obtain rfl : entry = _ := by simpa [placed] using member
      exact ⟨[], (List.append_nil _).symm⟩
  | directory entries =>
      rw [placed, List.mem_cons] at member
      rcases member with rfl | below
      · exact ⟨[], (List.append_nil _).symm⟩
      · exact exists_of_mem_placedEntries below

theorem exists_of_mem_placedEntries {location : Location} {entries : List (FileName × FileTree)}
    {entry : Location × Entry} (member : entry ∈ placedEntries location entries)
    : ∃ way : List FileName, entry.1 = location ++ way.map (·.text) := by
  match entries with
  | [] => simp [placedEntries] at member
  | (name, tree) :: rest =>
      rw [placedEntries, List.mem_append, List.mem_filter] at member
      rcases member with first | ⟨later, _⟩
      · obtain ⟨way, same⟩ := exists_of_mem_placed first
        exact ⟨name :: way, by simp [same]⟩
      · exact exists_of_mem_placedEntries later

end

theorem beq_below (location : Location) (name : FileName) (rest : List FileName)
    : (location ++ (name :: rest).map (·.text) == location) = false := by
  simp

theorem isPrefixOf_below (location : Location) (own name : FileName) (rest : List FileName)
    : (location ++ [own.text]).isPrefixOf (location ++ (name :: rest).map (·.text))
      = decide (name = own) := by
  rw [Bool.eq_iff_iff, List.isPrefixOf_iff_prefix, decide_eq_true_iff, FileName.ext_iff]
  simp [List.prefix_append_right_inj, List.cons_prefix_cons, eq_comm]

mutual

/-- What is put at a location is found there, at the names that lead to it in the tree. -/
theorem lookup_placed (tree : FileTree) (location : Location) (way : List FileName)
    : (tree.placed location).lookup (location ++ way.map (·.text)) = (tree.at? way).map entry := by
  cases tree with
  | file executable content =>
      cases way with
      | nil => simp [placed, at?, entry]
      | cons name rest =>
          rw [placed, List.lookup_cons, beq_below]
          rfl
  | directory entries =>
      cases way with
      | nil => simp [placed, at?, entry]
      | cons name rest =>
          rw [placed, List.lookup_cons, beq_below]
          exact lookup_placedEntries entries location name rest

theorem lookup_placedEntries (entries : List (FileName × FileTree)) (location : Location)
    (name : FileName) (rest : List FileName)
    : (placedEntries location entries).lookup (location ++ (name :: rest).map (·.text))
      = ((directory entries).at? (name :: rest)).map entry := by
  match entries with
  | [] => simp [placedEntries, at?]
  | (own, tree) :: others =>
      rw [placedEntries, List.lookup_append,
        lookup_filter_key fun key => !(location ++ [own.text]).isPrefixOf key, isPrefixOf_below]
      by_cases same : name = own
      · subst same
        have further
            : location ++ (name :: rest).map (·.text)
              = location ++ [name.text] ++ rest.map (·.text) := by
          simp
        rw [further, lookup_placed tree (location ++ [name.text]) rest]
        simp [at?]
      · have other : (name == own) = false := beq_eq_false_iff_ne.mpr same
        have nothing
            : (tree.placed (location ++ [own.text])).lookup
                (location ++ (name :: rest).map (·.text)) = none := by
          rw [List.lookup_eq_none_iff]
          intro entry member
          obtain ⟨way, below⟩ := exists_of_mem_placed member
          have different : name.text ≠ own.text := fun equal => same (FileName.ext equal)
          simp [below, different]
        rw [nothing, lookup_placedEntries others location name rest]
        simp [at?, List.lookup_cons, other, same]

end

end FileTree

namespace FileSystem

/-- A tree that is put below the root stands there. -/
theorem standsAt_placed {location : Location} (deep : location ≠ []) (tree : FileTree)
    (working : Location)
    : StandsAt ⟨tree.placed location, working, []⟩ tree location := by
  intro way
  have below : (location ++ way.map (·.text)).isEmpty = false := by simp [deep]
  unfold entry?
  rw [if_neg (by simp [below])]
  exact FileTree.lookup_placed tree location way

/-- Where a tree is put, all names are proper when those of its location are. -/
theorem named_placed {location : Location}
    (proper : ∀ text ∈ location, ∃ name : FileName, name.text = text) (tree : FileTree)
    (working : Location)
    : Named ⟨tree.placed location, working, []⟩ := by
  intro entry member text inside
  obtain ⟨way, same⟩ := FileTree.exists_of_mem_placed member
  rw [same, List.mem_append] at inside
  rcases inside with above | below
  · exact proper text above
  · obtain ⟨name, _, named⟩ := List.mem_map.mp below
    exact ⟨name, named⟩

end FileSystem

end Packaging
