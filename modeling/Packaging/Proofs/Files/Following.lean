import Packaging.Proofs.Files.Tree

/-! Paths that are followed further. A path below a directory leads where the name leads from the
directory, so what stands there is an entry of the directory.
-/

namespace Packaging

namespace FileSystem

variable {fs other : FileSystem}

-----------------------------------------------------------------------------------------
-- Steps of a path
-----------------------------------------------------------------------------------------

/-- A way goes on from where its first part leads, with the links that are left there. By induction
over the steps of the first part.
-/
theorem follow_append (fs : FileSystem) (links : Nat) (location : Location) (found : Entry)
    (before : List String)
    : ∃ left, ∀ more,
        fs.follow links location found (before ++ more)
        = match fs.follow links location found before with
          | .ok (middle, entry) => fs.follow left middle entry more
          | .error fault => .error fault := by
  fun_induction fs.follow links location found before with
  | case1 links => exact ⟨links, fun _ => rfl⟩
  | case2 links location found name rest noDirectory =>
      refine ⟨links, fun more => ?_⟩
      rw [List.cons_append, follow, if_pos noDirectory]
  | case3 links location found name rest directory stays ih =>
      obtain ⟨left, further⟩ := ih
      refine ⟨left, fun more => ?_⟩
      rw [List.cons_append, follow, if_neg directory, if_pos stays, further]
  | case4 links location found rest directory moves ih =>
      obtain ⟨left, further⟩ := ih
      refine ⟨left, fun more => ?_⟩
      rw [List.cons_append, follow, if_neg directory, if_neg moves, if_pos rfl, further]
  | case5 links location found name rest directory moves down long =>
      refine ⟨links, fun more => ?_⟩
      rw [List.cons_append, follow, if_neg directory, if_neg moves, if_neg down, if_pos long]
  | case6 links location found name rest directory moves down short missing =>
      refine ⟨links, fun more => ?_⟩
      rw [List.cons_append, follow, if_neg directory, if_neg moves, if_neg down, if_neg short,
        missing]
  | case7 location found name rest directory moves down short target link =>
      refine ⟨0, fun more => ?_⟩
      rw [List.cons_append, follow, if_neg directory, if_neg moves, if_neg down, if_neg short,
        link]
  | case8 location found name rest directory moves down short target link links ih =>
      obtain ⟨left, further⟩ := ih
      refine ⟨left, fun more => ?_⟩
      rw [List.cons_append, follow, if_neg directory, if_neg moves, if_neg down, if_neg short,
        link]
      simpa only [List.append_assoc, dite_eq_ite] using further more
  | case9 links location found name rest directory moves down short next noLink entry ih =>
      obtain ⟨left, further⟩ := ih
      refine ⟨left, fun more => ?_⟩
      rw [List.cons_append, follow, if_neg directory, if_neg moves, if_neg down, if_neg short,
        entry]
      cases next with
      | link target => exact absurd rfl (noLink target)
      | file content => exact further more
      | directory => exact further more

/-- Paths are followed the same where the same stands at every location. By induction over the
steps.
-/
theorem follow_congr (same : ∀ location, fs.entry? location = other.entry? location)
    (links : Nat) (location : Location) (found : Entry) (names : List String)
    : fs.follow links location found names = other.follow links location found names := by
  symm
  fun_induction fs.follow links location found names with
  | case1 links => rw [follow]
  | case2 links location found name rest noDirectory => rw [follow, if_pos noDirectory]
  | case3 links location found name rest directory stays ih =>
      rw [follow, if_neg directory, if_pos stays, ih]
  | case4 links location found rest directory moves ih =>
      rw [follow, if_neg directory, if_neg moves, if_pos rfl, ih]
  | case5 links location found name rest directory moves down long =>
      rw [follow, if_neg directory, if_neg moves, if_neg down, if_pos long]
  | case6 links location found name rest directory moves down short missing =>
      rw [follow, if_neg directory, if_neg moves, if_neg down, if_neg short, ← same, missing]
  | case7 location found name rest directory moves down short target link =>
      rw [follow, if_neg directory, if_neg moves, if_neg down, if_neg short, ← same, link]
  | case8 location found name rest directory moves down short target link links ih =>
      rw [follow, if_neg directory, if_neg moves, if_neg down, if_neg short, ← same, link]
      exact ih
  | case9 links location found name rest directory moves down short next noLink entry ih =>
      rw [follow, if_neg directory, if_neg moves, if_neg down, if_neg short, ← same, entry]
      cases next with
      | link target => exact absurd rfl (noLink target)
      | file content => exact ih
      | directory => exact ih

/-- What a path leads to is found by following its components, unless it is no proper path. -/
theorem find_eq_ok_iff {path : String} {result : Location × Entry}
    : fs.find path = .ok result
      ↔ '\x00' ∉ path.toList ∧ path ≠ "" ∧ path.utf8ByteSize < pathLimit
        ∧ fs.follow linkLimit (fs.origin path) .directory (components path) = .ok result := by
  unfold find
  split_ifs with zero empty long
  · simp [zero]
  · simp [empty]
  · simp [Nat.not_lt.mpr long]
  · simp [zero, empty, Nat.not_le.mp long]

/-- Paths lead to the same where the same stands at every location. -/
theorem find_congr (same : ∀ location, fs.entry? location = other.entry? location)
    (working : fs.working = other.working) (path : String)
    : fs.find path = other.find path := by
  rw [find, find, follow_congr same, origin, origin, working]

/-- What a path leads to can be opened just when nothing refuses it there. -/
theorem opened_eq_ok_iff {path : String} {location : Location} {entry : Entry}
    : fs.opened path = .ok (location, entry)
      ↔ fs.find path = .ok (location, entry) ∧ fs.refusals.lookup location = none := by
  unfold opened
  cases fs.find path with
  | error fault => simp
  | ok result =>
      obtain ⟨place, standing⟩ := result
      simp only [Except.ok.injEq, Prod.mk.injEq]
      cases held : fs.refusals.lookup place with
      | some fault =>
          simp only [reduceCtorEq, false_iff, not_and]
          rintro ⟨rfl, rfl⟩ free
          simp [held] at free
      | none =>
          simp only [Except.ok.injEq, Prod.mk.injEq, iff_self_and]
          rintro ⟨rfl, rfl⟩
          exact held

/-- Where nothing is refused, all that is found can be opened. -/
theorem opened_of_free (free : fs.refusals = []) (path : String)
    : fs.opened path = fs.find path := by
  unfold opened
  rw [free]
  cases fs.find path with
  | error fault => rfl
  | ok result => rfl

/-- The content of a file is read just when nothing refuses to open the file. -/
theorem readBytes_eq_ok_iff {path : String} {content : ByteArray}
    : fs.readBytes path = .ok content
      ↔ ∃ location,
          fs.find path = .ok (location, .file content) ∧ fs.refusals.lookup location = none := by
  simp only [← opened_eq_ok_iff]
  unfold readBytes
  cases fs.opened path with
  | error fault => simp
  | ok result =>
      obtain ⟨location, entry⟩ := result
      cases entry <;> simp

/-- A refusal is told by whatever is read there. -/
theorem readBytes_of_refused {path : String} {location : Location} {entry : Entry}
    {fault : FileFault} (found : fs.find path = .ok (location, entry))
    (held : fs.refusals.lookup location = some fault)
    : fs.readBytes path = .error fault := by
  unfold readBytes opened
  rw [found]
  simp only [held]

-----------------------------------------------------------------------------------------
-- Names in a directory
-----------------------------------------------------------------------------------------

/-- A slash parts the components before it from those after it. -/
theorem components_of_slash {path front back : String}
    (split : path.toList = front.toList ++ '/' :: back.toList)
    : components path = components front ++ components back := by
  simp only [components, ← List.map_append]
  rw [split, Text.pieces_append (by decide)]

theorem components_name (name : FileName)
    : components name.text = [name.text] := by
  have plain : ∀ c ∈ name.text.toList, decide (c = '/') = false := by
    intro c member
    exact decide_eq_false fun same => name.slash (same ▸ member)
  rw [components, Text.pieces_of_forall plain]
  simp

/-- The name below a path is its last component. What is before it is the path, slashes at its end
aside.
-/
theorem components_pathBelow (path : String) (name : FileName)
    : ∃ before,
        (components path = before ∨ components path = before ++ [""])
        ∧ components (pathBelow path name.text) = before ++ [name.text] := by
  unfold pathBelow
  split
  · next slash =>
    obtain ⟨front, split⟩ := List.getLast?_eq_some_iff.mp slash
    have own : path.toList = (String.ofList front).toList ++ '/' :: "".toList := by simp [split]
    have whole
        : (path ++ name.text).toList = (String.ofList front).toList ++ '/' :: name.text.toList := by
      simp [String.toList_append, split]
    refine ⟨components (String.ofList front), Or.inr ?_, ?_⟩
    · rw [components_of_slash own]
      rfl
    · rw [components_of_slash whole, components_name]
  · have whole
        : (path ++ "/" ++ name.text).toList = path.toList ++ '/' :: name.text.toList := by
      simp [String.toList_append]
    exact ⟨components path, Or.inl rfl, by rw [components_of_slash whole, components_name]⟩

/-- Only a directory has names, and only those that stand in it and are not too long. -/
theorem entry?_of_follow {links : Nat} {location : Location} {found : Entry} {name : FileName}
    {rest : List String} {result : Location × Entry}
    (followed : fs.follow links location found (name.text :: rest) = .ok result)
    : found = .directory ∧ name.text.utf8ByteSize ≤ nameLimit
      ∧ ∃ entry, fs.entry? (location ++ [name.text]) = some entry := by
  have stays : ¬ (name.text = "" ∨ name.text = ".") := not_or.mpr ⟨name.content, name.noStep.1⟩
  rw [follow] at followed
  by_cases directory : found = .directory
  · rw [if_neg (not_not_intro directory), if_neg stays, if_neg name.noStep.2] at followed
    split at followed
    · cases followed
    · next short =>
      refine ⟨directory, Nat.not_lt.mp short, ?_⟩
      split at followed
      · cases followed
      · next link => exact ⟨_, link⟩
      · next entry => exact ⟨_, entry⟩
  · rw [if_pos directory] at followed
    cases followed

theorem mem_children_of_entry? {location : Location} {name : String} {entry : Entry}
    (stands : fs.entry? (location ++ [name]) = some entry)
    : name ∈ fs.children location := by
  have listed : fs.entries.lookup (location ++ [name]) = some entry := by
    simpa [ entry?] using stands
  obtain ⟨before, after, split, _⟩ := List.lookup_eq_some_iff.mp listed
  exact List.mem_filterMap.mpr ⟨(location ++ [name], entry), by simp [split], by simp⟩

theorem zero_mem_pathBelow_iff {path : String} {name : FileName}
    : '\x00' ∈ (pathBelow path name.text).toList ↔ '\x00' ∈ path.toList := by
  have plain := name.zero
  unfold pathBelow
  split <;> simp [String.toList_append, plain]

theorem utf8ByteSize_le_pathBelow (path name : String)
    : path.utf8ByteSize ≤ (pathBelow path name).utf8ByteSize := by
  unfold pathBelow
  split <;> simp [String.utf8ByteSize_append]
  omega

theorem origin_pathBelow {path : String} (content : path ≠ "") (name : String)
    : fs.origin (pathBelow path name) = fs.origin path := by
  obtain ⟨c, rest, split⟩ := List.exists_cons_of_ne_nil (String.toList_eq_nil_iff.not.mpr content)
  have same : (pathBelow path name).toList.head? = path.toList.head? := by
    unfold pathBelow
    split <;> simp [String.toList_append, split]
  rw [origin, isAbsolute, same, origin, isAbsolute]

/-- An empty component, as a slash at either end adds it, stays in its directory. -/
theorem follow_empty (links : Nat) (location : Location) (rest : List String)
    : fs.follow links location .directory ("" :: rest)
      = fs.follow links location .directory rest := by
  rw [follow, if_neg (not_not_intro rfl), if_pos (Or.inl rfl)]

/-- A name that a path below a directory leads to is one of the names in the directory. -/
theorem mem_children_of_find {path : String} (content : path ≠ "") {name : FileName}
    {result : Location × Entry} (found : fs.find (pathBelow path name.text) = .ok result)
    : ∃ location,
        fs.find path = .ok (location, .directory) ∧ name.text ∈ fs.children location := by
  obtain ⟨plain, _, short, followed⟩ := find_eq_ok_iff.mp found
  obtain ⟨before, way, below⟩ := components_pathBelow path name
  obtain ⟨left, further⟩ := fs.follow_append linkLimit (fs.origin path) .directory before
  rw [origin_pathBelow content, below, further] at followed
  cases reached : fs.follow linkLimit (fs.origin path) .directory before with
  | error fault => simp [reached] at followed
  | ok middle =>
      obtain ⟨location, entry⟩ := middle
      rw [reached] at followed further
      obtain ⟨rfl, _, _, stands⟩ := entry?_of_follow followed
      refine ⟨location, find_eq_ok_iff.mpr ?_, mem_children_of_entry? stands⟩
      have notLonger := utf8ByteSize_le_pathBelow path name.text
      refine ⟨zero_mem_pathBelow_iff.not.mp plain, content, Nat.lt_of_le_of_lt notLonger short, ?_⟩
      rcases way with same | same
      · rw [same, reached]
      · rw [same, further]
        dsimp only
        rw [follow_empty, follow]

/-- Below a directory a name leads where it leads from the location of the directory, as long as its
path is not too long.
-/
theorem exists_find_pathBelow {path : String} {location : Location} {name : FileName}
    (found : fs.find path = .ok (location, .directory))
    (short : (pathBelow path name.text).utf8ByteSize < pathLimit)
    : ∃ left, fs.find (pathBelow path name.text)
        = fs.follow left location .directory [name.text] := by
  obtain ⟨plain, content, _, followed⟩ := find_eq_ok_iff.mp found
  obtain ⟨before, way, below⟩ := components_pathBelow path name
  obtain ⟨left, further⟩ := fs.follow_append linkLimit (fs.origin path) .directory before
  have reached : fs.follow linkLimit (fs.origin path) .directory before
      = .ok (location, .directory) := by
    rcases way with same | same
    · exact same ▸ followed
    · rw [same, further] at followed
      cases middle : fs.follow linkLimit (fs.origin path) .directory before with
      | error fault => simp [middle] at followed
      | ok result =>
          obtain ⟨place, entry⟩ := result
          simp only [middle] at followed
          -- An empty component is followed from directories only, and stays there.
          by_cases directory : entry = .directory
          · subst directory
            rwa [follow_empty, follow] at followed
          · rw [follow, if_pos directory] at followed
            cases followed
  have proper : pathBelow path name.text ≠ "" := by
    unfold pathBelow
    split <;> simp [content]
  refine ⟨left, ?_⟩
  rw [find, if_neg (zero_mem_pathBelow_iff.not.mpr plain), if_neg proper,
    if_neg (Nat.not_le.mpr short), origin_pathBelow content, below, further, reached]

theorem isFile_iff_find {path : String}
    : fs.isFile path = true
      ↔ ∃ location content, fs.find path = .ok (location, .file content) := by
  unfold isFile
  split
  · next found => simp [found]
  · next other => simpa using other

/-- A name of a directory is the last of an entry's names. -/
theorem exists_of_mem_children {location : Location} {text : String}
    (child : text ∈ fs.children location)
    : ∃ entry ∈ fs.entries, text ∈ entry.1 := by
  obtain ⟨entry, member, same⟩ := List.mem_filterMap.mp child
  refine ⟨entry, member, ?_⟩
  split at same
  · next name last =>
    split at same
    · exact Option.some.inj same ▸ List.mem_of_getLast? last
    · cases same
  · cases same

/-- Every name in the file system is a proper one. -/
def Named (fs : FileSystem) : Prop :=
  ∀ entry ∈ fs.entries, ∀ text ∈ entry.1, ∃ name : FileName, name.text = text

theorem isDirectory_iff_find {path : String}
    : fs.isDirectory path = true ↔ ∃ location, fs.find path = .ok (location, .directory) := by
  unfold isDirectory
  split
  · next found => simp [found]
  · next other => simpa using other

/-- How a directory is listed: it is none, it shows its files, or it cannot be opened. -/
inductive Listing (fs : FileSystem) (directory : Path) : Except FileError (List String) → Prop
  | missing (nowhere : fs.isDirectory directory.text = false)
    : Listing fs directory (.ok [])
  | shown {location : Location} (stands : fs.find directory.text = .ok (location, .directory))
      (free : fs.refusals.lookup location = none)
    : Listing fs directory
        (.ok (((fs.children location).filter fun name =>
          fs.isFile (pathBelow directory.text name)).mergeSort (· ≤ ·)))
  | refused {location : Location} {fault : FileFault}
      (stands : fs.find directory.text = .ok (location, .directory))
      (held : fs.refusals.lookup location = some fault)
    : Listing fs directory (.error (.refused directory fault))

theorem listing_fileNames (fs : FileSystem) (directory : Path)
    : Listing fs directory (fs.fileNames directory) := by
  unfold fileNames
  split
  · next inside =>
    obtain ⟨location, stands⟩ := isDirectory_iff_find.mp inside
    unfold opened
    rw [stands]
    dsimp only
    cases held : fs.refusals.lookup location with
    | some fault => exact .refused stands held
    | none => exact .shown stands held
  · next outside => exact .missing (Bool.eq_false_iff.mpr outside)

/-- What is no directory shows no files. -/
theorem fileNames_of_missing {directory : Path} (missing : fs.isDirectory directory.text = false)
    : fs.fileNames directory = .ok [] := by
  rw [fileNames, missing]
  rfl

/-- The empty path leads to no directory, not even to the working directory. -/
theorem fileNames_of_empty {directory : Path} (empty : directory.text = "")
    : fs.fileNames directory = .ok [] := by
  refine fileNames_of_missing ?_
  rw [empty]
  rfl

/-- A listing fails just when the directory is there but cannot be opened. -/
theorem fileNames_eq_error_iff {directory : Path} {error : FileError}
    : fs.fileNames directory = .error error
      ↔ ∃ location fault,
          fs.find directory.text = .ok (location, .directory)
          ∧ fs.refusals.lookup location = some fault ∧ error = .refused directory fault := by
  constructor
  · intro failed
    have listing := fs.listing_fileNames directory
    rw [failed] at listing
    cases listing with
    | refused stands held => exact ⟨_, _, stands, held, rfl⟩
  · rintro ⟨location, fault, stands, held, rfl⟩
    rw [fileNames, if_pos (isDirectory_iff_find.mpr ⟨location, stands⟩), opened, stands]
    simp only [held]

/-- A directory can be listed, or there is none to be listed. -/
def Listed (fs : FileSystem) (directory : Path) : Prop :=
  ∃ names, fs.fileNames directory = .ok names

theorem not_listed_iff {directory : Path}
    : ¬ fs.Listed directory ↔ ∃ error, fs.fileNames directory = .error error := by
  unfold Listed
  cases fs.fileNames directory <;> simp

/-- Where nothing is refused, all directories are listed. -/
theorem listed_of_free (free : fs.refusals = []) (directory : Path)
    : fs.Listed directory := by
  by_contra unlisted
  obtain ⟨error, failed⟩ := not_listed_iff.mp unlisted
  obtain ⟨_, _, _, held, _⟩ := fileNames_eq_error_iff.mp failed
  rw [free] at held
  cases held

/-- A file to which the path of a name in a directory leads is one of those that it shows. -/
theorem mem_fileNames_of_isFile {directory : Path} (content : directory.text ≠ "")
    {names : List String} (listed : fs.fileNames directory = .ok names) {name : FileName}
    (file : fs.isFile (pathBelow directory.text name.text) = true)
    : name.text ∈ names := by
  obtain ⟨_, _, found⟩ := isFile_iff_find.mp file
  obtain ⟨location, stands, child⟩ := mem_children_of_find content found
  have listing := fs.listing_fileNames directory
  rw [listed] at listing
  cases listing with
  | missing nowhere =>
      have inside := isDirectory_iff_find.mpr ⟨location, stands⟩
      simp [nowhere] at inside
  | shown again _ =>
      obtain ⟨rfl, _⟩ := Prod.mk.inj (Except.ok.inj (stands.symm.trans again))
      rw [List.mem_mergeSort, List.mem_filter]
      exact ⟨child, file⟩

/-- The names of files in a directory are the proper names whose paths lead to files. -/
theorem mem_fileNames_iff (named : fs.Named) {directory : Path} (content : directory.text ≠ "")
    {names : List String} (listed : fs.fileNames directory = .ok names) {text : String}
    : text ∈ names
      ↔ ∃ name : FileName,
          name.text = text ∧ fs.isFile (pathBelow directory.text name.text) = true := by
  constructor
  · intro member
    have listing := fs.listing_fileNames directory
    rw [listed] at listing
    cases listing with
    | missing nowhere => cases member
    | shown stands _ =>
        rw [List.mem_mergeSort, List.mem_filter] at member
        obtain ⟨child, file⟩ := member
        obtain ⟨entry, known, inside⟩ := exists_of_mem_children child
        obtain ⟨name, rfl⟩ := named entry known text inside
        exact ⟨name, rfl, file⟩
  · rintro ⟨name, rfl, file⟩
    exact mem_fileNames_of_isFile content listed file

-----------------------------------------------------------------------------------------
-- Trees on disk
-----------------------------------------------------------------------------------------

/-- The path of a way that starts from a directory. -/
def pathOf (path : String) (way : List FileName) : String :=
  way.foldl (fun path name => pathBelow path name.text) path

end FileSystem

/-- What stands on disk for a tree. -/
def FileTree.entry : FileTree → Entry
  | .file _ content => .file content
  | .directory _ => .directory

/-- The name under which a working directory holds its repository. -/
def FileName.git : FileName :=
  ⟨".git", by decide, by decide, by decide, by decide⟩

namespace FileSystem

/-- The directory at a path holds a tree: what stands in the tree is found there and can be opened,
and nothing else is found, apart from the repository to which the directory may belong.
-/
structure Holds (fs : FileSystem) (path : String) (tree : FileTree) : Prop where
  found
    : ∀ way node,
        tree.at? way = some node
        → ∃ location, fs.opened (pathOf path way) = .ok (location, node.entry)
  nothingElse
    : ∀ way,
        way.head? ≠ some FileName.git
        → tree.at? way = none
        → ∀ result, fs.find (pathOf path way) ≠ .ok result

variable {fs : FileSystem}

/-- A name is a file in the directory just when it is one in the tree. -/
theorem Holds.isFile_iff {path : String} {tree : FileTree} (holds : fs.Holds path tree)
    {name : FileName} (other : name ≠ FileName.git)
    : fs.isFile (pathBelow path name.text) = true
      ↔ ∃ executable content, tree.at? [name] = some (.file executable content) := by
  have below : pathOf path [name] = pathBelow path name.text := rfl
  rw [isFile_iff_find, ← below]
  cases stands : tree.at? [name] with
  | none =>
      have nothing := holds.nothingElse [name] (by simpa using other) stands
      simp [nothing]
  | some node =>
      obtain ⟨location, opened⟩ := holds.found [name] node stands
      rw [(opened_eq_ok_iff.mp opened).1]
      cases node with
      | file executable content => simp [FileTree.entry]
      | directory entries => simp [FileTree.entry]

/-- What is read of a file in the tree is its content. -/
theorem Holds.readBytes {path : String} {tree : FileTree} (holds : fs.Holds path tree)
    {name : FileName} {executable : Bool} {content : ByteArray}
    (stands : tree.at? [name] = some (.file executable content))
    : fs.readBytes (pathBelow path name.text) = .ok content := by
  obtain ⟨location, opened⟩ := holds.found [name] _ stands
  have below : pathOf path [name] = pathBelow path name.text := rfl
  rw [FileSystem.readBytes, ← below, opened]
  rfl

/-- A directory that holds a tree of entries is listed. -/
theorem Holds.listed {path : String} {entries : List (FileName × FileTree)}
    (holds : fs.Holds path (.directory entries))
    : fs.Listed ⟨path⟩ := by
  by_contra unlisted
  obtain ⟨error, failed⟩ := not_listed_iff.mp unlisted
  obtain ⟨location, fault, stands, held, _⟩ := fileNames_eq_error_iff.mp failed
  obtain ⟨place, opened⟩ := holds.found [] _ rfl
  obtain ⟨found, free⟩ := opened_eq_ok_iff.mp opened
  obtain ⟨rfl, _⟩ := Prod.mk.inj (Except.ok.inj (stands.symm.trans found))
  simp [held] at free

end FileSystem

end Packaging
