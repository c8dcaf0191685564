import Packaging.Proofs.Files.Standing

/-! Directories that hold nothing but texts. Each such directory can be put on disk, and shows and
holds its files from every path that leads to it.
-/

namespace Packaging

/-- The lesser of two names of spec files. -/
def FileName.firstSpec : FileName :=
  ⟨"a.spec", by decide, by decide, by decide, by decide⟩

/-- The greater of two names of spec files. -/
def FileName.secondSpec : FileName :=
  ⟨"b.spec", by decide, by decide, by decide, by decide⟩

namespace FileSystem

/-- The name of the directory in which a checkout stands. -/
def checkoutName : FileName :=
  ⟨"src", by decide, by decide, by decide, by decide⟩

/-- A directory of texts below the root. It is the working directory. -/
def checkout (files : List (FileName × String)) : FileSystem :=
  let entries := files.map fun file => (file.1, FileTree.file false file.2.toUTF8)
  ⟨(FileTree.directory entries).placed [checkoutName.text], [checkoutName.text], []⟩

variable {files : List (FileName × String)}

/-- What stands under a name in a checkout is the file of that name. -/
theorem stands_checkout (files : List (FileName × String)) (name : FileName)
    : entry? (checkout files) ([checkoutName.text] ++ [name.text])
      = (files.lookup name).map fun text => .file text.toUTF8 := by
  have stands := standsAt_placed (List.cons_ne_nil checkoutName.text [])
    (.directory (files.map fun file => (file.1, FileTree.file false file.2.toUTF8)))
    [checkoutName.text] [name]
  rw [FileTree.at?_single] at stands
  refine stands.trans ?_
  clear stands
  induction files with
  | nil => rfl
  | cons file rest ih =>
      obtain ⟨own, text⟩ := file
      rw [List.map_cons, List.lookup_cons, List.lookup_cons]
      by_cases same : name = own
      · simp [same, FileTree.entry]
      · simpa [beq_eq_false_iff_ne.mpr same] using ih

/-- A name leads from the directory of a checkout to the file of that name, if there is one. -/
theorem follow_checkout (links : Nat) {name : FileName}
    (short : name.text.utf8ByteSize ≤ nameLimit)
    : (checkout files).follow links [checkoutName.text] .directory [name.text]
      = match files.lookup name with
        | some text => .ok ([checkoutName.text, name.text], .file text.toUTF8)
        | none => .error .notFound := by
  have entry := stands_checkout files name
  cases found : files.lookup name with
  | some text =>
      rw [found] at entry
      have stands
          : entry? (checkout files) ([checkoutName.text] ++ [name.text])
            = some (FileTree.file false text.toUTF8).entry :=
        entry
      rw [follow_name short stands, follow]
      rfl
  | none =>
      rw [found] at entry
      have stays : ¬ (name.text = "" ∨ name.text = ".") := not_or.mpr ⟨name.content, name.noStep.1⟩
      rw [follow, if_neg (not_not_intro rfl), if_neg stays, if_neg name.noStep.2,
        if_neg (Nat.not_lt.mpr short), entry]
      rfl

variable {path : String}

/-- A path that leads to the directory of a checkout leads on to the files in it. -/
theorem isFile_checkout_iff
    (inside : (checkout files).find path = .ok ([checkoutName.text], .directory)) {name : FileName}
    : (checkout files).isFile (pathBelow path name.text) = true
      ↔ (files.lookup name).isSome ∧ (pathBelow path name.text).utf8ByteSize < pathLimit
        ∧ name.text.utf8ByteSize ≤ nameLimit := by
  constructor
  · intro file
    obtain ⟨location, content, found⟩ := isFile_iff_find.mp file
    have short := (find_eq_ok_iff.mp found).2.2.1
    obtain ⟨left, onward⟩ := exists_find_pathBelow inside short
    rw [onward] at found
    obtain ⟨_, shortName, _⟩ := entry?_of_follow found
    refine ⟨?_, short, shortName⟩
    rw [follow_checkout left shortName] at found
    cases held : files.lookup name with
    | none => simp [held] at found
    | some text => rfl
  · intro held
    obtain ⟨held, short, shortName⟩ := held
    obtain ⟨text, held⟩ := Option.isSome_iff_exists.mp held
    obtain ⟨left, onward⟩ := exists_find_pathBelow inside short
    rw [isFile, onward, follow_checkout left shortName, held]

/-- What is read of a file in a checkout is its text. -/
theorem readBytes_checkout
    (inside : (checkout files).find path = .ok ([checkoutName.text], .directory)) {name : FileName}
    (short : (pathBelow path name.text).utf8ByteSize < pathLimit)
    (shortName : name.text.utf8ByteSize ≤ nameLimit) {text : String}
    (held : files.lookup name = some text)
    : (checkout files).readBytes (pathBelow path name.text) = .ok text.toUTF8 := by
  obtain ⟨left, onward⟩ := exists_find_pathBelow inside short
  rw [readBytes, opened_of_free rfl, onward, follow_checkout left shortName, held]

/-- The directory of a checkout shows the names of its files and no others. -/
theorem mem_fileNames_checkout_iff
    (inside : (checkout files).find path = .ok ([checkoutName.text], .directory))
    (short
      : ∀ file ∈ files,
          (pathBelow path file.1.text).utf8ByteSize < pathLimit
          ∧ file.1.text.utf8ByteSize ≤ nameLimit)
    {names : List String} (listed : (checkout files).fileNames ⟨path⟩ = .ok names) {text : String}
    : text ∈ names ↔ ∃ file ∈ files, file.1.text = text := by
  have proper : ∀ text ∈ [checkoutName.text], ∃ name : FileName, name.text = text := by
    intro text member
    exact ⟨checkoutName, (List.mem_singleton.mp member).symm⟩
  have named : (checkout files).Named := named_placed proper _ _
  have content : path ≠ "" := (find_eq_ok_iff.mp inside).2.1
  rw [mem_fileNames_iff named content listed]
  constructor
  · rintro ⟨name, rfl, file⟩
    obtain ⟨held, _⟩ := (isFile_checkout_iff inside).mp file
    obtain ⟨content, held⟩ := Option.isSome_iff_exists.mp held
    obtain ⟨before, after, split, _⟩ := List.lookup_eq_some_iff.mp held
    exact ⟨(name, content), by simp [split], rfl⟩
  · rintro ⟨file, member, rfl⟩
    refine ⟨file.1, rfl, (isFile_checkout_iff inside).mpr ⟨?_, short file member⟩⟩
    rw [Option.isSome_iff_ne_none, ne_eq, List.lookup_eq_none_iff]
    intro other
    simpa using other file member

/-- From the working directory a name alone leads to the file. -/
theorem readBytes_checkout_here {name : FileName} (shortName : name.text.utf8ByteSize ≤ nameLimit)
    {text : String} (held : files.lookup name = some text)
    : (checkout files).readBytes name.text = .ok text.toUTF8 := by
  have relative : isAbsolute name.text = false := by
    refine decide_eq_false fun root => name.slash ?_
    exact List.mem_of_mem_head? root
  have here : (checkout files).origin name.text = [checkoutName.text] := by
    rw [origin, relative]
    rfl
  have short : name.text.utf8ByteSize < pathLimit :=
    Nat.lt_of_le_of_lt shortName (by decide)
  have found : (checkout files).find name.text
      = .ok ([checkoutName.text, name.text], .file text.toUTF8) := by
    refine find_eq_ok_iff.mpr ⟨name.zero, name.content, short, ?_⟩
    rw [here, components_name, follow_checkout linkLimit shortName, held]
  rw [readBytes, opened_of_free rfl, found]

theorem find_checkout_root
    : (checkout files).find "/src" = .ok ([checkoutName.text], .directory) := by
  have stands : entry? (checkout files) ([] ++ [checkoutName.text])
      = some (FileTree.directory []).entry := rfl
  have steps : components "/src" = ["", checkoutName.text] := by decide
  refine find_eq_ok_iff.mpr ⟨by decide, by decide, by decide, ?_⟩
  rw [steps, show (checkout files).origin "/src" = [] from rfl, follow_empty,
    follow_name (by decide) stands, follow]
  rfl

theorem find_checkout_here
    : (checkout files).find "." = .ok ([checkoutName.text], .directory) := by
  have steps : components "." = ["."] := by decide
  refine find_eq_ok_iff.mpr ⟨by decide, by decide, by decide, ?_⟩
  rw [steps, show (checkout files).origin "." = [checkoutName.text] from rfl, follow,
    if_neg (not_not_intro rfl), if_pos (Or.inr rfl), follow]

end FileSystem

end Packaging
