import Packaging.Proofs.Files.Checkout
import Packaging.Proofs.Lookup.FilesAtReference
import Packaging.Proofs.Lookup.SpecNames

/-! The first spec file of directories on disk. It is the least name of one in the first directory
that has any, and nothing else on disk changes it but a directory before that cannot be listed.
-/

namespace Packaging

namespace FileSystem

-----------------------------------------------------------------------------------------
-- Entries in another order
-----------------------------------------------------------------------------------------

/-- Where no key comes twice, the order of the entries does not matter. By induction over the
permutation.
-/
theorem lookup_of_perm {κ α : Type} [BEq κ] [LawfulBEq κ] {entries others : List (κ × α)}
    (perm : entries.Perm others) (distinct : (entries.map (·.1)).Nodup) (key : κ)
    : entries.lookup key = others.lookup key := by
  induction perm with
  | nil => rfl
  | cons entry _ ih =>
      rw [List.map_cons, List.nodup_cons] at distinct
      rw [List.lookup_cons, List.lookup_cons, ih distinct.2]
  | swap first second rest =>
      obtain ⟨one, firstValue⟩ := first
      obtain ⟨two, secondValue⟩ := second
      have apart : two ≠ one := by
        rw [List.map_cons, List.map_cons, List.nodup_cons] at distinct
        exact fun same => distinct.1 (same ▸ List.mem_cons_self)
      by_cases own : key = two
      · simp [own, List.lookup_cons, beq_eq_false_iff_ne.mpr apart]
      · simp [List.lookup_cons, beq_eq_false_iff_ne.mpr own]
  | trans before after ih again =>
      exact (ih distinct).trans (again ((before.map (·.1)).nodup_iff.mp distinct))

variable {fs other : FileSystem}

theorem entry?_of_perm (perm : fs.entries.Perm other.entries)
    (distinct : (fs.entries.map (·.1)).Nodup) (location : Location)
    : fs.entry? location = other.entry? location := by
  rw [ entry?, entry?, lookup_of_perm perm distinct]

/-- Paths lead to the same where the entries only differ in their order. -/
theorem find_of_perm (perm : fs.entries.Perm other.entries)
    (distinct : (fs.entries.map (·.1)).Nodup) (working : fs.working = other.working)
    (path : String)
    : fs.find path = other.find path :=
  find_congr (entry?_of_perm perm distinct) working path

/-- A path that leads to a directory leads to no file. -/
theorem isFile_of_isDirectory {path : String} (leads : fs.isDirectory path = true)
    : fs.isFile path = false := by
  unfold isDirectory at leads
  split at leads
  · next location found => rw [isFile, found]
  · cases leads

/-- Below a path that leads to no directory there are no files. -/
theorem isFile_below_of_missing {path : String} (content : path ≠ "")
    (missing : fs.isDirectory path = false) (name : FileName)
    : fs.isFile (pathBelow path name.text) = false := by
  refine Bool.eq_false_iff.mpr fun file => ?_
  obtain ⟨_, _, found⟩ := isFile_iff_find.mp file
  obtain ⟨location, leads, _⟩ := mem_children_of_find content found
  simp [isDirectory, leads] at missing

end FileSystem

namespace SpecFile

variable {fs other : FileSystem} {directory : Path}

-----------------------------------------------------------------------------------------
-- One directory
-----------------------------------------------------------------------------------------

/-- The names of spec files directly in a directory. A file counts if the path of its name below the
directory leads to it.
-/
def namesIn (fs : FileSystem) (directory : Path) : Set String :=
  {text | IsName text ∧ ∃ name : FileName,
    name.text = text ∧ fs.isFile (FileSystem.pathBelow directory.text name.text) = true}

/-- The path of a directory has content, and the names of its files hold no backslashes. -/
structure PlainIn (fs : FileSystem) (directory : Path) : Prop where
  content : directory.text ≠ ""
  plain
    : ∀ name : FileName,
        fs.isFile (FileSystem.pathBelow directory.text name.text) = true
        → '\\' ∉ name.text.toList

/-- A directory that is listed and has no spec files. -/
def LacksSpecs (fs : FileSystem) (directory : Path) : Prop :=
  fs.Listed directory ∧ namesIn fs directory = ∅

theorem inDirectory?_of_missing (missing : fs.isDirectory directory.text = false)
    : inDirectory? fs directory = .ok none :=
  inDirectory?_of_listed (FileSystem.fileNames_of_missing missing)

namespace PlainIn

theorem chosen (plain : PlainIn fs directory) (named : fs.Named) {spec : Option Path}
    (found : inDirectory? fs directory = .ok spec)
    : Chosen (namesIn fs directory) (spec.map (·.text)) :=
  chosen_inDirectory? named plain.content plain.plain found

/-- In a directory the choice only depends on the names of its spec files. -/
theorem inDirectory?_eq (plain : PlainIn fs directory) (named : fs.Named)
    (listed : fs.Listed directory) (again : PlainIn other directory) (otherNamed : other.Named)
    (otherListed : other.Listed directory) (same : namesIn other directory = namesIn fs directory)
    : inDirectory? other directory = inDirectory? fs directory := by
  obtain ⟨spec, found⟩ := exists_inDirectory?_iff.mpr listed
  obtain ⟨otherSpec, otherFound⟩ := exists_inDirectory?_iff.mpr otherListed
  have chosen := plain.chosen named found
  have chosenAgain := again.chosen otherNamed otherFound
  rw [same] at chosenAgain
  have texts : Function.Injective Path.text := fun first second equal => congrArg Path.mk equal
  rw [found, otherFound, Option.map_injective texts (chosenAgain.unique chosen)]

theorem nothing_iff (plain : PlainIn fs directory) (named : fs.Named)
    : inDirectory? fs directory = .ok none ↔ LacksSpecs fs directory := by
  constructor
  · intro missing
    exact ⟨exists_inDirectory?_iff.mp ⟨_, missing⟩, plain.chosen named missing⟩
  · rintro ⟨listed, empty⟩
    obtain ⟨spec, found⟩ := exists_inDirectory?_iff.mpr listed
    have none : Chosen (namesIn fs directory) none := empty
    rw [found, Option.map_eq_none_iff.mp ((plain.chosen named found).unique none)]

/-- The name that is chosen in a directory is the least by its bytes. -/
theorem found_iff (plain : PlainIn fs directory) (named : fs.Named) {path : Path}
    : inDirectory? fs directory = .ok (some path)
      ↔ fs.Listed directory ∧ path.text ∈ namesIn fs directory
        ∧ ∀ other ∈ namesIn fs directory, Git.bytes path.text ≤ Git.bytes other := by
  constructor
  · intro found
    exact ⟨exists_inDirectory?_iff.mp ⟨_, found⟩, (plain.chosen named found).byBytes⟩
  · rintro ⟨listed, member, least⟩
    obtain ⟨spec, found⟩ := exists_inDirectory?_iff.mpr listed
    have again : Chosen (namesIn fs directory) (some path.text) :=
      ⟨member, fun other belongs => Git.bytes_le_iff.mp (least other belongs)⟩
    obtain ⟨taken, rfl, same⟩ :=
      Option.map_eq_some_iff.mp ((plain.chosen named found).unique again)
    rw [found, show taken = path from congrArg Path.mk same]

/-- A name of a spec file in a directory leads from its path to a file. -/
theorem isFile_join (plain : PlainIn fs directory) {text : String}
    (member : text ∈ namesIn fs directory)
    : fs.isFile (directory.join text).text = true := by
  obtain ⟨_, name, rfl, file⟩ := member
  rw [Path.text_join_of_ne plain.content (plain.plain name file)]
  exact file

end PlainIn

-----------------------------------------------------------------------------------------
-- Directories in order
-----------------------------------------------------------------------------------------

variable {directories : List Path}

/-- A directory in which nothing is found can be left out. By induction over those before it. -/
theorem find?_of_nothing {before : List Path} (nothing : inDirectory? fs directory = .ok none)
    (after : List Path)
    : find? fs (before ++ directory :: after) = find? fs (before ++ after) := by
  induction before with
  | nil =>
      rw [List.nil_append, find?, nothing]
      rfl
  | cons earlier rest ih => rw [List.cons_append, List.cons_append, find?, find?, ih]

/-- The first directory that has any spec files decides. -/
theorem find?_of_first {before : List Path} (named : fs.Named)
    (plain : ∀ searched ∈ before ++ [directory], PlainIn fs searched)
    (lacking : ∀ earlier ∈ before, LacksSpecs fs earlier)
    (found : (namesIn fs directory).Nonempty) (after : List Path)
    : find? fs (before ++ directory :: after) = inDirectory? fs directory := by
  have nothing (earlier : Path) (member : earlier ∈ before)
      : inDirectory? fs earlier = .ok none :=
    ((plain earlier (List.mem_append_left _ member)).nothing_iff named).mpr (lacking earlier member)
  have ends : inDirectory? fs directory ≠ .ok none := by
    intro missing
    have own := plain directory (by simp)
    exact found.ne_empty ((own.nothing_iff named).mp missing).2
  rw [find?_append nothing, find?_of_decides rfl ends]

/-- What is found is the least name in the first directory that has any. -/
theorem find?_eq_some_iff (named : fs.Named)
    (plain : ∀ directory ∈ directories, PlainIn fs directory) {path : Path}
    : find? fs directories = .ok (some path)
      ↔ ∃ before directory after,
          directories = before ++ directory :: after
          ∧ (∀ earlier ∈ before, LacksSpecs fs earlier)
          ∧ fs.Listed directory
          ∧ path.text ∈ namesIn fs directory
          ∧ ∀ other ∈ namesIn fs directory, Git.bytes path.text ≤ Git.bytes other := by
  rw [find?_eq_iff (by simp)]
  refine exists_congr fun before => exists_congr fun directory => exists_congr fun after =>
    and_congr_right ?_
  rintro rfl
  have earlier
      : (∀ earlier ∈ before, inDirectory? fs earlier = .ok none)
        ↔ ∀ earlier ∈ before, LacksSpecs fs earlier :=
    forall₂_congr fun searched member => (plain searched (by simp [member])).nothing_iff named
  rw [earlier, (plain directory (by simp)).found_iff named]

/-- A search fails just when a directory that is there cannot be opened, and none before it has a
spec file.
-/
theorem find?_eq_error_iff (named : fs.Named)
    (plain : ∀ directory ∈ directories, PlainIn fs directory) {error : FileError}
    : find? fs directories = .error error
      ↔ ∃ before directory after location fault,
          directories = before ++ directory :: after
          ∧ (∀ earlier ∈ before, LacksSpecs fs earlier)
          ∧ fs.find directory.text = .ok (location, .directory)
          ∧ fs.refusals.lookup location = some fault
          ∧ error = .refused directory fault := by
  rw [find?_eq_iff (by simp)]
  constructor
  · rintro ⟨before, directory, after, rfl, nothing, failed⟩
    obtain ⟨location, fault, stands, held, rfl⟩ :=
      FileSystem.fileNames_eq_error_iff.mp (inDirectory?_eq_error_iff.mp failed)
    refine ⟨before, directory, after, location, fault, rfl, fun earlier member => ?_, stands, held,
      rfl⟩
    exact ((plain earlier (by simp [member])).nothing_iff named).mp (nothing earlier member)
  · rintro ⟨before, directory, after, location, fault, rfl, lacking, stands, held, rfl⟩
    refine ⟨before, directory, after, rfl, fun earlier member => ?_, ?_⟩
    · exact ((plain earlier (by simp [member])).nothing_iff named).mpr (lacking earlier member)
    · exact inDirectory?_eq_error_iff.mpr
        (FileSystem.fileNames_eq_error_iff.mpr ⟨location, fault, stands, held, rfl⟩)

/-- A directory is listed alike where all paths lead to the same and the same is refused. -/
theorem alike_of_find (named : fs.Named) (otherNamed : other.Named) (content : directory.text ≠ "")
    (found : ∀ path, fs.find path = other.find path) (refusals : fs.refusals = other.refusals)
    : Alike fs other directory := by
  cases listed : fs.fileNames directory with
  | error error =>
      refine .refused listed ?_
      rw [FileSystem.fileNames_eq_error_iff] at listed ⊢
      rwa [← found, ← refusals]
  | ok names =>
      cases again : other.fileNames directory with
      | error error =>
          rw [FileSystem.fileNames_eq_error_iff, ← found, ← refusals,
            ← FileSystem.fileNames_eq_error_iff, listed] at again
          cases again
      | ok others =>
          refine .shown listed again fun name _ => ?_
          rw [FileSystem.mem_fileNames_iff named content listed,
            FileSystem.mem_fileNames_iff otherNamed content again]
          simp only [FileSystem.isFile, found]

/-- The order in which entries are listed does not matter. -/
theorem find?_of_perm (named : fs.Named) (content : ∀ directory ∈ directories, directory.text ≠ "")
    (perm : fs.entries.Perm other.entries) (distinct : (fs.entries.map (·.1)).Nodup)
    (working : fs.working = other.working) (refusals : fs.refusals = other.refusals)
    : find? other directories = find? fs directories := by
  have otherNamed : other.Named := fun entry member => named entry (perm.mem_iff.mpr member)
  symm
  exact find?_congr fun directory member =>
    alike_of_find named otherNamed (content directory member)
      (FileSystem.find_of_perm perm distinct working) refusals

/-- Nothing is found in directories just when they are all listed and none has any spec files. What
is found is the least name in the first one that has any, if no directory before it fails to be
listed, so joined to that directory it leads to a file. A name counts if its path leads to a file,
be it through links. The first directory that is there but cannot be opened ends the search with
that failure, if none before it has a spec file. A missing directory can be left out, a directory
below is never a spec file, and once a directory has one, neither the directories after it nor
anything else on disk matters. The order in which entries are listed never does.
-/
theorem first_spec_found (named : fs.Named)
    (plain : ∀ directory ∈ directories, PlainIn fs directory)
    : (find? fs directories = .ok none
        ↔ ∀ directory ∈ directories, LacksSpecs fs directory)
      ∧ (∀ path,
          find? fs directories = .ok (some path)
          ↔ ∃ before directory after,
              directories = before ++ directory :: after
              ∧ (∀ earlier ∈ before, LacksSpecs fs earlier)
              ∧ fs.Listed directory
              ∧ path.text ∈ namesIn fs directory
              ∧ (∀ other ∈ namesIn fs directory, Git.bytes path.text ≤ Git.bytes other)
              ∧ fs.isFile (directory.join path.text).text = true)
      ∧ (∀ error,
          find? fs directories = .error error
          ↔ ∃ before directory after location fault,
              directories = before ++ directory :: after
              ∧ (∀ earlier ∈ before, LacksSpecs fs earlier)
              ∧ fs.find directory.text = .ok (location, .directory)
              ∧ fs.refusals.lookup location = some fault
              ∧ error = .refused directory fault)
      ∧ (∀ before directory after,
          directories = before ++ directory :: after
          → fs.isDirectory directory.text = false
          → find? fs (before ++ after) = find? fs directories)
      ∧ (∀ directory ∈ directories, ∀ name : FileName,
          fs.isDirectory (FileSystem.pathBelow directory.text name.text) = true
          → name.text ∉ namesIn fs directory)
      ∧ (∀ before directory after,
          directories = before ++ directory :: after
          → (∀ earlier ∈ before, LacksSpecs fs earlier)
          → fs.Listed directory
          → (namesIn fs directory).Nonempty
          → ∀ (other : FileSystem) (others : List Path),
              other.Named
              → (∀ searched ∈ before ++ [directory],
                  PlainIn other searched ∧ other.Listed searched
                  ∧ namesIn other searched = namesIn fs searched)
              → find? other (before ++ directory :: others) = find? fs directories)
      ∧ ∀ other : FileSystem,
          fs.entries.Perm other.entries
          → (fs.entries.map (·.1)).Nodup
          → fs.working = other.working
          → fs.refusals = other.refusals
          → find? other directories = find? fs directories := by
  refine ⟨?_, fun path => ?_, fun error => find?_eq_error_iff named plain, ?_, ?_, ?_, ?_⟩
  · rw [find?_eq_none_iff]
    exact forall₂_congr fun directory member => (plain directory member).nothing_iff named
  · rw [find?_eq_some_iff named plain]
    constructor
    · rintro ⟨before, directory, after, rfl, lacking, listed, member, least⟩
      have file := (plain directory (by simp)).isFile_join member
      exact ⟨before, directory, after, rfl, lacking, listed, member, least, file⟩
    · rintro ⟨before, directory, after, split, lacking, listed, member, least, _⟩
      exact ⟨before, directory, after, split, lacking, listed, member, least⟩
  · rintro before directory after rfl missing
    exact (find?_of_nothing (inDirectory?_of_missing missing) after).symm
  · rintro directory member name leads ⟨_, again, same, file⟩
    rw [same, FileSystem.isFile_of_isDirectory leads] at file
    cases file
  · rintro before directory after rfl lacking listed found other others otherNamed shown
    have early (earlier : Path) (member : earlier ∈ before) : earlier ∈ before ++ [directory] :=
      List.mem_append_left _ member
    obtain ⟨plainOther, listedOther, sameOther⟩ := shown directory (by simp)
    have lackingOther (earlier : Path) (member : earlier ∈ before) : LacksSpecs other earlier := by
      obtain ⟨_, again, same⟩ := shown earlier (early earlier member)
      exact ⟨again, same.trans (lacking earlier member).2⟩
    have own (searched : Path) (member : searched ∈ before ++ [directory])
        : PlainIn fs searched := by
      refine plain searched ?_
      rw [List.append_cons]
      exact List.mem_append_left after member
    calc find? other (before ++ directory :: others)
      _ = inDirectory? other directory :=
        find?_of_first otherNamed (fun searched member => (shown searched member).1) lackingOther
          (sameOther ▸ found) others
      _ = inDirectory? fs directory :=
        (own directory (by simp)).inDirectory?_eq named listed plainOther otherNamed listedOther
          sameOther
      _ = find? fs (before ++ directory :: after) :=
        (find?_of_first named own lacking found after).symm
  · intro other perm distinct working refusals
    exact find?_of_perm named (fun directory member => (plain directory member).content) perm
      distinct working refusals

end SpecFile

namespace TwoSpecs

/-- Two spec files, the greater name first. -/
def files : List (FileName × String) :=
  [(.secondSpec, ""), (.firstSpec, "")]

/-- A name that no directory shows. -/
def missingName : FileName :=
  ⟨"none", by decide, by decide, by decide, by decide⟩

theorem named_files
    : FileSystem.Named (.checkout files) := by
  refine FileSystem.named_placed (fun text member => ?_) _ _
  exact ⟨FileSystem.checkoutName, (List.mem_singleton.mp member).symm⟩

theorem missing_directory
    : FileSystem.isDirectory (.checkout files) "/none" = false := by
  have absent : FileSystem.entry? (.checkout files) ([] ++ [missingName.text]) = none := rfl
  have steps : FileSystem.components "/none" = ["", missingName.text] := by decide
  unfold FileSystem.isDirectory
  split
  · next location found =>
    obtain ⟨_, _, _, followed⟩ := FileSystem.find_eq_ok_iff.mp found
    rw [steps, show FileSystem.origin (.checkout files) "/none" = [] from rfl,
      FileSystem.follow_empty] at followed
    obtain ⟨_, _, entry, stands⟩ := FileSystem.entry?_of_follow followed
    rw [absent] at stands
    cases stands
  · rfl

theorem isFile_iff {name : FileName}
    : FileSystem.isFile (.checkout files) (FileSystem.pathBelow "/src" name.text) = true
      ↔ name = .secondSpec ∨ name = .firstSpec := by
  rw [FileSystem.isFile_checkout_iff FileSystem.find_checkout_root]
  constructor
  · rintro ⟨held, _⟩
    by_contra neither
    obtain ⟨notSecond, notFirst⟩ := not_or.mp neither
    simp [files, List.lookup_cons, beq_eq_false_iff_ne.mpr notSecond,
      beq_eq_false_iff_ne.mpr notFirst] at held
  · rintro (rfl | rfl) <;> decide

/-- Both a directory that is missing and one that is not are plain. -/
theorem plainIn
    : ∀ directory ∈ [(⟨"/none"⟩ : Path), ⟨"/src"⟩],
        SpecFile.PlainIn (.checkout files) directory := by
  intro directory member
  rcases List.mem_cons.mp member with rfl | member
  · refine ⟨by decide, fun name file => ?_⟩
    rw [FileSystem.isFile_below_of_missing (by decide) missing_directory name] at file
    cases file
  · obtain rfl := List.mem_singleton.mp member
    refine ⟨by decide, fun name file => ?_⟩
    rcases isFile_iff.mp file with rfl | rfl <;> decide

end TwoSpecs

/-- Behind a missing directory the lesser of two names is found, although it is listed last. -/
theorem SpecFile.first_spec_found_behind_missing
    : find? (.checkout TwoSpecs.files) [⟨"/none"⟩, ⟨"/src"⟩] = .ok (some ⟨"a.spec"⟩) := by
  have laws := first_spec_found TwoSpecs.named_files TwoSpecs.plainIn
  have member : "a.spec" ∈ namesIn (.checkout TwoSpecs.files) ⟨"/src"⟩ :=
    ⟨⟨['a'], by decide, by decide⟩, .firstSpec, rfl, TwoSpecs.isFile_iff.mpr (.inr rfl)⟩
  have listed (directory : Path) : FileSystem.Listed (.checkout TwoSpecs.files) directory :=
    FileSystem.listed_of_free rfl directory
  refine (laws.2.1 ⟨"a.spec"⟩).mpr
    ⟨[⟨"/none"⟩], ⟨"/src"⟩, [], rfl, ?_, listed _, member, ?_, ?_⟩
  · intro earlier early
    obtain rfl := List.mem_singleton.mp early
    refine ⟨listed _, Set.eq_empty_of_forall_notMem fun text inside => ?_⟩
    obtain ⟨_, name, _, file⟩ := inside
    rw [FileSystem.isFile_below_of_missing (by decide) TwoSpecs.missing_directory name] at file
    cases file
  · rintro other ⟨_, name, rfl, file⟩
    rcases TwoSpecs.isFile_iff.mp file with rfl | rfl
    · exact Git.bytes_le_iff.mpr (by decide)
    · exact Git.bytes_le_iff.mpr (by decide)
  · exact (TwoSpecs.plainIn ⟨"/src"⟩ (by simp)).isFile_join member

namespace NoSpecs

/-- An empty directory that cannot be opened. -/
def closed : FileSystem :=
  { FileSystem.checkout [] with refusals := [([FileSystem.checkoutName.text], .denied)] }

def otherName : FileName :=
  ⟨"foo", by decide, by decide, by decide, by decide⟩

/-- A directory that holds nothing but a link to a file outside of it. -/
def linked : FileSystem where
  entries :=
    [(["src"], .directory), (["src", "a.spec"], .link "../foo"), (["foo"], .file "".toUTF8)]
  working := []

theorem find_closed
    : closed.find "/src" = .ok (["src"], .directory) := by
  have same : ∀ location, closed.entry? location = FileSystem.entry? (.checkout []) location :=
    fun _ => rfl
  rw [FileSystem.find_congr same rfl]
  exact FileSystem.find_checkout_root

theorem follow_linked (links : Nat) (rest : List String)
    : linked.follow links [] .directory ("" :: "src" :: rest)
      = linked.follow links ["src"] .directory rest := by
  have stands : linked.entry? ([] ++ [FileSystem.checkoutName.text])
      = some (FileTree.directory []).entry := rfl
  rw [FileSystem.follow_empty]
  exact FileSystem.follow_name (by decide) stands links rest

theorem find_linked
    : linked.find "/src" = .ok (["src"], .directory) := by
  have steps : FileSystem.components "/src" = ["", "src"] := by decide
  refine FileSystem.find_eq_ok_iff.mpr ⟨by decide, by decide, by decide, ?_⟩
  rw [steps, show linked.origin "/src" = [] from rfl, follow_linked, FileSystem.follow]

/-- The name of the link leads to the file. -/
theorem isFile_link
    : linked.isFile "/src/a.spec" = true := by
  have steps : FileSystem.components "/src/a.spec" = ["", "src", FileName.firstSpec.text] := by
    decide
  have link : linked.entry? (["src"] ++ [FileName.firstSpec.text]) = some (.link "../foo") := rfl
  have target : FileSystem.components "../foo" = ["..", otherName.text] := by decide
  have file : linked.entry? ([] ++ [otherName.text]) = some (FileTree.file false "".toUTF8).entry :=
    rfl
  refine FileSystem.isFile_iff_find.mpr ⟨["foo"], "".toUTF8, ?_⟩
  refine FileSystem.find_eq_ok_iff.mpr ⟨by decide, by decide, by decide, ?_⟩
  rw [steps, show linked.origin "/src/a.spec" = [] from rfl, follow_linked,
    show FileSystem.linkLimit = 39 + 1 from rfl, FileSystem.follow_link (by decide) link, target,
    if_neg (by decide), List.append_nil, FileSystem.follow, if_neg (not_not_intro rfl),
    if_neg (by decide), if_pos rfl]
  exact (FileSystem.follow_name (by decide) file 39 []).trans (by rw [FileSystem.follow]; rfl)

theorem inDirectory?_linked
    : SpecFile.inDirectory? linked ⟨"/src"⟩ = .ok (some ⟨"a.spec"⟩) := by
  have listed : linked.fileNames ⟨"/src"⟩ = .ok ["a.spec"] := by
    have inside : linked.isDirectory "/src" = true :=
      FileSystem.isDirectory_iff_find.mpr ⟨_, find_linked⟩
    have children : linked.children ["src"] = ["a.spec"] := by decide
    have kept : ["a.spec"].filter (fun name => linked.isFile (FileSystem.pathBelow "/src" name))
        = ["a.spec"] := by
      have below : FileSystem.pathBelow "/src" "a.spec" = "/src/a.spec" := by decide
      rw [List.filter_cons_of_pos (by rw [below, isFile_link]), List.filter_nil]
    rw [FileSystem.fileNames, if_pos inside, FileSystem.opened_of_free rfl, find_linked]
    dsimp only
    rw [children, kept, List.mergeSort_singleton]
  rw [SpecFile.inDirectory?_of_listed listed]
  decide

end NoSpecs

/-- Two directories without a file that has the name of a spec file. One that cannot be opened ends
the search with its failure, and a link that has such a name is taken.
-/
theorem SpecFile.ends_without_spec_files
    : (NoSpecs.closed.find "/src" = .ok (["src"], .directory)
        ∧ (∀ text content,
            IsName text → NoSpecs.closed.entry? ["src", text] ≠ some (.file content))
        ∧ find? NoSpecs.closed [⟨"/src"⟩] = .error (.refused ⟨"/src"⟩ .denied))
      ∧ NoSpecs.linked.find "/src" = .ok (["src"], .directory)
      ∧ (∀ text content,
          IsName text → NoSpecs.linked.entry? ["src", text] ≠ some (.file content))
      ∧ find? NoSpecs.linked [⟨"/src"⟩] = .ok (some ⟨"a.spec"⟩) := by
  refine ⟨⟨NoSpecs.find_closed, ?_, ?_⟩, NoSpecs.find_linked, ?_, ?_⟩
  · intro text content _ stands
    have nothing : NoSpecs.closed.entry? ["src", text] = none := by
      simp [NoSpecs.closed, FileSystem.entry?, FileSystem.checkout, FileSystem.checkoutName,
        FileTree.placed, FileTree.placedEntries]
    rw [nothing] at stands
    cases stands
  · have failed : NoSpecs.closed.fileNames ⟨"/src"⟩ = .error (.refused ⟨"/src"⟩ .denied) :=
      FileSystem.fileNames_eq_error_iff.mpr ⟨_, .denied, NoSpecs.find_closed, rfl, rfl⟩
    exact find?_of_decides (inDirectory?_eq_error_iff.mpr failed) (by simp) []
  · intro text content _ stands
    by_cases own : text = "a.spec"
    · subst own
      cases stands
    · have other : (text == "a.spec") = false := beq_eq_false_iff_ne.mpr own
      have nothing : NoSpecs.linked.entry? ["src", text] = none := by
        simp [NoSpecs.linked, FileSystem.entry?, List.lookup_cons, other]
      rw [nothing] at stands
      cases stands
  · exact find?_of_decides NoSpecs.inDirectory?_linked (by simp) []

end Packaging
