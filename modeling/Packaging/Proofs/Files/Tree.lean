import Packaging.Proofs.Git.Stored

/-! Trees of files and directories, wherever they are kept. A repository keeps such a tree with its
entries put in order, and finds in it what stands in the tree itself.
-/

namespace Packaging

/-- A name of a file or directory. It is one component and no step. -/
@[ext]
structure FileName where
  text : String
  content : text ≠ ""
  noStep : text ≠ "." ∧ text ≠ ".."
  slash : '/' ∉ text.toList
  zero : '\x00' ∉ text.toList
deriving DecidableEq

/-- A file, or a directory of files and directories. Of several entries of one name the first
counts.
-/
inductive FileTree where
  | file (executable : Bool) (content : ByteArray)
  | directory (entries : List (FileName × FileTree))

namespace FileTree

/-- What stands at the end of a way. Every name needs a directory to start from. -/
def at? : FileTree → List FileName → Option FileTree
  | tree, [] => some tree
  | .directory entries, name :: rest => (entries.lookup name).bind fun tree => tree.at? rest
  | .file _ _, _ :: _ => none

theorem at?_single (entries : List (FileName × FileTree)) (name : FileName)
    : (directory entries).at? [name] = entries.lookup name := by
  cases found : entries.lookup name <;> simp [at?, found]

/-- What stands in a directory stands in one of its entries. -/
theorem exists_of_at?_cons {entries : List (FileName × FileTree)} {name : FileName}
    {rest : List FileName} {node : FileTree}
    (stands : (directory entries).at? (name :: rest) = some node)
    : ∃ tree, (name, tree) ∈ entries ∧ tree.at? rest = some node := by
  rw [at?] at stands
  obtain ⟨tree, found, further⟩ := Option.bind_eq_some_iff.mp stands
  obtain ⟨before, after, split, _⟩ := List.lookup_eq_some_iff.mp found
  exact ⟨tree, by simp [split], further⟩

/-- No name holds a backslash or the end of a line. -/
def PlainNames (tree : FileTree) : Prop :=
  ∀ way node,
    tree.at? way = some node
    → ∀ name ∈ way, '\\' ∉ name.text.toList ∧ '\n' ∉ name.text.toList

-----------------------------------------------------------------------------------------
-- In a repository
-----------------------------------------------------------------------------------------

mutual

/-- A tree as a node of a repository. -/
def toNode : FileTree → Git.Node
  | .file executable content => .blob (if executable then .executable else .regular) content
  | .directory entries => .tree (toTree entries)

/-- The entries of a directory as a tree of a repository. -/
def toTree : List (FileName × FileTree) → Git.Tree
  | [] => []
  | (name, tree) :: rest => (toTree rest).put (Git.bytes name.text) tree.toNode

end

theorem bytes_text_eq_iff {first second : FileName}
    : Git.bytes first.text = Git.bytes second.text ↔ first = second := by
  rw [Git.bytes_injective.eq_iff, FileName.ext_iff]

theorem isEntryName_bytes (name : FileName)
    : Git.Tree.IsEntryName (Git.bytes name.text) :=
  ⟨name.text, name.content, name.slash, rfl⟩

mutual

/-- A directory is stored as a tree has to be. -/
theorem stored_of_toNode {tree : FileTree} {below : Git.Tree} (node : tree.toNode = .tree below)
    : below.Stored := by
  cases tree with
  | file executable content => simp [toNode] at node
  | directory entries =>
      rw [toNode] at node
      exact Git.Node.tree.inj node ▸ stored_toTree entries

theorem stored_toTree (entries : List (FileName × FileTree))
    : (toTree entries).Stored := by
  match entries with
  | [] => exact .empty
  | (name, tree) :: rest =>
      exact (stored_toTree rest).put (isEntryName_bytes name) fun node => stored_of_toNode node

end

/-- In a repository the same stands under a name as in the directory. -/
theorem lookup?_toTree (entries : List (FileName × FileTree)) (name : FileName)
    : (toTree entries).lookup? (Git.bytes name.text) = (entries.lookup name).map toNode := by
  induction entries with
  | nil => rfl
  | cons entry rest ih =>
      obtain ⟨own, tree⟩ := entry
      simp only [toTree, Git.Tree.lookup?_put, bytes_text_eq_iff, ih, List.lookup_cons]
      by_cases same : name = own
      · simp [same]
      · simp [same, beq_eq_false_iff_ne.mpr same]

/-- Every entry in a repository is that of a name in the directory. -/
theorem exists_of_mem_toTree {entries : List (FileName × FileTree)} {entry : Git.Name × Git.Node}
    (member : entry ∈ toTree entries)
    : ∃ name tree,
        entries.lookup name = some tree ∧ entry = (Git.bytes name.text, tree.toNode) := by
  induction entries with
  | nil => exact absurd member List.not_mem_nil
  | cons first rest ih =>
      obtain ⟨own, tree⟩ := first
      rw [toTree] at member
      rcases Git.Tree.mem_put_iff.mp member with rfl | ⟨old, different⟩
      · exact ⟨own, tree, by simp, rfl⟩
      · obtain ⟨name, found, known, rfl⟩ := ih old
        have other : name ≠ own := fun same => different (by rw [same])
        refine ⟨name, found, ?_, rfl⟩
        simpa [List.lookup_cons, beq_eq_false_iff_ne.mpr other] using known

/-- What is reached in a repository stands in the tree, at the same names. By induction over the
way there.
-/
theorem exists_at_of_reaches {entries : List (FileName × FileTree)} {way : List Git.Name}
    {node : Git.Node} (reached : (toTree entries).Reaches way node)
    : ∃ names tree,
        (directory entries).at? names = some tree
        ∧ way = names.map (fun name => Git.bytes name.text) ∧ node = tree.toNode := by
  generalize kept : toTree entries = stored at reached
  induction reached generalizing entries with
  | entry member =>
      obtain ⟨name, tree, found, same⟩ := exists_of_mem_toTree (kept ▸ member)
      obtain ⟨rfl, rfl⟩ := Prod.mk.inj same
      exact ⟨[name], tree, by simp [at?, found], rfl, rfl⟩
  | deeper member further ih =>
      obtain ⟨name, tree, found, same⟩ := exists_of_mem_toTree (kept ▸ member)
      obtain ⟨rfl, node⟩ := Prod.mk.inj same
      cases tree with
      | file executable content => simp [toNode] at node
      | directory below =>
          rw [toNode, Git.Node.tree.injEq] at node
          obtain ⟨names, tree, stands, rfl, rfl⟩ := ih node.symm
          exact ⟨name :: names, tree, by simp [at?, found, stands], rfl, rfl⟩

end FileTree

/-- The path of a name in nested directories. -/
def FileName.pathIn (directories : List FileName) (name : FileName) : String :=
  String.join (directories.map (·.text ++ "/")) ++ name.text

namespace FileTree

/-- What a walk of the repository meets stands in the tree, in the directories that lead there. -/
theorem exists_at_of_visit {entries : List (FileName × FileTree)} {visit : Git.Visit}
    (met : visit ∈ (toTree entries).walk)
    : ∃ directories name tree,
        (directory entries).at? (directories ++ [name]) = some tree
        ∧ visit.node = tree.toNode ∧ visit.name = Git.bytes name.text
        ∧ visit.directory = Git.bytes (String.join (directories.map (·.text ++ "/"))) := by
  obtain ⟨way, reached, path⟩ := Git.exists_reaches_of_mem met
  obtain ⟨names, tree, stands, split, node⟩ := exists_at_of_reaches reached
  obtain ⟨directories, last, rfl, rfl, single⟩ := List.map_eq_append_iff.mp split.symm
  obtain ⟨name, rfl, named⟩ := List.map_eq_singleton_iff.mp single
  refine ⟨directories, name, tree, stands, node, named.symm, ?_⟩
  have texts := Git.directoryPath_map_bytes (directories.map (·.text))
  rw [List.map_map, List.map_map] at texts
  rw [path, List.nil_append]
  exact texts

/-- The path of a file that a walk meets leads to a file in the tree. -/
theorem exists_file_of_path? {entries : List (FileName × FileTree)} {visit : Git.Visit}
    {path : String} (met : visit ∈ (toTree entries).walk) (listed : visit.path? = some path)
    : ∃ directories name executable content,
        (directory entries).at? (directories ++ [name]) = some (.file executable content)
        ∧ path = name.pathIn directories
        ∧ visit.directory = Git.bytes (String.join (directories.map (·.text ++ "/"))) := by
  obtain ⟨directories, name, tree, stands, node, named, inside⟩ := exists_at_of_visit met
  rw [Git.Visit.path?, node, named, inside, ← Git.bytes_append] at listed
  cases tree with
  | file executable content =>
      rw [toNode] at listed
      dsimp only at listed
      rw [Git.textOf?_bytes] at listed
      exact ⟨directories, name, executable, content, stands, (Option.some.inj listed).symm, inside⟩
  | directory below =>
      rw [toNode] at listed
      cases listed

/-- The files of a tree can be listed, since all its names are texts. -/
theorem listing_toTree (entries : List (FileName × FileTree))
    : Git.Repository.listing (toTree entries).walk
      = .ok ((toTree entries).walk.filterMap Git.Visit.path?) := by
  refine Git.listing_eq fun visit met => ?_
  obtain ⟨directories, name, tree, _, _, named, inside⟩ := exists_at_of_visit met
  exact ⟨_, name.text, inside, named⟩

end FileTree

end Packaging
