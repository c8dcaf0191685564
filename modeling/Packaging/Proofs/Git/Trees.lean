import Packaging.Proofs.Git.Bytes

/-! Trees in the order in which they are stored. Entries are put in their places, and a walk reaches
what is below an entry right after it.
-/

namespace Packaging.Git

namespace Tree

-----------------------------------------------------------------------------------------
-- Entries in order
-----------------------------------------------------------------------------------------

/-- No name holds a slash, and entries stand in ascending order of their keys. -/
structure Ordered (tree : Tree) : Prop where
  plain : ∀ entry ∈ tree, slash ∉ entry.1
  ascending : tree.Pairwise fun first second => key first < key second

theorem mem_drop_iff {name : Name} {tree : Tree} {entry : Name × Node}
    : entry ∈ drop name tree ↔ entry ∈ tree ∧ entry.1 ≠ name := by
  simp [drop]

/-- Placing an entry adds it to the others. -/
theorem place_perm (entry : Name × Node) (tree : Tree)
    : (place entry tree).Perm (entry :: tree) := by
  induction tree with
  | nil => exact List.Perm.refl _
  | cons first rest ih =>
      unfold place
      split
      · exact List.Perm.refl _
      · exact (ih.cons first).trans (List.Perm.swap entry first rest)

theorem mem_place_iff {entry other : Name × Node} {tree : Tree}
    : other ∈ place entry tree ↔ other = entry ∨ other ∈ tree :=
  (place_perm entry tree).mem_iff.trans List.mem_cons

theorem mem_put_iff {name : Name} {node : Node} {tree : Tree} {entry : Name × Node}
    : entry ∈ put name node tree ↔ entry = (name, node) ∨ entry ∈ tree ∧ entry.1 ≠ name := by
  rw [put, mem_place_iff, mem_drop_iff]

/-- Names without slashes tell keys apart. -/
theorem name_eq_of_key_eq {first second : Name × Node} (plain : slash ∉ first.1)
    (other : slash ∉ second.1) (same : key first = key second)
    : first.1 = second.1 := by
  unfold key at same
  split at same
  · split at same
    · exact List.append_cancel_right same
    · exact absurd (same ▸ List.mem_append_cons_self) other
  · split at same
    · exact absurd (same ▸ List.mem_append_cons_self) plain
    · exact same

/-- An entry with a new key finds its place among ascending ones. By induction over them. -/
theorem ascending_place {entry : Name × Node} {tree : Tree}
    (ascending : tree.Pairwise fun first second => key first < key second)
    (fresh : ∀ other ∈ tree, key other ≠ key entry)
    : (place entry tree).Pairwise fun first second => key first < key second := by
  induction tree with
  | nil => exact List.pairwise_singleton _ _
  | cons first rest ih =>
      obtain ⟨below, others⟩ := List.pairwise_cons.mp ascending
      obtain ⟨other, further⟩ := List.forall_mem_cons.mp fresh
      unfold place
      split
      · next less =>
        refine List.pairwise_cons.mpr ⟨?_, ascending⟩
        intro next member
        rcases List.mem_cons.mp member with rfl | member
        · exact less
        · exact List.lt_trans less (below next member)
      · next notLess =>
        have less : key first < key entry := by
          apply Decidable.byContradiction
          intro notGreater
          exact other (List.le_antisymm (List.not_lt.mp notLess) (List.not_lt.mp notGreater))
        refine List.pairwise_cons.mpr ⟨?_, ih others further⟩
        intro next member
        rcases mem_place_iff.mp member with rfl | member
        · exact less
        · exact below next member

/-- A tree stays in order when something is put under a name without slashes. -/
theorem Ordered.put {tree : Tree} (ordered : tree.Ordered) {name : Name} (single : slash ∉ name)
    (node : Node)
    : (tree.put name node).Ordered where
  plain := by
    intro entry member
    rcases mem_put_iff.mp member with rfl | ⟨old, _⟩
    · exact single
    · exact ordered.plain entry old
  ascending := by
    refine ascending_place (ordered.ascending.filter _) ?_
    intro other member same
    obtain ⟨old, different⟩ := mem_drop_iff.mp member
    exact different (name_eq_of_key_eq (ordered.plain other old) single same)

/-- What is found under a name is an entry of that name. -/
theorem mem_of_lookup? {name : Name} {tree : Tree} {node : Node}
    (found : lookup? name tree = some node)
    : (name, node) ∈ tree := by
  induction tree with
  | nil => cases found
  | cons entry rest ih =>
      rw [lookup?] at found
      split at found
      · next same =>
        obtain rfl := Option.some.inj found
        exact same ▸ List.mem_cons_self
      · exact List.mem_cons_of_mem _ (ih found)

theorem drop_cons (name : Name) (entry : Name × Node) (rest : Tree)
    : drop name (entry :: rest)
      = if entry.1 = name then drop name rest else entry :: drop name rest := by
  by_cases same : entry.1 = name <;> simp [drop, same]

/-- A dropped name is not found, and every other name is found as before. -/
theorem lookup?_drop (name other : Name) (tree : Tree)
    : lookup? other (drop name tree) = if other = name then none else lookup? other tree := by
  induction tree with
  | nil => simp [drop, lookup?]
  | cons entry rest ih =>
      by_cases dropped : entry.1 = name
      · by_cases asked : other = name
        · simpa [drop_cons, dropped, asked] using ih
        · simp [drop_cons, dropped, ih, asked, lookup?, Ne.symm asked]
      · by_cases first : entry.1 = other
        · simp [drop_cons, first ▸ dropped, first, lookup?]
        · simp [drop_cons, dropped, first, ih, lookup?]

/-- An entry is found under its name, which no other entry has, and every other name as before. -/
theorem lookup?_place {entry : Name × Node} {tree : Tree}
    (fresh : ∀ other ∈ tree, other.1 ≠ entry.1) (name : Name)
    : lookup? name (place entry tree)
      = if name = entry.1 then some entry.2 else lookup? name tree := by
  induction tree with
  | nil => simp [place, lookup?, eq_comm]
  | cons first rest ih =>
      obtain ⟨different, others⟩ := List.forall_mem_cons.mp fresh
      unfold place
      split
      · simp [lookup?, eq_comm]
      · by_cases asked : first.1 = name
        · simp [lookup?, asked, asked ▸ different]
        · simp [lookup?, asked, ih others]

/-- What is put under a name is found there, and every other name is found as before. -/
theorem lookup?_put (name other : Name) (node : Node) (tree : Tree)
    : lookup? other (put name node tree)
      = if other = name then some node else lookup? other tree := by
  have fresh : ∀ entry ∈ drop name tree, entry.1 ≠ name :=
    fun entry member => (mem_drop_iff.mp member).2
  rw [put, lookup?_place fresh, lookup?_drop]
  split <;> rfl

-----------------------------------------------------------------------------------------
-- Walks
-----------------------------------------------------------------------------------------

/-- A node is reached from a tree by the names on the way. -/
inductive Reaches : Tree → List Name → Node → Prop
  | entry {tree : Tree} {name : Name} {node : Node} (member : (name, node) ∈ tree)
    : Reaches tree [name] node
  | deeper {tree entries : Tree} {name : Name} {way : List Name} {node : Node}
      (member : (name, .tree entries) ∈ tree) (further : Reaches entries way node)
    : Reaches tree (name :: way) node

/-- What is reached stays so in a tree with more entries. -/
theorem Reaches.mono {tree more : Tree} (contained : ∀ entry ∈ tree, entry ∈ more)
    {way : List Name} {node : Node} (reached : tree.Reaches way node)
    : more.Reaches way node := by
  cases reached with
  | entry member => exact .entry (contained _ member)
  | deeper member further => exact .deeper (contained _ member) further

end Tree

/-- The path of nested directories, up to its last slash. -/
def directoryPath (names : List Name) : Name :=
  names.flatMap (· ++ [slash])

/-- The path of directories whose names are texts is a text. -/
theorem directoryPath_map_bytes (names : List String)
    : directoryPath (names.map bytes) = bytes (String.join (names.map (· ++ "/"))) := by
  have slash : bytes "/" = [slash] := by
    rw [bytes_eq_flatMap]
    decide
  induction names with
  | nil => rw [bytes_eq_flatMap]; rfl
  | cons name rest ih =>
      rw [List.map_cons, List.map_cons, String.join_cons, bytes_append, bytes_append, ← ih, slash,
        directoryPath, directoryPath, List.flatMap_cons]

mutual

/-- What a walk meets below a node is reached from its entries. -/
theorem Node.exists_reaches {directory : Name} {node : Node} {visit : Visit}
    (met : visit ∈ node.walk directory)
    : ∃ way, Tree.Reaches node.entries (way ++ [visit.name]) visit.node
        ∧ visit.directory = directory ++ directoryPath way := by
  cases node with
  | blob mode content => simp [Node.walk] at met
  | tree entries => exact exists_reaches_of_mem met
  | submodule => simp [Node.walk] at met

/-- What a walk meets is reached from the tree, and its directory has the path of the way there. -/
theorem exists_reaches_of_mem {directory : Name} {tree : Tree} {visit : Visit}
    (met : visit ∈ walkEntries directory tree)
    : ∃ way, tree.Reaches (way ++ [visit.name]) visit.node
        ∧ visit.directory = directory ++ directoryPath way := by
  match tree with
  | [] => simp [walkEntries] at met
  | (name, node) :: rest =>
      simp only [walkEntries, List.cons_append, List.mem_cons, List.mem_append] at met
      rcases met with rfl | deeper | later
      · exact ⟨[], .entry List.mem_cons_self, by simp [directoryPath]⟩
      · obtain ⟨way, reached, path⟩ := Node.exists_reaches deeper
        refine ⟨name :: way, ?_, ?_⟩
        · cases node with
          | tree entries => exact .deeper List.mem_cons_self reached
          | blob mode content => exact absurd deeper (by simp [Node.walk])
          | submodule => exact absurd deeper (by simp [Node.walk])
        · simp [path, directoryPath]
      · obtain ⟨way, reached, path⟩ := exists_reaches_of_mem later
        exact ⟨way, reached.mono fun _ => List.mem_cons_of_mem _, path⟩

end

/-- What is met below an entry is met in the whole tree. By induction over the entries. -/
theorem mem_walkEntries_of_mem {directory : Name} {tree : Tree} {entry : Name × Node}
    {visit : Visit} (member : entry ∈ tree)
    (met : visit ∈ entry.2.walk (directory ++ entry.1 ++ [slash]))
    : visit ∈ walkEntries directory tree := by
  induction tree with
  | nil => exact absurd member List.not_mem_nil
  | cons first rest ih =>
      rw [walkEntries, List.mem_append, List.mem_cons]
      rcases List.mem_cons.mp member with rfl | later
      · exact Or.inl (Or.inr met)
      · exact Or.inr (ih later)

/-- What is chosen from a walk is chosen from the entries of the tree itself, when nothing is chosen
deeper. By induction over the entries.
-/
theorem filterMap_walkEntries {α : Type} {choose : Visit → Option α} {directory : Name}
    {tree : Tree}
    (none
      : ∀ entry ∈ tree, ∀ visit ∈ entry.2.walk (directory ++ entry.1 ++ [slash]),
          choose visit = none)
    : (walkEntries directory tree).filterMap choose
      = tree.filterMap fun entry => choose ⟨directory, entry.1, entry.2⟩ := by
  induction tree with
  | nil => rfl
  | cons entry rest ih =>
      obtain ⟨first, others⟩ := List.forall_mem_cons.mp none
      have deeper
          : (entry.2.walk (directory ++ entry.1 ++ [slash])).filterMap choose = [] :=
        List.filterMap_eq_nil_iff.mpr first
      rw [walkEntries, List.filterMap_append, List.filterMap_cons, ih others, List.filterMap_cons]
      split
      · rw [deeper, List.nil_append]
      · rw [List.cons_append, deeper, List.nil_append]

-----------------------------------------------------------------------------------------
-- Lists of files
-----------------------------------------------------------------------------------------

/-- The path of a file that a walk meets. -/
def Visit.path? (visit : Visit) : Option String :=
  match visit.node with
  | .blob _ _ => Repository.textOf? (visit.directory ++ visit.name)
  | _ => none

namespace Repository

theorem listing_cons (visit : Visit) (rest : List Visit)
    : listing (visit :: rest)
      = match textOf? visit.directory with
        | none => .error .corrupt
        | some directory =>
          match visit.node, textOf? visit.name with
          | .blob _ _, some name => (listing rest).map ((directory ++ name) :: ·)
          | _, _ => listing rest := by
  rfl

/-- A test only restricts what is listed. By induction over the walk. -/
theorem listingWhere_eq (test : String → Bool) (visits : List Visit)
    : listingWhere test visits = (listing visits).map fun paths => paths.filter test := by
  induction visits with
  | nil => rfl
  | cons visit rest ih =>
      rw [listingWhere, listing_cons, ih]
      cases textOf? visit.directory with
      | none => rfl
      | some directory =>
          -- Only a file with a name changes the list, and only if the rest can be listed.
          cases visit.node with
          | blob mode content =>
              cases textOf? visit.name with
              | none => rfl
              | some name =>
                  cases listing rest with
                  | error error => rfl
                  | ok paths =>
                      dsimp only [Except.map]
                      rw [List.filter_cons]
          | tree entries => rfl
          | submodule => rfl

end Repository

/-- The files of a walk can be listed when all names are texts. By induction over the walk. -/
theorem listing_eq {visits : List Visit}
    (texts
      : ∀ visit ∈ visits,
          ∃ directory name, visit.directory = bytes directory ∧ visit.name = bytes name)
    : Repository.listing visits = .ok (visits.filterMap Visit.path?) := by
  induction visits with
  | nil => rfl
  | cons visit rest ih =>
      obtain ⟨⟨directory, name, inside, named⟩, others⟩ := List.forall_mem_cons.mp texts
      have path
          : Repository.textOf? (visit.directory ++ visit.name) = some (directory ++ name) := by
        rw [inside, named, ← bytes_append, textOf?_bytes]
      rw [Repository.listing_cons, inside, named, textOf?_bytes, textOf?_bytes, ih others]
      rw [List.filterMap_cons, Visit.path?]
      cases visit.node with
      | blob mode content =>
          rw [path]
          rfl
      | tree entries => rfl
      | submodule => rfl

end Packaging.Git
