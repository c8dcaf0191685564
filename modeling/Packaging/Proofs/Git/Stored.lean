import Packaging.Proofs.Git.Trees

/-! Trees as they are stored. Every directory has its entries in order and each under a name of its
own. So a path leads to one entry at most, and a walk meets the paths in ascending order.
-/

namespace Packaging.Git

namespace Tree

/-- A name of an entry: a text with content and without slashes. -/
def IsEntryName (name : Name) : Prop :=
  ∃ text : String, text ≠ "" ∧ '/' ∉ text.toList ∧ name = bytes text

theorem IsEntryName.content {name : Name} (proper : IsEntryName name)
    : name ≠ [] := by
  obtain ⟨text, content, _, rfl⟩ := proper
  exact fun empty => content (bytes_eq_nil_iff.mp empty)

theorem IsEntryName.plain {name : Name} (proper : IsEntryName name)
    : slash ∉ name := by
  obtain ⟨text, _, single, rfl⟩ := proper
  exact fun slash => single (slash_mem_bytes_iff.mp slash)

/-- The entries of a directory stand in order, and each has a proper name of its own. -/
structure Named (tree : Tree) : Prop where
  proper : ∀ entry ∈ tree, IsEntryName entry.1
  ascending : tree.Pairwise fun first second => key first < key second
  distinct : tree.Pairwise fun first second => first.1 ≠ second.1

theorem Named.ordered {tree : Tree} (named : tree.Named)
    : tree.Ordered :=
  ⟨fun entry member => (named.proper entry member).plain, named.ascending⟩

/-- A tree is stored as it has to be, down to its last directory. -/
inductive Stored : Tree → Prop
  | intro {tree : Tree} (named : tree.Named)
      (entries : ∀ {name below}, (name, Node.tree below) ∈ tree → Stored below)
    : Stored tree

variable {tree : Tree}

theorem Stored.named (stored : tree.Stored)
    : tree.Named := by
  cases stored with
  | intro named _ => exact named

theorem Stored.entries {below : Tree} {name : Name} (stored : tree.Stored)
    (member : (name, Node.tree below) ∈ tree)
    : below.Stored := by
  cases stored with
  | intro _ entries => exact entries member

/-- On a way through a stored tree every name is that of an entry. -/
theorem Stored.proper_of_reaches (stored : tree.Stored) {way : List Name} {node : Node}
    (reached : tree.Reaches way node)
    : ∀ name ∈ way, IsEntryName name := by
  induction reached with
  | entry member => exact List.forall_mem_singleton.mpr (stored.named.proper _ member)
  | deeper member _ ih =>
      exact List.forall_mem_cons.mpr
        ⟨stored.named.proper _ member, ih (stored.entries member)⟩

-----------------------------------------------------------------------------------------
-- Changes of stored trees
-----------------------------------------------------------------------------------------

theorem Stored.empty : Stored [] :=
  .intro ⟨nofun, List.Pairwise.nil, List.Pairwise.nil⟩ nofun

theorem Stored.drop (stored : tree.Stored) (name : Name)
    : (tree.drop name).Stored := by
  have kept {entry : Name × Node} (member : entry ∈ tree.drop name) : entry ∈ tree :=
    (mem_drop_iff.mp member).1
  refine .intro ⟨?_, ?_, ?_⟩ fun member => stored.entries (kept member)
  · exact fun entry member => stored.named.proper entry (kept member)
  · exact stored.named.ascending.filter _
  · exact stored.named.distinct.filter _

/-- A tree stays stored when something that is stored itself is put under a name. -/
theorem Stored.put (stored : tree.Stored) {name : Name} (proper : IsEntryName name) {node : Node}
    (inside : ∀ {below}, node = .tree below → Stored below)
    : (tree.put name node).Stored := by
  refine .intro ⟨?_, (stored.named.ordered.put proper.plain node).ascending, ?_⟩ ?_
  · intro entry member
    rcases mem_put_iff.mp member with rfl | ⟨old, _⟩
    · exact proper
    · exact stored.named.proper entry old
  · have fresh : ∀ entry ∈ tree.drop name, name ≠ entry.1 :=
      fun entry member same => (mem_drop_iff.mp member).2 same.symm
    refine (place_perm _ _).symm.pairwise ?_ fun different => Ne.symm different
    exact List.pairwise_cons.mpr ⟨fresh, (stored.drop _).named.distinct⟩
  · intro name below member
    rcases mem_put_iff.mp member with same | ⟨old, _⟩
    · exact inside (Prod.mk.inj same).2.symm
    · exact stored.entries old

/-- What stands under a name of a stored tree is stored, or has no entries. -/
theorem Stored.entriesOf (stored : tree.Stored) (name : Name)
    : Stored (((tree.lookup? name).map Node.entries).getD []) := by
  cases found : tree.lookup? name with
  | none => exact .empty
  | some node =>
      cases node with
      | blob mode content => exact .empty
      | tree below => exact stored.entries (mem_of_lookup? found)
      | submodule => exact .empty

/-- Writing a file keeps a tree stored. By induction over the names of its path. -/
theorem Stored.write (stored : tree.Stored) (mode : FileMode) (content : ByteArray)
    {way : List Name} (proper : ∀ name ∈ way, IsEntryName name)
    : (tree.write mode content way).Stored := by
  induction way generalizing tree with
  | nil => exact stored
  | cons name rest ih =>
      obtain ⟨first, others⟩ := List.forall_mem_cons.mp proper
      cases rest with
      | nil => exact stored.put first nofun
      | cons next more =>
          refine stored.put first fun same => ?_
          obtain rfl := Node.tree.inj same
          exact ih (stored.entriesOf name) others

/-- Removing a file keeps a tree stored. By induction over the names of its path. -/
theorem Stored.remove (stored : tree.Stored) {way : List Name}
    (proper : ∀ name ∈ way, IsEntryName name)
    : (tree.remove way).Stored := by
  induction way generalizing tree with
  | nil => exact stored
  | cons name rest ih =>
      obtain ⟨first, others⟩ := List.forall_mem_cons.mp proper
      cases rest with
      | nil => exact stored.drop name
      | cons next more =>
          unfold remove
          split
          · next below found =>
            have left := ih (stored.entries (mem_of_lookup? found)) others
            split
            · exact stored.drop name
            · refine stored.put first fun same => ?_
              obtain rfl := Node.tree.inj same
              exact left
          · exact stored

-----------------------------------------------------------------------------------------
-- What a path leads to
-----------------------------------------------------------------------------------------

/-- What is found under a name is the one entry of that name. -/
theorem Named.lookup?_eq_some_iff (named : tree.Named) {name : Name} {node : Node}
    : tree.lookup? name = some node ↔ (name, node) ∈ tree := by
  refine ⟨mem_of_lookup?, ?_⟩
  have distinct := named.distinct
  clear named
  induction tree with
  | nil => exact nofun
  | cons entry rest ih =>
      obtain ⟨first, others⟩ := List.pairwise_cons.mp distinct
      intro member
      rw [lookup?]
      rcases List.mem_cons.mp member with rfl | later
      · exact if_pos rfl
      · rw [if_neg (first _ later)]
        exact ih others later

theorem find?_singleton {name : Name} (content : name ≠ []) (tree : Tree)
    : tree.find? [name] = tree.lookup? name := by
  simp [find?, content]

theorem find?_cons {name next : Name} (content : name ≠ []) (further : next ≠ []) (tree : Tree)
    (rest : List Name)
    : tree.find? (name :: next :: rest)
      = match tree.lookup? name with
        | some (.tree below) => Tree.find? below (next :: rest)
        | _ => none := by
  obtain ⟨_, _, rfl⟩ := List.exists_cons_of_ne_nil content
  obtain ⟨_, _, rfl⟩ := List.exists_cons_of_ne_nil further
  rw [find?.eq_def]
  dsimp only
  cases tree.lookup? _ with
  | none => rfl
  | some node => cases node <;> rfl

/-- What is found at a path is what the names of the path reach. By induction over them. -/
theorem reaches_of_find? {way : List Name} {node : Node}
    (found : tree.find? way = some node) (content : [] ∉ way)
    : tree.Reaches way node := by
  induction way generalizing tree with
  | nil => simp [find?] at found
  | cons name rest ih =>
      obtain ⟨first, others⟩ : name ≠ [] ∧ [] ∉ rest := by
        simpa [eq_comm] using content
      cases rest with
      | nil =>
          rw [find?_singleton first] at found
          exact .entry (mem_of_lookup? found)
      | cons next more =>
          have further : next ≠ [] := fun empty => others (empty ▸ List.mem_cons_self)
          rw [find?_cons first further] at found
          split at found
          · next below entry => exact .deeper (mem_of_lookup? entry) (ih found others)
          · cases found

/-- In a stored tree the names of a path reach what is found there. -/
theorem Stored.find?_eq_some_iff (stored : tree.Stored) {way : List Name}
    {node : Node} (content : [] ∉ way)
    : tree.find? way = some node ↔ tree.Reaches way node := by
  refine ⟨fun found => reaches_of_find? found content, fun reached => ?_⟩
  clear content
  induction reached with
  | entry member =>
      rw [find?_singleton ((stored.named.proper _ member).content)]
      exact stored.named.lookup?_eq_some_iff.mpr member
  | @deeper tree entries name way node member further ih =>
      have found := ih (stored.entries member)
      cases way with
      | nil => cases further
      | cons next rest =>
          have proper : next ≠ [] := by
            cases further with
            | entry below => exact ((stored.entries member).named.proper _ below).content
            | deeper below _ => exact ((stored.entries member).named.proper _ below).content
          rw [find?_cons ((stored.named.proper _ member).content) proper,
            stored.named.lookup?_eq_some_iff.mpr member]
          exact found

end Tree

-----------------------------------------------------------------------------------------
-- What a walk meets
-----------------------------------------------------------------------------------------

/-- A walk goes through one entry after another, and through what is below an entry right after
it.
-/
theorem walkEntries_eq_flatMap (directory : Name) (tree : Tree)
    : walkEntries directory tree
      = tree.flatMap fun entry =>
          ⟨directory, entry.1, entry.2⟩ :: entry.2.walk (directory ++ entry.1 ++ [slash]) := by
  induction tree with
  | nil => rfl
  | cons entry rest ih => rw [walkEntries, ih, List.flatMap_cons]

/-- Whatever is reached from a tree is met by a walk. -/
theorem mem_walkEntries_of_reaches {tree : Tree} {way : List Name} {name : Name} {node : Node}
    (reached : tree.Reaches (way ++ [name]) node) (directory : Name)
    : ⟨directory ++ directoryPath way, name, node⟩ ∈ walkEntries directory tree := by
  induction way generalizing tree directory with
  | nil =>
      cases reached with
      | entry member =>
          rw [walkEntries_eq_flatMap, List.mem_flatMap]
          exact ⟨_, member, by simp [directoryPath]⟩
      | deeper _ further => cases further
  | cons first rest ih =>
      rw [List.cons_append] at reached
      generalize names : rest ++ [name] = further at reached ih
      cases reached with
      | entry member => simp at names
      | deeper member further =>
          refine mem_walkEntries_of_mem member ?_
          have met := ih further (directory ++ first ++ [slash])
          simpa [directoryPath, Node.walk] using met

-----------------------------------------------------------------------------------------
-- The order of a walk
-----------------------------------------------------------------------------------------

/-- What extends a smaller name is smaller, unless that name begins the other one. -/
theorem append_lt_append {first second : Name} (less : first < second)
    (apart : ¬ first <+: second) (front back : Name)
    : first ++ front < second ++ back := by
  induction first generalizing second with
  | nil => exact absurd List.nil_prefix apart
  | cons byte rest ih =>
      cases second with
      | nil => exact absurd less (List.not_lt_nil _)
      | cons other more =>
          rw [List.cons_append, List.cons_append, List.cons_lt_cons_iff]
          rcases List.cons_lt_cons_iff.mp less with smaller | ⟨rfl, tail⟩
          · exact Or.inl smaller
          · refine Or.inr ⟨rfl, ih tail fun begins => ?_⟩
            exact apart (List.cons_prefix_cons.mpr ⟨rfl, begins⟩)

/-- A name is smaller than what goes on after it. -/
theorem lt_append {more : Name} (content : more ≠ []) (name : Name)
    : name < name ++ more := by
  obtain ⟨byte, rest, rfl⟩ := List.exists_cons_of_ne_nil content
  have less : name ++ [] < name ++ byte :: rest :=
    List.append_left_lt (List.nil_lt_cons byte rest)
  rwa [List.append_nil] at less

namespace Tree

/-- The key of a directory begins no greater key, since it ends in the only slash of a key. -/
theorem not_prefix_key {first second : Name × Node} (directory : first.2.isTree = true)
    (plain : slash ∉ second.1) (less : key first < key second)
    : ¬ key first <+: key second := by
  have within : ¬ key first <+: second.1 := by
    intro begins
    refine plain (begins.subset ?_)
    simp [key, directory]
  intro begins
  cases kind : second.2.isTree with
  | false =>
      have last : key second = second.1 := by simp [key, kind]
      exact within (last ▸ begins)
  | true =>
      have last : key second = second.1 ++ [slash] := by simp [key, kind]
      rw [last] at begins less
      rcases List.prefix_concat_iff.mp begins with same | begins
      · exact List.lt_irrefl _ (same ▸ less)
      · exact within begins

/-- What begins with smaller keys is smaller, since only the key of a directory goes on. -/
theorem key_append_lt {first second : Name × Node} (plain : slash ∉ second.1)
    (less : key first < key second) {front : Name} (own : first.2.isTree = true ∨ front = [])
    (back : Name)
    : key first ++ front < key second ++ back := by
  by_cases begins : key first <+: key second
  · have alone : front = [] :=
      own.resolve_left fun directory => not_prefix_key directory plain less begins
    obtain ⟨more, split⟩ := begins
    have content : more ≠ [] := by
      rintro rfl
      rw [← split, List.append_nil] at less
      exact List.lt_irrefl _ less
    rw [alone, List.append_nil, ← split, List.append_assoc]
    exact lt_append (List.append_ne_nil_of_left_ne_nil content _) _
  · exact append_lt_append less begins _ _

end Tree

/-- What a visit is ordered by: its path, and a slash after that of a directory. -/
def Visit.key (visit : Visit) : Name :=
  visit.directory ++ Tree.key (visit.name, visit.node)

namespace Tree

/-- What is met below an entry goes on from the key of the entry, which is a directory. -/
theorem Stored.exists_key_of_mem_walk {tree : Tree} (stored : tree.Stored)
    {entry : Name × Node} (member : entry ∈ tree) {directory : Name} {visit : Visit}
    (met : visit ∈ entry.2.walk (directory ++ entry.1 ++ [slash]))
    : entry.2.isTree = true
      ∧ ∃ more, more ≠ [] ∧ visit.key = directory ++ (key entry ++ more) := by
  obtain ⟨name, node⟩ := entry
  cases node with
  | blob mode content => simp [Node.walk] at met
  | tree below =>
      obtain ⟨way, reached, inside⟩ := exists_reaches_of_mem met
      have content : visit.name ≠ [] :=
        ((stored.entries member).proper_of_reaches reached _ List.mem_concat_self).content
      refine ⟨rfl, directoryPath way ++ key (visit.name, visit.node), ?_, ?_⟩
      · refine List.append_ne_nil_of_right_ne_nil _ ?_
        unfold key
        split
        · exact List.append_ne_nil_of_left_ne_nil content _
        · exact content
      · simp [Visit.key, inside, key, Node.isTree]
  | submodule => simp [Node.walk] at met

/-- An entry and what is below it go on from its key, and only a directory has more than the key. -/
theorem Stored.exists_key_of_mem {tree : Tree} (stored : tree.Stored)
    {entry : Name × Node} (member : entry ∈ tree) {directory : Name} {visit : Visit}
    (met
      : visit ∈ (⟨directory, entry.1, entry.2⟩ : Visit)
          :: entry.2.walk (directory ++ entry.1 ++ [slash]))
    : ∃ more,
        visit.key = directory ++ (key entry ++ more)
        ∧ (entry.2.isTree = true ∨ more = []) := by
  rcases List.mem_cons.mp met with rfl | deeper
  · exact ⟨[], by simp [Visit.key], Or.inr rfl⟩
  · obtain ⟨kind, more, _, split⟩ := stored.exists_key_of_mem_walk member deeper
    exact ⟨more, split, Or.inl kind⟩

/-- A walk of a stored tree ascends. By induction over the tree: what is below an entry goes on from
its key, and the keys of the entries ascend.
-/
theorem Stored.ascending_walkEntries {tree : Tree} (stored : tree.Stored) (directory : Name)
    : (walkEntries directory tree).Pairwise fun first second => first.key < second.key := by
  induction stored generalizing directory with
  | @intro tree named entries ih =>
      have stored : tree.Stored := .intro named entries
      rw [walkEntries_eq_flatMap, List.pairwise_flatMap]
      constructor
      · intro entry member
        refine List.pairwise_cons.mpr ⟨?_, ?_⟩
        · intro visit deeper
          obtain ⟨_, more, content, split⟩ := stored.exists_key_of_mem_walk member deeper
          rw [split]
          exact List.append_left_lt (lt_append content _)
        · obtain ⟨name, node⟩ := entry
          cases node with
          | blob mode content => exact List.Pairwise.nil
          | tree below => exact ih member _
          | submodule => exact List.Pairwise.nil
      · refine named.ascending.imp_of_mem ?_
        intro first second earlier later less visit met other also
        obtain ⟨front, left, own⟩ := stored.exists_key_of_mem earlier met
        obtain ⟨back, right, _⟩ := stored.exists_key_of_mem later also
        rw [left, right]
        exact List.append_left_lt (key_append_lt (named.proper second later).plain less own back)

end Tree

end Packaging.Git
