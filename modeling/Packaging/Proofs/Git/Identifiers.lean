import Packaging.Git.Repository

/-! Whole identifiers as references. Their digits are no marks of a revision, so each leads to the
object that it identifies.
-/

namespace Packaging.Git

/-- Text without marks is a name with no steps. By induction over the text. -/
theorem Revision.splitName_of_plain {text : List Char}
    (plain : ∀ c ∈ text, c ≠ '^' ∧ c ≠ '~' ∧ c ≠ ':' ∧ c ≠ '@')
    : splitName text = (text, []) := by
  induction text with
  | nil => rfl
  | cons c rest ih =>
      obtain ⟨⟨caret, tilde, colon, mark⟩, others⟩ := List.forall_mem_cons.mp plain
      rw [splitName, ih others]
      simp [caret, tilde, colon, mark]

theorem ObjectId.isHex_of_whole? {text : List Char} {id : ObjectId} (whole : whole? text = some id)
    : ∀ c ∈ text, isHex c = true := by
  unfold whole? take? at whole
  split at whole
  · next front =>
    dsimp only at front
    split at front
    · next digits =>
      obtain ⟨_, nothing⟩ := Prod.mk.inj (Option.some.inj front)
      rw [List.drop_eq_nil_iff] at nothing
      rw [List.take_of_length_le nothing] at digits
      exact List.all_eq_true.mp digits.2
    · cases front
  · cases whole

namespace Database

variable {db : Database} {text : String} {id : ObjectId} {object : Object}

/-- An identifier leads to its object. -/
theorem revision_of_identifier (whole : ObjectId.whole? text.toList = some id)
    (found : db.find? id = .ok (some object))
    : db.revision (Revision.ofString text) = .ok object := by
  have hex := ObjectId.isHex_of_whole? whole
  have plain : ∀ c ∈ text.toList, c ≠ '^' ∧ c ≠ '~' ∧ c ≠ ':' ∧ c ≠ '@' := by
    intro c member
    have digit := hex c member
    refine ⟨?_, ?_, ?_, ?_⟩ <;> rintro rfl <;> revert digit <;> decide
  have name : Revision.ofString text = ⟨text.toList, [.start]⟩ := by
    rw [Revision.ofString, Revision.splitName_of_plain plain]
    simp [Revision.readSteps]
  have named : db.object text.toList = .ok object := by
    unfold Database.object
    rw [whole]
    dsimp only
    rw [found]
    rfl
  have start : db.load { name := text.toList } = .ok object := by
    have content : text.toList ≠ [] := by
      intro empty
      rw [empty] at whole
      cases whole
    rw [load, if_neg (by simpa using content), named]
  have taken
      : db.take { name := text.toList } .start
        = .ok { name := text.toList, object := some object } := by
    rw [take, start]
    rfl
  rw [revision, name, List.foldlM_cons, taken]
  rfl

/-- An identifier of an object leads to the tree that the object stands for. -/
theorem treeAt_of_identifier (whole : ObjectId.whole? text.toList = some id)
    (found : db.find? id = .ok (some object))
    : db.treeAt text = Failure.orUnknown (db.objects.tree? object) := by
  have zero : '\x00' ∉ text.toList := by
    intro member
    have digit := ObjectId.isHex_of_whole? whole _ member
    revert digit
    decide
  unfold treeAt
  rw [if_neg zero, revision_of_identifier whole found]
  rfl

end Database

/-- A repository that holds a tree at an identifier, and nothing else. -/
def Repository.holding (text : String) (tree : Tree) : Repository where
  database := {
    files := ⟨[], [], []⟩
    directory := []
    shared := []
    objects := [(text.toList, .tree tree)]
    config := []
    withoutList := false
    now := 0 }
  workDirectory := none

theorem Repository.tree_holding {text : String}
    (whole : ObjectId.whole? text.toList = some text.toList) (tree : Tree)
    : (holding text tree).tree text = .ok tree := by
  have found : (holding text tree).database.find? text.toList = .ok (some (.tree tree)) := by
    have whole : (holding text tree).database.broken = [] := rfl
    rw [Database.find?, whole]
    simp [holding, ObjectStore.get?]
  unfold Repository.tree
  rw [Database.treeAt_of_identifier whole found]
  rfl

end Packaging.Git
