import Mathlib.Control.Monad.Basic
import Packaging.Proofs.Declarations.Stages
import Packaging.Proofs.Document.Ordered

/-! Settings that are nested in a job under `metadata`. A job with nested settings is read as the
flat job that gives them at its top level, and they never get at what the top level gives.
-/

namespace Packaging

open Declaration Value

namespace Declaration

-----------------------------------------------------------------------------------------
-- Flattening told by look-up
-----------------------------------------------------------------------------------------

/-- The entry that a job itself gives for a key, in either spelling. What stands under `metadata` is
not one of its own.
-/
def own? (key : String) (fields : Fields) : Option Value :=
  if key = "metadata" then none else spelled? key fields

/-- Whether nothing but null or a mapping stands under `metadata`. -/
def NestsSettings (fields : Fields) : Prop :=
  fields.find? "metadata" = none ∨ fields.find? "metadata" = some .null
  ∨ ∃ nested, fields.find? "metadata" = some (.mapping nested)

variable {fields left right : Fields}

theorem flatten_of_bothSpellings (both : BothSpellings fields)
    : flatten fields = .error (.invalid syncedFilesKey .twoSpellings) := by
  rw [flatten, renameSynonym_eq_error_iff.mpr ⟨both, rfl⟩]
  rfl

/-- A job with one spelling that nests settings is flattened. -/
theorem exists_flatten (single : ¬ BothSpellings fields) (settings : NestsSettings fields)
    : ∃ flat, flatten fields = .ok flat := by
  obtain ⟨renamed, rename⟩ := exists_renameSynonym single
  have kept : renamed.find? "metadata" = fields.find? "metadata" := by
    rw [find?_of_renameSynonym rename, spelled?_of_ne (by decide) (by decide)]
  have lift : ∃ flat, liftMetadata renamed = .ok flat := by
    unfold liftMetadata
    rw [kept]
    rcases settings with missing | null | ⟨nested, mapping⟩
    · exact ⟨_, by rw [missing]⟩
    · exact ⟨_, by rw [null]⟩
    · exact ⟨_, by rw [mapping]⟩
  obtain ⟨flat, lift⟩ := lift
  exact ⟨flat, flatten_eq_ok_iff.mpr ⟨renamed, rename, lift⟩⟩

/-- Jobs that give the same entries, their own before nested ones, are flattened to the same. -/
theorem flatten_congr (leftAscending : left.Ascending) (rightAscending : right.Ascending)
    (leftSettings : NestsSettings left) (rightSettings : NestsSettings right)
    (spellings : BothSpellings right ↔ BothSpellings left)
    (same
      : ∀ key, (own? key right).or (nested? key right) = (own? key left).or (nested? key left))
    : flatten right = flatten left := by
  by_cases both : BothSpellings left
  · rw [flatten_of_bothSpellings both, flatten_of_bothSpellings (spellings.mpr both)]
  · obtain ⟨flat, step⟩ := exists_flatten both leftSettings
    obtain ⟨again, stepAgain⟩ := exists_flatten (mt spellings.mp both) rightSettings
    have equal : again = flat := by
      refine (ascending_of_flatten rightAscending stepAgain).ext
        (ascending_of_flatten leftAscending step) fun key => ?_
      rw [find?_flat stepAgain, find?_flat step]
      exact same key
    rw [step, stepAgain, equal]

theorem own?_congr (others : ∀ key, key ≠ "metadata" → right.find? key = left.find? key)
    (key : String)
    : own? key right = own? key left := by
  unfold own?
  by_cases metadata : key = "metadata"
  · rw [if_pos metadata, if_pos metadata]
  · rw [if_neg metadata, if_neg metadata, spelled?, others key metadata, others _ (by decide),
      others _ (by decide), spelled?]

/-- Jobs that differ under `metadata` alone are flattened to the same, if they nest the same under
each key that they do not give themselves.
-/
theorem flatten_congr_nested (leftAscending : left.Ascending) (rightAscending : right.Ascending)
    (leftSettings : NestsSettings left) (rightSettings : NestsSettings right)
    (others : ∀ key, key ≠ "metadata" → right.find? key = left.find? key)
    (nested : ∀ key, own? key left = none → nested? key right = nested? key left)
    : flatten right = flatten left := by
  refine flatten_congr leftAscending rightAscending leftSettings rightSettings ?_ fun key => ?_
  · rw [BothSpellings, BothSpellings, others _ (by decide), others _ (by decide)]
  · rw [own?_congr others]
    cases given : own? key left with
    | some value => rfl
    | none => exact nested key given

end Declaration

namespace JobDeclaration

/-- A job is read from its flat entries alone, with the same reports. -/
theorem ofFields_congr {left right : Fields} (same : flatten right = flatten left)
    : ofFields right = ofFields left := by
  -- Reading begins with both steps of flattening, so a failure of either is how it ends.
  have failed {fields : Fields} {error : Error} (step : flatten fields = .error error)
      : ofFields fields = ⟨[], .error error⟩ := by
    unfold flatten at step
    cases rename : renameSynonym fields with
    | error first =>
        rw [rename] at step
        obtain rfl := Except.error.inj step
        simp only [ofFields, rename, Traced.liftM_error_bind]
    | ok renamed =>
        rw [rename] at step
        replace step : liftMetadata renamed = .error error := step
        simp only [ofFields, rename, step, Traced.liftM_ok_bind, Traced.liftM_error_bind]
  cases step : flatten left with
  | error error => rw [failed step, failed (same.trans step)]
  | ok flat =>
      obtain ⟨renamed, rename, lift⟩ := flatten_eq_ok_iff.mp step
      obtain ⟨again, renameAgain, liftAgain⟩ := flatten_eq_ok_iff.mp (same.trans step)
      simp only [ofFields, rename, lift, renameAgain, liftAgain, Traced.liftM_ok_bind]

end JobDeclaration

-----------------------------------------------------------------------------------------
-- The flat form of a job
-----------------------------------------------------------------------------------------

namespace Declaration

/-- Whether a mapping has an entry for a key, be it null. The other spelling counts as the key of
the files to copy.
-/
def gives (fields : Fields) (key : String) : Bool :=
  fields.has key || key = syncedFilesKey && fields.has syncedFilesSynonym

/-- A job without `metadata` that gives the nested settings itself, except for keys that it has
already.
-/
def flatForm (fields nested : Fields) : Fields :=
  (nested.filter fun entry => !gives fields entry.1).foldl
    (fun flat entry => flat.insert entry.1 entry.2) (fields.erase "metadata")

variable {fields nested : Fields}

/-- In the flat form the nested settings stand behind the entries of the job. -/
theorem find?_flatForm (distinct : nested.keys.Nodup) (key : String)
    : (flatForm fields nested).find? key
      = (if gives fields key then none else nested.find? key).or
          (if key = "metadata" then none else fields.find? key) := by
  have sublist := (List.filter_sublist (p := fun entry => !gives fields entry.1)
    (l := nested)).map Prod.fst
  rw [flatForm, Fields.find?_foldl_insert (distinct.sublist sublist),
    Fields.find?_filter (fun name => !gives fields name), Fields.find?_erase]
  cases gives fields key <;> rfl

theorem ascending_flatForm (ascending : fields.Ascending)
    : (flatForm fields nested).Ascending :=
  (ascending.erase _).foldl_insert _

/-- A job and its flat form are flattened to the same, if what is nested has neither settings of its
own nor the other spelling.
-/
theorem flatten_flatForm (ordered : (mapping fields).Ordered)
    (found : fields.find? "metadata" = some (.mapping nested))
    (flat : nested.find? "metadata" = none) (plain : nested.find? syncedFilesSynonym = none)
    : flatten (flatForm fields nested) = flatten fields := by
  have distinct : nested.keys.Nodup := (ordered.of_find? found).ascending.distinct
  have look (key : String) := @find?_flatForm fields nested distinct key
  have missing : (flatForm fields nested).find? "metadata" = none := by
    rw [look, flat]
    simp
  have synonym : (flatForm fields nested).find? syncedFilesSynonym
      = fields.find? syncedFilesSynonym := by
    rw [look, plain, if_neg (by decide : syncedFilesSynonym ≠ "metadata")]
    simp
  have files : (flatForm fields nested).find? syncedFilesKey
      = if (fields.find? syncedFilesSynonym).isSome then fields.find? syncedFilesKey
        else (fields.find? syncedFilesKey).or (nested.find? syncedFilesKey) := by
    rw [look, if_neg (by decide : syncedFilesKey ≠ "metadata")]
    cases own : fields.find? syncedFilesKey <;>
      cases other : fields.find? syncedFilesSynonym <;> simp [gives, Fields.has, own, other]
  refine flatten_congr ordered.ascending (ascending_flatForm ordered.ascending)
    (.inr (.inr ⟨nested, found⟩)) (.inl missing) ?_ fun key => ?_
  · rw [BothSpellings, BothSpellings, synonym, files]
    cases fields.find? syncedFilesSynonym <;> simp
  · rw [nested?, missing, nested?, found]
    by_cases metadata : key = "metadata"
    · simp [own?, metadata, flat]
    by_cases renamed : key = syncedFilesSynonym
    · simp [own?, spelled?, renamed, plain]
    by_cases both : key = syncedFilesKey
    · subst both
      simp only [own?, metadata, if_false, spelled?, renamed, if_true, synonym, files]
      cases fields.find? syncedFilesKey <;> cases fields.find? syncedFilesSynonym <;> simp
    · simp only [own?, metadata, if_false, spelled?_of_ne both renamed, look]
      cases own : fields.find? key <;> simp [gives, Fields.has, own, both]

/-- Nothing nested is the same as no `metadata`. -/
theorem flatten_erase_metadata (ascending : fields.Ascending)
    (empty
      : fields.find? "metadata" = some .null ∨ fields.find? "metadata" = some (.mapping []))
    : flatten (fields.erase "metadata") = flatten fields := by
  have missing : (fields.erase "metadata").find? "metadata" = none := by
    rw [Fields.find?_erase, if_pos rfl]
  have settings : NestsSettings fields :=
    empty.elim (.inr ∘ .inl) fun found => .inr (.inr ⟨[], found⟩)
  refine flatten_congr_nested ascending (ascending.erase _) settings (.inl missing) ?_ ?_
  · intro key other
    rw [Fields.find?_erase, if_neg other]
  · intro key _
    rw [nested?, missing, nested?]
    rcases empty with null | mapping
    · rw [null]
    · rw [mapping]
      rfl

/-- Nested settings under keys that the job itself gives may be any. -/
theorem flatten_insert_metadata {more : Fields} (ascending : fields.Ascending)
    (found : fields.find? "metadata" = some (.mapping nested))
    (same : ∀ key, own? key fields = none → more.find? key = nested.find? key)
    : flatten (fields.insert "metadata" (.mapping more)) = flatten fields := by
  have replaced : (fields.insert "metadata" (.mapping more)).find? "metadata"
      = some (.mapping more) := by
    rw [Fields.find?_insert, if_pos rfl]
  refine flatten_congr_nested ascending (ascending.insert _ _) (.inr (.inr ⟨nested, found⟩))
    (.inr (.inr ⟨more, replaced⟩)) ?_ ?_
  · intro key other
    rw [Fields.find?_insert, if_neg other]
  · intro key given
    rw [nested?_of_mapping replaced, nested?_of_mapping found]
    exact same key given

end Declaration

/-- Settings nested under `metadata` are another form of writing a job. The job is read as its flat
form is, with the same reports, and without `metadata` where nothing is nested. An entry that the
job itself gives is found as it stands, and what is nested under the same key is never looked at.
-/
theorem JobDeclaration.nested_read_as_flat {fields : Fields} (ordered : (mapping fields).Ordered)
    : (∀ nested : Fields,
        fields.find? "metadata" = some (.mapping nested)
        → nested.find? "metadata" = none → nested.find? syncedFilesSynonym = none
        → ofValue (.mapping (flatForm fields nested)) = ofValue (.mapping fields))
      ∧ (fields.find? "metadata" = some .null ∨ fields.find? "metadata" = some (.mapping [])
        → ofValue (.mapping (fields.erase "metadata")) = ofValue (.mapping fields))
      ∧ (∀ flat key value,
          flatten fields = .ok flat → own? key fields = some value
          → flat.find? key = some value)
      ∧ ∀ nested more : Fields,
          fields.find? "metadata" = some (.mapping nested)
          → (∀ key, own? key fields = none → more.find? key = nested.find? key)
          → ofValue (.mapping (fields.insert "metadata" (.mapping more)))
            = ofValue (.mapping fields) := by
  refine ⟨?_, ?_, ?_, ?_⟩
  · intro nested found flat plain
    exact ofFields_congr (flatten_flatForm ordered found flat plain)
  · intro empty
    exact ofFields_congr (flatten_erase_metadata ordered.ascending empty)
  · intro flat key value step given
    rw [find?_flat step, ← own?, given, Option.some_or]
  · intro nested more found same
    exact ofFields_congr (flatten_insert_metadata ordered.ascending found same)

/-- A job that nests its trigger, a setting and a key that nobody reads, beside values for keys that
it gives itself: the files to copy under their other spelling, and null.
-/
theorem JobDeclaration.nested_read_as_flat_beside_own
    : let nested : Fields :=
        [("create_pr", .boolean false), ("notes", .integer 1),
          ("synced_files", .list [.text "b"]), ("timeout", .integer 60),
          ("trigger", .text "commit")]
      let fields : Fields :=
        [("create_pr", .null), ("files_to_sync", .list [.text "a"]), ("job", .text "tests"),
          ("metadata", .mapping nested)]
      let flat : Fields :=
        [("create_pr", .null), ("files_to_sync", .list [.text "a"]), ("job", .text "tests"),
          ("notes", .integer 1), ("timeout", .integer 60), ("trigger", .text "commit")]
      (mapping fields).Ordered
      ∧ ofValue (.mapping flat) = ofValue (.mapping fields)
      ∧ (ofValue (.mapping fields)).outcome
        = .ok {
            type := .tests
            trigger := .commit
            metadata := { timeout := 60 }
            overrides := { syncedFiles := some ⟨[.ofPath "a"]⟩ } } := by
  intro nested fields flat
  have ordered : (mapping fields).Ordered := by decide
  have form : flatForm fields nested = flat := by decide
  have read := (nested_read_as_flat ordered).1 nested (by decide) (by decide) (by decide)
  exact ⟨ordered, form ▸ read, by decide⟩

end Packaging
