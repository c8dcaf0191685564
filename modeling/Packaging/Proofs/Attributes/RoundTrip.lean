import Packaging.Proofs.Attributes.Encoding

/-! Attributes that survive being written and read. They are settled: no attribute holds an empty
value that reading would replace.
-/

namespace Packaging

open Value

-----------------------------------------------------------------------------------------
-- Settled attributes
-----------------------------------------------------------------------------------------

namespace Attribute

/-- Settled data stays as it is when it is given again. -/
theorem settle_settle (a : Attribute) (data : a.kind.Data)
    : a.settle (a.settle data) = a.settle data := by
  -- The three that are never left empty are settled alike, and all others at once.
  have again {α : Type} [DecidableEq α] (empty fallback given : α) (filled : fallback ≠ empty)
      : (if (if given = empty then fallback else given) = empty then fallback
          else if given = empty then fallback else given)
        = if given = empty then fallback else given := by
    by_cases missing : given = empty <;> simp [missing, filled]
  cases a with
  | distGitNamespace => exact again "" defaultNamespace data (by decide)
  | distGitBaseUrl => exact again "" productionUrl data (by decide)
  | versionCommand => exact again [] defaultVersionCommand data (by decide)
  | _ => rfl

end Attribute

namespace Attributes

/-- No attribute holds data that would become something else if it were given again. -/
def Settled (x : Attributes) : Prop :=
  ∀ (a : Attribute) (data : a.kind.Data), a.value x = some data → a.settle data = data

/-- Attributes are settled just when the three that are never left empty have a content. -/
theorem settled_iff {x : Attributes}
    : x.Settled
      ↔ x.distGitNamespace ≠ "" ∧ x.distGitBaseUrl ≠ "" ∧ x.versionCommand ≠ [] := by
  have kept {α : Type} [DecidableEq α] {empty fallback data : α} (filled : fallback ≠ empty)
      : (if data = empty then fallback else data) = data ↔ data ≠ empty := by
    by_cases missing : data = empty <;> simp [missing, filled]
  constructor
  · intro settled
    exact ⟨(kept (by decide)).mp (settled .distGitNamespace _ rfl),
      (kept (by decide)).mp (settled .distGitBaseUrl _ rfl),
      (kept (by decide)).mp (settled .versionCommand _ rfl)⟩
  · intro filled a data held
    obtain ⟨namespaceFilled, baseUrlFilled, commandFilled⟩ := filled
    cases a with
    | distGitNamespace =>
        cases held
        exact if_neg namespaceFilled
    | distGitBaseUrl =>
        cases held
        exact if_neg baseUrlFilled
    | versionCommand =>
        cases held
        exact if_neg commandFilled
    | _ => rfl

theorem settled_default
    : Settled {} :=
  settled_iff.mpr (by decide)

/-- Overrides keep attributes settled, since what they give is settled on the way. -/
theorem Settled.overlay {x : Attributes} (settled : x.Settled) (o : Overrides)
    : (x.overlay o).Settled := by
  intro a data held
  rw [Attribute.value_overlay] at held
  cases given : a.given o with
  | none => exact settled a data (by simpa [given] using held)
  | some content =>
      have same : a.settle content = data := by simpa [given] using held
      rw [← same, a.settle_settle]

theorem settled_ofOverrides (o : Overrides)
    : (ofOverrides o).Settled :=
  settled_default.overlay o

/-- Attributes that have none of the data which `x` does not have. -/
def Below (x inherited : Attributes) : Prop :=
  ∀ a : Attribute, a.value x = none → a.value inherited = none

/-- Only optional attributes may have no data, and the defaults have none for them. -/
theorem below_default (x : Attributes)
    : x.Below {} := by
  intro a missing
  cases a <;> first | rfl | cases missing

/-- Overlaid attributes have whatever the inherited ones have: an attribute can be replaced but
not removed.
-/
theorem below_overlay (inherited : Attributes) (o : Overrides)
    : (inherited.overlay o).Below inherited := by
  intro a missing
  rw [Attribute.value_overlay] at missing
  exact (Option.or_eq_none_iff.mp missing).2

/-- The attributes as if each of them were given. -/
def asOverrides (x : Attributes) : Overrides where
  specfilePath := x.specfilePath
  syncedFiles := some x.syncedFiles
  distGitNamespace := some x.distGitNamespace
  projectUrl := x.projectUrl
  projectName := x.projectName
  downstreamUrl := x.downstreamUrl
  downstreamName := x.downstreamName
  distGitBaseUrl := some x.distGitBaseUrl
  tarballCommand := x.tarballCommand
  versionCommand := some x.versionCommand
  actions := some x.actions
  projectRef := x.projectRef
  gpgKeys := x.gpgKeys
  createPullRequest := some x.createPullRequest
  specSourceId := some x.specSourceId
  tagTemplate := some x.tagTemplate
  patchIgnorePaths := some x.patchIgnorePaths
  notifications := some x.notifications

theorem given_asOverrides (x : Attributes) (a : Attribute)
    : a.given x.asOverrides = a.value x := by
  cases a <;> rfl

/-- Settled attributes laid over others are unchanged when they lack nothing that the others
have. Only a derived URL is dropped.
-/
theorem overlay_asOverrides {x inherited : Attributes} (settled : x.Settled)
    (below : x.Below inherited) (fresh : x.derivedUrl = none)
    : inherited.overlay x.asOverrides = x := by
  refine Attribute.attributes_ext ?_ fresh.symm
  intro a
  rw [Attribute.value_overlay, given_asOverrides]
  cases held : a.value x with
  | none => simp [below a held]
  | some data => simp [settled a data held]

end Attributes

-----------------------------------------------------------------------------------------
-- Reading what was written
-----------------------------------------------------------------------------------------

namespace Attribute

theorem sorted_ne_null {value : Value} (given : value ≠ .null)
    : value.sorted ≠ .null := by
  cases value <;> simp [Value.sorted] at given ⊢

/-- Data that is written and sorted is read as given data. -/
theorem optional_decode_sorted_encode (kind : DataKind) (data : kind.Data)
    : Decoder.optional kind.decode (kind.encode data).sorted = .ok (some data) := by
  have decoded := kind.decode_sorted_encode data
  have given := sorted_ne_null (kind.encode_ne_null data)
  unfold Decoder.optional
  split
  · next null => exact absurd null given
  · rw [decoded]
    rfl

/-- Entries are read as the overrides that give `x` when the written attributes of `x` are found
among them, and no other attributes.
-/
theorem record_of_written {x : Attributes} {fields : Fields} (distinct : fields.keys.Nodup)
    (found
      : ∀ a : Attribute,
          fields.find? a.key = (a.value x).map fun data => (a.kind.encode data).sorted)
    : Declaration.record Overrides.reader fields = .ok x.asOverrides := by
  apply (parts.record_eq_ok_iff distinct).mpr
  intro a
  have held := found a
  have given := Attributes.given_asOverrides x a
  cases same : a.value x with
  | none =>
      rw [same] at held given
      exact (parts.told_of_missing held).mpr (given.trans a.given_start.symm)
  | some data =>
      rw [same] at held given
      refine (parts.told_of_found held).mpr ?_
      exact (optional_decode_sorted_encode a.kind data).trans (congrArg Except.ok given.symm)

end Attribute

end Packaging
