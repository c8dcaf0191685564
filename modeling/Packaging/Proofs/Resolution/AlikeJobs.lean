import Packaging.Proofs.Declarations.Recognized
import Packaging.Proofs.Resolution.Stages

/-! Documents whose jobs are read alike. How a document resolves depends on its jobs only through
what each of them declares, or the error with which it fails.
-/

namespace Packaging

open Declaration Value

namespace Job

variable {inherited : Attributes}

/-- Values that are read alike one by one resolve to the same jobs, or fail at the same place with
the same error. By induction over them.
-/
theorem outcome_resolveAll_congr {raws others : List Value}
    (alike : List.Forall₂ JobDeclaration.ReadAlike raws others) (index : Nat)
    : (resolveAll inherited index others).outcome = (resolveAll inherited index raws).outcome := by
  induction alike generalizing index with
  | nil => rfl
  | @cons raw other raws others head rest ih =>
      have first : (resolve inherited other).outcome = (resolve inherited raw).outcome := by
        rw [resolve, Traced.outcome_bind, head, resolve, Traced.outcome_bind]
      simp only [resolveAll, Traced.outcome_bind, Traced.outcome_mapError, first, ih]

end Job

namespace Hints

variable {hints : Hints} {fields left right : Fields}

/-- What is injected leaves the jobs of packages alike. -/
theorem alike_inject (alike : PackageDeclaration.AlikeJobs left right)
    : PackageDeclaration.AlikeJobs (hints.inject left) (hints.inject right) where
  others key known other := by
    by_cases path : key = "config_file_path"
    · rw [path, find?_inject, find?_inject, alike.others _ (by decide) (by decide)]
    · rw [find?_inject_of_ne _ path, find?_inject_of_ne _ path, alike.others key known other]
  part := by
    rw [find?_inject_of_ne _ (by decide), find?_inject_of_ne _ (by decide)]
    exact alike.part

/-- How building a package ends, its reports aside. -/
theorem outcome_build (fields : Fields)
    : (hints.build fields).outcome
      = (PackageDeclaration.ofFields fields).outcome >>= fun declared =>
          hints.fillSpec (.ofOverrides declared.overrides) >>= fun x =>
          (Job.resolveAll (hints.fillNames x) 0 (declared.jobs.getD defaultJobs)).outcome
            >>= fun jobs =>
          .ok ⟨declared.configPath, hints.fillNames x, jobs⟩ := by
  simp only [build, Traced.outcome_bind, Traced.outcome_liftM, Traced.outcome_pure]

/-- From mappings whose jobs are read alike the same package is built, or building fails with the
same error.
-/
theorem outcome_build_congr (leftAscending : left.Ascending) (rightAscending : right.Ascending)
    (alike : PackageDeclaration.AlikeJobs left right)
    : (hints.build (hints.inject right)).outcome = (hints.build (hints.inject left)).outcome := by
  rw [outcome_build, outcome_build]
  refine (EndAlike.eq ?_).symm
  refine (PackageDeclaration.endAlike_ofFields (hints.ascending_inject leftAscending)
    (hints.ascending_inject rightAscending) (alike_inject alike)).bind ?_
  intro declared other _ _ same
  have jobs
      : List.Forall₂ JobDeclaration.ReadAlike (declared.jobs.getD defaultJobs)
          (other.jobs.getD defaultJobs) := by
    have related := same.jobs
    generalize declared.jobs = raws at related
    generalize other.jobs = others at related
    cases related with
    | none => exact List.forall₂_same.mpr fun raw _ => .refl raw
    | some each => exact each
  simp only [same.configPath, same.overrides, Job.outcome_resolveAll_congr jobs]
  exact .refl _

/-- How a refused document ends does not depend on the document. -/
theorem outcome_refuse_congr (document other : Value) (error : Error)
    : (refuse other error).outcome = (refuse document error).outcome := by
  cases error <;> rfl

/-- Mappings from which the same is built resolve to the same. -/
theorem outcome_resolve_of_build
    (built : (hints.build (hints.inject right)).outcome = (hints.build (hints.inject left)).outcome)
    : (hints.resolve (.mapping right)).outcome = (hints.resolve (.mapping left)).outcome := by
  rw [resolve_mapping, resolve_mapping]
  cases first : (hints.build (hints.inject left)).outcome with
  | ok package =>
      rw [first] at built
      rw [Traced.tryCatch_of_ok _ first, Traced.tryCatch_of_ok _ built, first, built]
  | error error =>
      rw [first] at built
      rw [Traced.outcome_tryCatch_of_error _ first, Traced.outcome_tryCatch_of_error _ built]
      exact outcome_refuse_congr _ _ error

/-- Mappings whose jobs are read alike resolve to the same package, or fail with the same error. -/
theorem outcome_resolve_of_alikeJobs (leftAscending : left.Ascending)
    (rightAscending : right.Ascending) (alike : PackageDeclaration.AlikeJobs left right)
    : (hints.resolve (.mapping right)).outcome = (hints.resolve (.mapping left)).outcome :=
  outcome_resolve_of_build (hints.outcome_build_congr leftAscending rightAscending alike)

end Hints

-----------------------------------------------------------------------------------------
-- One job in the place of another
-----------------------------------------------------------------------------------------

/-- A mapping with another value in the place of one of the jobs that it lists. -/
def Declaration.withJob (fields : Fields) (raws : List Value) (index : Nat) (raw : Value)
    : Fields :=
  fields.insert "jobs" (.list (raws.set index raw))

variable {fields : Fields} {raws : List Value} {index : Nat} {raw other : Value}

/-- The job that is listed already changes nothing. -/
theorem Declaration.withJob_of_listed (ascending : fields.Ascending)
    (listed : fields.find? "jobs" = some (.list raws)) (here : raws[index]? = some raw)
    : withJob fields raws index raw = fields := by
  obtain ⟨inside, found⟩ := List.getElem?_eq_some_iff.mp here
  rw [withJob, ← found, List.set_getElem_self, ascending.insert_of_find? listed]

theorem Value.Ordered.withJob (ordered : (mapping fields).Ordered)
    (listed : fields.find? "jobs" = some (.list raws)) (given : raw.Ordered)
    : (mapping (withJob fields raws index raw)).Ordered := by
  refine ordered.insert ?_ "jobs"
  have items := ordered_list_iff.mp (ordered.of_find? listed)
  rw [ordered_list_iff]
  intro item member
  rcases List.mem_or_eq_of_mem_set member with kept | replaced
  · exact items item kept
  · exact replaced ▸ given

/-- A job in the place of another one that is read alike leaves how a document resolves. -/
theorem Hints.outcome_resolve_withJob {hints : Hints} (ascending : fields.Ascending)
    (alike : JobDeclaration.ReadAlike raw other)
    : (hints.resolve (.mapping (withJob fields raws index other))).outcome
      = (hints.resolve (.mapping (withJob fields raws index raw))).outcome := by
  have each
      : List.Forall₂ JobDeclaration.ReadAlike (raws.set index raw) (raws.set index other) := by
    refine List.forall₂_iff_get.mpr ⟨by simp, ?_⟩
    intro place inside insideToo
    simp only [List.get_eq_getElem, List.getElem_set]
    split
    · exact alike
    · exact .refl _
  refine outcome_resolve_of_alikeJobs (ascending.insert _ _) (ascending.insert _ _)
    { others := ?_, part := ?_ }
  · intro key _ differs
    rw [withJob, withJob, Fields.find?_insert, if_neg differs, Fields.find?_insert,
      if_neg differs]
  · rw [withJob, withJob, Fields.find?_insert, if_pos rfl, Fields.find?_insert, if_pos rfl]
    exact .some (.list each)

end Packaging
