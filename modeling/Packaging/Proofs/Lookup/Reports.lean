import Packaging.Proofs.Lookup.Malformed

/-! Failures to parse and the events that tell them. A run that ends with such a failure tells it
once, with the document and the error that it is about, and any other run tells none.
-/

namespace Packaging

open Declaration

-----------------------------------------------------------------------------------------
-- Events that tell failures
-----------------------------------------------------------------------------------------

/-- Whether an event tells that a configuration could not be parsed or not even be loaded. -/
def Event.tellsFailure (event : Event) : Bool :=
  event.level = .error
  ∧ (event.message = "Cannot parse package config"
    ∨ event.message = "Cannot load package config")

/-- The events that tell failures, in order. -/
def failures (events : List Event) : List Event :=
  events.filter Event.tellsFailure

/-- How many failures to parse an outcome is: one or none. -/
def parseFailures {α : Type} : Except Error α → Nat
  | .error (.unparsable _) => 1
  | _ => 0

/-- An event tells no failure. -/
def Harmless (event : Event) : Prop :=
  event.tellsFailure = false

theorem failures_append (first second : List Event)
    : failures (first ++ second) = failures first ++ failures second :=
  List.filter_append ..

theorem failures_of_leaves {α : Type} {run : Reported α} (quiet : run.Leaves Harmless)
    : failures run.trace = [] :=
  List.filter_eq_nil_iff.mpr fun event member => by simp [show _ = _ from quiet event member]

/-- A run that ends with a failure to parse tells one failure, and `tells` relates the event to what
was wrong. Any other run tells no failure.
-/
inductive ToldOnce {α : Type} (tells : Event → Error → Prop) (run : Reported α) : Prop
  | silent (quiet : failures run.trace = [])
      (other : ∀ cause, run.outcome ≠ .error (.unparsable cause))
  | told {event : Event} {cause : Error} (one : failures run.trace = [event])
      (failed : run.outcome = .error (.unparsable cause)) (about : tells event cause)

namespace ToldOnce

variable {α β : Type} {tells more : Event → Error → Prop} {run : Reported α}

theorem length_failures (once : ToldOnce tells run)
    : (failures run.trace).length = parseFailures run.outcome := by
  cases once with
  | told one failed about => rw [one, failed, parseFailures, List.length_singleton]
  | silent quiet other =>
      rw [quiet, List.length_nil]
      unfold parseFailures
      split
      · next cause failed => exact absurd failed (other cause)
      · rfl

theorem exists_event (once : ToldOnce tells run) {cause : Error}
    (failed : run.outcome = .error (.unparsable cause))
    : ∃ event, failures run.trace = [event] ∧ tells event cause := by
  cases once with
  | silent quiet other => exact absurd failed (other cause)
  | told one again about =>
      rw [failed] at again
      obtain rfl := Error.unparsable.inj (Except.error.inj again)
      exact ⟨_, one, about⟩

theorem mono (once : ToldOnce tells run)
    (weaker : ∀ event cause, tells event cause → more event cause)
    : ToldOnce more run := by
  cases once with
  | silent quiet other => exact .silent quiet other
  | told one failed about => exact .told one failed (weaker _ _ about)

theorem of_leaves (quiet : run.Leaves Harmless)
    (other : ∀ cause, run.outcome ≠ .error (.unparsable cause))
    : ToldOnce tells run :=
  .silent (failures_of_leaves quiet) other

theorem pure (value : α)
    : ToldOnce tells (Pure.pure value) :=
  of_leaves (Traced.leaves_pure _) fun _ failed => by cases failed

theorem throw {error : Error} (other : ∀ cause, error ≠ .unparsable cause)
    : ToldOnce tells (MonadExcept.throw error : Reported α) :=
  of_leaves (Traced.leaves_throw _) fun cause failed => other cause (Except.error.inj failed)

/-- What follows a run that tells its failure is made only when there is none. -/
theorem bind (once : ToldOnce tells run) {next : α → Reported β}
    (later : ∀ value, run.outcome = .ok value → ToldOnce tells (next value))
    : ToldOnce tells (run >>= next) := by
  cases found : run.outcome with
  | error error =>
      rw [Traced.bind_of_error next found]
      cases once with
      | silent quiet other =>
          refine .silent quiet fun cause same => other cause ?_
          rw [found]
          exact congrArg Except.error (Except.error.inj same)
      | told one failed about =>
          rw [found] at failed
          exact .told one (congrArg Except.error (Except.error.inj failed)) about
  | ok value =>
      have before : failures run.trace = [] := by
        cases once with
        | silent quiet other => exact quiet
        | told one failed about => cases found.symm.trans failed
      rw [Traced.bind_of_ok next found]
      cases later value found with
      | silent quiet other => exact .silent (by rw [failures_append, before, quiet]; rfl) other
      | told one failed about =>
          exact .told (by rw [failures_append, before, one]; rfl) failed about

end ToldOnce

-----------------------------------------------------------------------------------------
-- Resolution
-----------------------------------------------------------------------------------------

theorem leaves_reportUnknown (scope : Scope) (fields : Fields)
    : (reportUnknown scope fields).Leaves Harmless := by
  unfold reportUnknown
  split
  · exact Traced.leaves_pure _
  · exact Traced.leaves_note rfl

theorem PackageDeclaration.leaves_ofFields (fields : Fields)
    : (ofFields fields).Leaves Harmless := by
  refine (Traced.leaves_liftM _).bind fun _ _ => (Traced.leaves_liftM _).bind fun _ _ => ?_
  refine (Traced.leaves_liftM _).bind fun _ _ => (leaves_reportUnknown _ _).bind fun _ _ => ?_
  exact (Traced.leaves_liftM _).bind fun _ _ => Traced.leaves_pure _

theorem JobDeclaration.leaves_ofValue (raw : Value)
    : (ofValue raw).Leaves Harmless := by
  cases raw with
  | mapping fields =>
      refine (Traced.leaves_liftM _).bind fun _ _ => (Traced.leaves_liftM _).bind fun _ _ => ?_
      refine (Traced.leaves_liftM _).bind fun _ _ => (Traced.leaves_liftM _).bind fun _ _ => ?_
      refine (Traced.leaves_liftM _).bind fun _ _ => (leaves_reportUnknown _ _).bind fun _ _ => ?_
      exact (Traced.leaves_liftM _).bind fun _ _ => Traced.leaves_pure _
  | _ => exact Traced.leaves_throw _

/-- Jobs tell no failure, by induction over the values that declare them. -/
theorem Job.leaves_resolveAll (inherited : Attributes) (index : Nat) (raws : List Value)
    : (resolveAll inherited index raws).Leaves Harmless := by
  induction raws generalizing index with
  | nil => exact Traced.leaves_pure _
  | cons raw rest ih =>
      have own : (Job.resolve inherited raw).Leaves Harmless :=
        (JobDeclaration.leaves_ofValue raw).bind fun _ _ => Traced.leaves_pure _
      exact (own.mapError _).bind fun _ _ => (ih _).bind fun _ _ => Traced.leaves_pure _

namespace Hints

variable {hints : Hints}

/-- A document with the path of its file filled in, where it is a mapping. -/
def injected (hints : Hints) : Value → Value
  | .mapping fields => .mapping (hints.inject fields)
  | document => document

theorem leaves_build (hints : Hints) (fields : Fields)
    : (hints.build fields).Leaves Harmless := by
  refine (PackageDeclaration.leaves_ofFields fields).bind fun _ _ => ?_
  refine (Traced.leaves_liftM _).bind fun _ _ => ?_
  exact (Job.leaves_resolveAll _ _ _).bind fun _ _ => Traced.leaves_pure _

/-- A package that is not built lacks a spec file or has an invalid value. -/
theorem error_of_build {fields : Fields} {error : Error}
    (failed : (hints.build fields).outcome = .error error)
    : error = .missingSpecFile ∨ ∃ key fault, error = .invalid key fault := by
  rcases outcome_build_eq_error_iff.mp failed with read | ⟨declared, _, spec | ⟨x, _, jobs⟩⟩
  · obtain ⟨key, fault, _, told⟩ := PackageDeclaration.field_of_outcome_eq_error read
    exact .inr ⟨key, fault, told⟩
  · exact .inl (fillSpec_eq_error_iff.mp spec).2.2
  · obtain ⟨_, _, _, _, _, _, _, _, _, told⟩ := Job.field_of_resolveAll_eq_error jobs
    exact .inr ⟨_, _, told⟩

/-- A refused document is told together with the error that is wrapped. -/
theorem toldOnce_resolve (hints : Hints) (document : Value)
    : ToldOnce (fun event cause => event = .unparsable (hints.injected document) cause)
        (hints.resolve document) := by
  cases document with
  | mapping fields =>
      have quiet := leaves_build hints (hints.inject fields)
      rw [resolve_mapping]
      cases built : (hints.build (hints.inject fields)).outcome with
      | ok package =>
          rw [Traced.tryCatch_of_ok _ built]
          exact .of_leaves quiet (by simp [built])
      | error error =>
          rw [Traced.tryCatch_of_error _ built]
          rcases error_of_build built with rfl | ⟨key, fault, rfl⟩
          · refine .silent ?_ nofun
            rw [failures_append, failures_of_leaves quiet]
            rfl
          · refine .told ?_ rfl rfl
            rw [failures_append, failures_of_leaves quiet]
            rfl
  | _ => exact .told rfl rfl rfl

end Hints

-----------------------------------------------------------------------------------------
-- Directories
-----------------------------------------------------------------------------------------

namespace Locator

variable {locator : Locator} {fs : FileSystem}

/-- What the event for a failure tells, and what was wrong: the file that decides could not be
loaded, or its document could not be parsed with what is known about it.
-/
inductive Tells (locator : Locator) (fs : FileSystem) : Event → Error → Prop
  | unloadable {directories : List Path} {candidate : Path × ConfigName} {error : FileError}
      (order : (locator.searchOrder fs).outcome = .ok directories)
      (first : first? fs directories = some candidate)
      (failed : fs.load (candidatePath candidate) = .error error)
    : Tells locator fs (.unloadable (.path (candidatePath candidate))) (.file error)
  | unparsable {directories : List Path} {candidate : Path × ConfigName} {document : Value}
      {spec : Option Path} {cause : Error}
      (order : (locator.searchOrder fs).outcome = .ok directories)
      (first : first? fs directories = some candidate)
      (loaded : fs.load (candidatePath candidate) = .ok document)
      (found : SpecFile.find? fs directories = .ok spec)
    : Tells locator fs
        (.unparsable ((locator.hints spec candidate.2).injected document) cause) cause

/-- The search for the working directory is no failure to parse, and neither are two wishes. -/
theorem toldOnce_searchOrder (tells : Event → Error → Prop)
    : ToldOnce tells (locator.searchOrder fs) := by
  refine .of_leaves ?_ ?_
  · unfold searchOrder
    split
    · exact Traced.leaves_pure _
    · dsimp only
      split
      · exact (Traced.leaves_note (show Harmless .ambiguousOrder from rfl)).bind fun _ _ =>
          (Traced.leaves_liftM _).bind fun _ _ => Traced.leaves_pure _
      · exact (Traced.leaves_liftM _).bind fun _ _ => Traced.leaves_pure _
  · intro cause failed
    cases error_of_searchOrder failed

/-- A directory that cannot be listed is no failure to parse. -/
theorem toldOnce_specFile (tells : Event → Error → Prop) (fs : FileSystem)
    (directories : List Path)
    : ToldOnce tells (liftM (specFile fs directories) : Reported (Option Path)) := by
  unfold specFile
  cases SpecFile.find? fs directories with
  | ok spec => exact .pure spec
  | error error => exact .throw (by simp)

theorem toldOnce_load (fs : FileSystem) (path : Path)
    : ToldOnce
        (fun event cause =>
          event = .unloadable (.path path)
          ∧ ∃ error, fs.load path = .error error ∧ cause = .file error)
        (load fs path) := by
  unfold load
  cases loaded : fs.load path with
  | ok document => exact .pure _
  | error error => exact .told rfl rfl ⟨rfl, error, rfl, rfl⟩

theorem toldOnce_locate (locator : Locator) (fs : FileSystem)
    : ToldOnce (locator.Tells fs) (locator.locate fs) := by
  refine (toldOnce_searchOrder _).bind fun directories order => ?_
  dsimp only
  cases first : first? fs directories with
  | none => exact .throw (by simp)
  | some candidate =>
      have loading : ToldOnce (locator.Tells fs) (load fs (candidatePath candidate)) := by
        refine (toldOnce_load fs _).mono fun event cause about => ?_
        obtain ⟨rfl, error, failed, rfl⟩ := about
        exact .unloadable order first failed
      refine loading.bind fun document loaded => ?_
      have read : fs.load (candidatePath candidate) = .ok document := by
        unfold load at loaded
        split at loaded
        · next same => exact same.trans (congrArg Except.ok (Except.ok.inj loaded))
        · cases loaded
      refine (toldOnce_specFile _ fs directories).bind fun spec searched => ?_
      have found : SpecFile.find? fs directories = .ok spec := by
        rw [Traced.outcome_liftM, specFile] at searched
        cases same : SpecFile.find? fs directories with
        | ok path => simpa [same, Except.mapError] using searched
        | error error => simp [same, Except.mapError] at searched
      refine (Hints.toldOnce_resolve _ document).mono fun event cause about => ?_
      exact about ▸ .unparsable order first read found

end Locator

-----------------------------------------------------------------------------------------
-- Projects
-----------------------------------------------------------------------------------------

/-- The events of a run that asks others. -/
def Traced.told {Q ε α : Type} (run : Traced (Step Q) ε α) : Traced Event ε α :=
  ⟨Step.events run.trace, run.outcome⟩

theorem Traced.outcome_told {Q ε α : Type} (run : Traced (Step Q) ε α)
    : run.told.outcome = run.outcome :=
  rfl

/-- The events of a sequence are those of its parts in sequence. -/
theorem Traced.told_bind {Q ε α β : Type} (first : Traced (Step Q) ε α)
    (next : α → Traced (Step Q) ε β)
    : (first >>= next).told = first.told >>= fun value => (next value).told := by
  cases found : first.outcome with
  | error error =>
      have failed : first.told.outcome = .error error := found
      rw [bind_of_error next found, bind_of_error _ failed]
      rfl
  | ok value =>
      have succeeded : first.told.outcome = .ok value := found
      rw [bind_of_ok next found, bind_of_ok _ succeeded]
      simp only [told, Step.events, List.filterMap_append]

theorem Traced.told_mapTrace {Q ε α : Type} (run : Traced Event ε α)
    : (run.mapTrace (Step.reported : Event → Step Q)).told = run := by
  simp [told, mapTrace, Step.events, List.filterMap_map]

namespace Project

variable {project : Project} {reference : String}

/-- What the event for a failure tells, and what was wrong: the first text was malformed, or its
document could not be parsed with what is known about it.
-/
inductive Tells (project : Project) (reference : String) : Event → Error → Prop
  | unloadable {name : ConfigName} {text : String}
      (first : (project.firstContent reference ConfigName.all).outcome = .ok (some (name, text)))
      (malformed : name.format.read? text = none)
    : Tells project reference (.unloadable (.file name.label))
        (.file (.malformed name.format (.ofString name.label)))
  | unparsable {name : ConfigName} {text : String} {document : Value} {spec : Option String}
      {cause : Error}
      (first : (project.firstContent reference ConfigName.all).outcome = .ok (some (name, text)))
      (read : name.format.read? text = some document)
      (listed : (project.specFile (some reference)).outcome = .ok spec)
    : Tells project reference
        (.unparsable ((project.hints name spec).injected document) cause) cause

/-- A failure of the project itself is no failure to parse. By induction over the names. -/
theorem toldOnce_firstContent (tells : Event → Error → Prop) (names : List ConfigName)
    : ToldOnce tells (project.firstContent reference names).told := by
  induction names with
  | nil => exact .pure _
  | cons name rest ih =>
      rw [firstContent, Traced.told_bind]
      -- A question is no event, and its answer is no failure of the run.
      have asked : ToldOnce tells (project.askContent name.label reference).told :=
        .pure (project.content name.label reference)
      refine asked.bind fun answer _ => ?_
      cases answer with
      | ok content => exact .pure _
      | error error =>
          dsimp only
          split
          · exact ih
          · exact .throw (by simp)

theorem toldOnce_document (name : ConfigName) (text : String)
    : ToldOnce
        (fun event cause =>
          event = .unloadable (.file name.label)
          ∧ name.format.read? text = none
          ∧ cause = .file (.malformed name.format (.ofString name.label)))
        (document name text).told := by
  unfold document
  dsimp only
  rw [read_label, Format.read]
  cases read : name.format.read? text with
  | some value => exact .pure _
  | none => exact .told rfl rfl ⟨rfl, rfl, rfl⟩

theorem toldOnce_specFile (tells : Event → Error → Prop)
    : ToldOnce tells (project.specFile (some reference)).told := by
  rw [specFile, Traced.told_bind]
  have asked : (project.askFiles (some reference) (some .specFile)).told.Leaves Harmless :=
    fun _ member => by cases member
  refine (ToldOnce.of_leaves asked ?_).bind fun paths _ => .pure _
  intro cause failed
  have told
      : (project.files (some reference) (some .specFile)).mapError Error.git
        = .error (Error.unparsable cause) :=
    failed
  cases answer : project.files (some reference) (some .specFile) <;>
    simp [answer, Except.mapError] at told

theorem toldOnce_package (project : Project) (reference : String)
    : ToldOnce (project.Tells reference) (project.package reference).told := by
  rw [package, Traced.told_bind]
  refine (toldOnce_firstContent _ _).bind fun found first => ?_
  cases found with
  | none =>
      have noted : Harmless
          (.noConfig (ConfigName.all.map (·.label)) reference project.fullName) := rfl
      exact (ToldOnce.of_leaves (Traced.leaves_note noted) fun _ failed => by cases failed).bind
        fun _ _ => .pure none
  | some decided =>
      obtain ⟨name, text⟩ := decided
      dsimp only
      rw [Traced.told_bind]
      have reading : ToldOnce (project.Tells reference) (document name text).told := by
        refine (toldOnce_document name text).mono fun event cause about => ?_
        obtain ⟨rfl, malformed, rfl⟩ := about
        exact .unloadable first malformed
      refine reading.bind fun value read => ?_
      rw [Traced.told_bind]
      refine (toldOnce_specFile _).bind fun spec listed => ?_
      have parsed : name.format.read? text = some value := by
        rw [Traced.outcome_told, outcome_document] at read
        split at read
        · next same => exact same.trans (congrArg some (Except.ok.inj read))
        · cases read
      rw [Traced.told_bind, Traced.told_mapTrace]
      refine ToldOnce.bind ((Hints.toldOnce_resolve _ value).mono fun event cause about => ?_)
        fun package _ => .pure _
      exact about ▸ .unparsable first parsed listed

end Project

/-- A failure to parse is told once. When the resolution of a document, a lookup in directories or
one in a project ends with such a failure, exactly one event of an error tells that a configuration
could not be parsed or loaded, and otherwise none does. The event of a resolution tells the document
with the path of its file filled in, as it was resolved, and the error that the failure wraps. That
of a lookup tells the same of the document that was found, or else the place of the file that could
not be loaded.
-/
theorem failures_told_once (hints : Hints) (document : Value) (locator : Locator)
    (fs : FileSystem) (project : Project) (reference : String)
    : let resolved := hints.resolve document
      let located := locator.locate fs
      let kept := project.package reference
      ((failures resolved.trace).length = parseFailures resolved.outcome
        ∧ ∀ cause,
            resolved.outcome = .error (.unparsable cause)
            → failures resolved.trace = [.unparsable (hints.injected document) cause])
      ∧ ((failures located.trace).length = parseFailures located.outcome
        ∧ ∀ cause,
            located.outcome = .error (.unparsable cause)
            → ∃ event, failures located.trace = [event] ∧ locator.Tells fs event cause)
      ∧ (failures (Step.events kept.trace)).length = parseFailures kept.outcome
      ∧ ∀ cause,
          kept.outcome = .error (.unparsable cause)
          → ∃ event,
              failures (Step.events kept.trace) = [event]
              ∧ project.Tells reference event cause := by
  intro resolved located kept
  have first := hints.toldOnce_resolve document
  have second := locator.toldOnce_locate fs
  have third := project.toldOnce_package reference
  refine ⟨⟨first.length_failures, ?_⟩, ⟨second.length_failures, fun cause => second.exists_event⟩,
    third.length_failures, fun cause => third.exists_event⟩
  intro cause failed
  obtain ⟨event, one, rfl⟩ := first.exists_event failed
  exact one

end Packaging
