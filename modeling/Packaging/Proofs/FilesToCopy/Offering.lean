import Mathlib.Data.List.Nodup
import Packaging.Proofs.FilesToCopy.Appending
import Packaging.Proofs.Passing

/-! Lists of files after any calls that bring files. What a list held at first stays in front of it,
and a file that is offered is appended just when its source was neither there at first nor brought
by an earlier call.
-/

namespace Packaging.SyncedFiles

-----------------------------------------------------------------------------------------
-- One call
-----------------------------------------------------------------------------------------

/-- A call that brings a file. A pushed file is always appended, and an offered one if its source is
new.
-/
inductive Call where
  | push (file : SyncedFile)
  | offer (file : SyncedFile)
deriving DecidableEq

/-- The file that a call brings. -/
def Call.file : Call → SyncedFile
  | .push file | .offer file => file

/-- The list after a call, and what the call returns. A push returns nothing. -/
def call (synced : SyncedFiles) : Call → SyncedFiles × Option Bool
  | .push file => (synced.push file, none)
  | .offer file => ((synced.offer file).1, some (synced.offer file).2)

variable {synced : SyncedFiles} {file : SyncedFile}

theorem offer_of_mem (held : file.source ∈ synced.sources)
    : synced.offer file = (synced, false) := by
  rw [offer, if_pos (hasSource_iff.mpr held)]

theorem offer_of_notMem (fresh : file.source ∉ synced.sources)
    : synced.offer file = (synced.push file, true) := by
  rw [offer, if_neg (mt hasSource_iff.mp fresh)]

/-- The list after an offer, its answer aside, is the one that `pushNew` gives. -/
theorem fst_offer (synced : SyncedFiles) (file : SyncedFile)
    : (synced.offer file).1 = synced.pushNew file := by
  by_cases held : file.source ∈ synced.sources
  · rw [offer_of_mem held, pushNew_of_mem held]
  · rw [offer_of_notMem held, pushNew_of_notMem held]

/-- The answer to an offer tells whether its source was missing, and whether the list grew by just
its file.
-/
theorem offer_grows (synced : SyncedFiles) (file : SyncedFile)
    : ((synced.offer file).2 = true ↔ file.source ∉ synced.sources)
      ∧ (synced.offer file).1.files
        = synced.files ++ (if (synced.offer file).2 then [file] else []) := by
  by_cases held : file.source ∈ synced.sources
  · simp [offer_of_mem held, held]
  · simp [offer_of_notMem held, held, push]

/-- A call leaves the files that are there in front. -/
theorem prefix_call (synced : SyncedFiles) (next : Call)
    : synced.files <+: (synced.call next).1.files := by
  cases next with
  | push file => exact List.prefix_append _ _
  | offer file =>
      rw [call, (synced.offer_grows file).2]
      exact List.prefix_append _ _

/-- A call brings the source of its file and no other, whether or not the file is appended. -/
theorem mem_sources_call {source : String} (next : Call)
    : source ∈ (synced.call next).1.sources
      ↔ source ∈ synced.sources ∨ source = next.file.source := by
  cases next with
  | push file => simp [call, Call.file]
  | offer file =>
      by_cases held : file.source ∈ synced.sources
      · rw [call, offer_of_mem held]
        refine (or_iff_left_of_imp ?_).symm
        rintro rfl
        exact held
      · simp [call, offer_of_notMem held, Call.file]

-----------------------------------------------------------------------------------------
-- Calls one after the other
-----------------------------------------------------------------------------------------

/-- The list after calls one after the other, and what they return, each at its place. -/
def run (synced : SyncedFiles) : List Call → SyncedFiles × List (Option Bool)
  | [] => (synced, [])
  | next :: rest =>
    let (changed, returned) := synced.call next
    let (final, others) := changed.run rest
    (final, returned :: others)

theorem run_cons (synced : SyncedFiles) (next : Call) (rest : List Call)
    : synced.run (next :: rest)
      = (((synced.call next).1.run rest).1,
          (synced.call next).2 :: ((synced.call next).1.run rest).2) :=
  rfl

/-- Further calls go on with the list of those before them. By induction over those. -/
theorem run_append (synced : SyncedFiles) (before after : List Call)
    : synced.run (before ++ after)
      = (((synced.run before).1.run after).1,
          (synced.run before).2 ++ ((synced.run before).1.run after).2) := by
  induction before generalizing synced with
  | nil => rfl
  | cons next rest ih => simp only [List.cons_append, run_cons, ih]

/-- Every call returns once, by induction over the calls. -/
theorem length_run (synced : SyncedFiles) (calls : List Call)
    : (synced.run calls).2.length = calls.length := by
  induction calls generalizing synced with
  | nil => rfl
  | cons next rest ih => rw [run_cons, List.length_cons, List.length_cons, ih]

/-- The files at first stay in front, by induction over the calls. -/
theorem prefix_run (synced : SyncedFiles) (calls : List Call)
    : synced.files <+: (synced.run calls).1.files := by
  induction calls generalizing synced with
  | nil => exact List.prefix_refl _
  | cons next rest ih => exact (synced.prefix_call next).trans (ih _)

/-- The sources in the end are those at first and those that are brought. By induction over the
calls.
-/
theorem mem_sources_run {source : String} {calls : List Call}
    : source ∈ (synced.run calls).1.sources
      ↔ source ∈ synced.sources ∨ ∃ earlier ∈ calls, earlier.file.source = source := by
  induction calls generalizing synced with
  | nil => simp [run]
  | cons next rest ih =>
      rw [run_cons, ih, mem_sources_call, or_assoc, List.exists_mem_cons_iff, eq_comm]

/-- What a call returns in a run is what it returns to the list of the calls before it. -/
theorem getElem?_run (synced : SyncedFiles) (before : List Call) (next : Call) (after : List Call)
    : (synced.run (before ++ next :: after)).2[before.length]?
      = some ((synced.run before).1.call next).2 := by
  have place := synced.length_run before
  rw [run_append, List.getElem?_append_right (by omega), place, Nat.sub_self, run_cons]
  rfl

-----------------------------------------------------------------------------------------
-- Offers alone
-----------------------------------------------------------------------------------------

/-- The offered files whose source comes neither from a stored file nor from an earlier offered one.
-/
def firstNew (stored offered : List SyncedFile) : List SyncedFile :=
  passing (fun before file => decide (file.source ∉ before.map SyncedFile.source)) stored offered

/-- The list after offers, their answers aside, by induction over the offered files. -/
theorem run_offers (synced : SyncedFiles) (offered : List SyncedFile)
    : (synced.run (offered.map .offer)).1 = offered.foldl pushNew synced := by
  induction offered generalizing synced with
  | nil => rfl
  | cons file rest ih => rw [List.map_cons, run_cons, ih, call, fst_offer, List.foldl_cons]

/-- Offered files are appended just when they are the first ones of a new source. By induction over
them, with any earlier files that have the sources of the list. Not all of these have to be in it.
-/
theorem files_foldl_pushNew {earlier : List SyncedFile}
    (known : ∀ source, source ∈ earlier.map SyncedFile.source ↔ source ∈ synced.sources)
    (offered : List SyncedFile)
    : (offered.foldl pushNew synced).files = synced.files ++ firstNew earlier offered := by
  induction offered generalizing synced earlier with
  | nil => exact (List.append_nil _).symm
  | cons file rest ih =>
      have test
          : decide (file.source ∉ earlier.map SyncedFile.source)
            = decide (file.source ∉ synced.sources) :=
        decide_eq_decide.mpr (not_congr (known file.source))
      rw [List.foldl_cons, firstNew, passing_cons, ← firstNew, test]
      by_cases held : file.source ∈ synced.sources
      · have still (source : String)
            : source ∈ (earlier ++ [file]).map SyncedFile.source ↔ source ∈ synced.sources := by
          rw [List.map_append, List.mem_append, known, List.map_singleton, List.mem_singleton]
          exact or_iff_left_of_imp (fun same => same ▸ held)
        rw [pushNew_of_mem held, ih still]
        simp [held, firstNew]
      · have also (source : String)
            : source ∈ (earlier ++ [file]).map SyncedFile.source
              ↔ source ∈ (synced.push file).sources := by
          rw [List.map_append, List.mem_append, known, sources_push, List.mem_append]
          rfl
        rw [pushNew_of_notMem held, ih also]
        simp [held, firstNew, push]

/-- Offers repeat no source that was not repeated before. -/
theorem nodup_sources_run_offers (offered : List SyncedFile)
    : (synced.run (offered.map .offer)).1.sources.Nodup ↔ synced.sources.Nodup := by
  constructor
  · intro distinct
    exact distinct.sublist ((synced.prefix_run _).sublist.map SyncedFile.source)
  · intro distinct
    rw [List.nodup_iff_count_le_one] at distinct ⊢
    intro source
    rw [run_offers, count_sources_foldl_pushNew]
    have once := distinct source
    split <;> omega

/-- Lists of files under any calls, in any order. The files at first stay in front, and a source is
found in the end just when it was there at first or was brought. A push at any moment appends its
file. An offer is answered with whether its source was missing just before, the list grows by just
its file if so and else not at all, and from then on its source is found. If all calls are offers,
then the files that are appended are the first ones of each source that was missing at first, in
their order, and the sources are distinct in the end just when they were at first.
-/
theorem new_sources_appended_once (synced : SyncedFiles)
    : (∀ calls,
        synced.files <+: (synced.run calls).1.files
        ∧ ∀ source,
            (synced.run calls).1.hasSource source = true
            ↔ source ∈ synced.sources ∨ ∃ earlier ∈ calls, earlier.file.source = source)
      ∧ (∀ before file,
        (synced.run (before ++ [.push file])).1.files = (synced.run before).1.files ++ [file])
      ∧ (∀ before file after,
        let held := (synced.run before).1
        let next := (synced.run (before ++ [.offer file])).1
        let final := synced.run (before ++ .offer file :: after)
        ∃ appended : Bool,
          final.2[before.length]? = some (some appended)
          ∧ (appended = true ↔ file.source ∉ held.sources)
          ∧ next.files = held.files ++ (if appended then [file] else [])
          ∧ next.hasSource file.source = true
          ∧ final.1.hasSource file.source = true)
      ∧ ∀ offered,
          (synced.run (offered.map .offer)).1.files
            = synced.files ++ firstNew synced.files offered
          ∧ ((synced.run (offered.map .offer)).1.sources.Nodup ↔ synced.sources.Nodup) := by
  refine ⟨fun calls => ⟨synced.prefix_run calls, fun source => ?_⟩, ?_, ?_, ?_⟩
  · rw [hasSource_iff, mem_sources_run]
  · intro before file
    rw [run_append]
    rfl
  · intro before file after held next final
    obtain ⟨answer, grows⟩ := held.offer_grows file
    have found (more : List Call)
        : (synced.run (before ++ .offer file :: more)).1.hasSource file.source = true := by
      rw [hasSource_iff, mem_sources_run]
      exact .inr ⟨.offer file, by simp, rfl⟩
    have step : next = (held.offer file).1 := by
      show (synced.run (before ++ [.offer file])).1 = _
      rw [run_append]
      rfl
    refine ⟨(held.offer file).2, ?_, answer, ?_, found [], found after⟩
    · exact synced.getElem?_run before (.offer file) after
    · rw [step, grows]
  · intro offered
    refine ⟨?_, nodup_sources_run_offers offered⟩
    rw [run_offers]
    exact files_foldl_pushNew (fun source => Iff.rfl) offered

/-- A source that is repeated at first with another destination stays so, and is not brought again.
-/
example
    : (⟨[⟨"a", "a"⟩, ⟨"a", "b"⟩]⟩ : SyncedFiles).run
        [.offer ⟨"a", "c"⟩, .offer ⟨"d", "d"⟩, .push ⟨"a", "c"⟩, .offer ⟨"d", "e"⟩]
      = (⟨[⟨"a", "a"⟩, ⟨"a", "b"⟩, ⟨"d", "d"⟩, ⟨"a", "c"⟩]⟩,
          [some false, some true, none, some false]) := by
  decide

end Packaging.SyncedFiles
