import Packaging.Lookup.Directories
import Packaging.Proofs.Traced

/-! The place of the working directory in a search. It comes first or last when that is asked for,
stands there once, and leaves the order of all other directories alone.
-/

namespace Packaging.Locator

-----------------------------------------------------------------------------------------
-- The two ways to search
-----------------------------------------------------------------------------------------

/-- Whether the working directory is asked to move. -/
def Moves (locator : Locator) : Prop :=
  locator.workingFirst = true ∨ locator.workingLast = true

/-- The directories with the working one at its place among them: at the end as soon as that is
asked for, and else at the front.
-/
def withWorking (locator : Locator) (working : Path) : List Path :=
  let others := locator.directories.filter (· ≠ working)
  if locator.workingLast then others ++ [working] else working :: others

/-- What a search reports about its order: that both places were asked for. -/
def orderReports (locator : Locator) : List Event :=
  if locator.workingFirst && locator.workingLast then [.ambiguousOrder] else []

variable {locator : Locator} {fs : FileSystem} {working : Path}

theorem searchOrder_of_not_moves (still : ¬ locator.Moves)
    : locator.searchOrder fs = ⟨[], .ok locator.directories⟩ := by
  obtain ⟨first, last⟩ := not_or.mp still
  rw [Bool.not_eq_true] at first last
  rw [searchOrder, first, last]
  rfl

/-- A search that moves the working directory reports what there is to report, and then needs the
path of that directory.
-/
theorem searchOrder_of_moves (moves : locator.Moves)
    : locator.searchOrder fs
      = ⟨locator.orderReports, (locator.workingPath fs).map locator.withWorking⟩ := by
  have found : (!locator.workingFirst && !locator.workingLast) = false := by
    rcases moves with first | last
    · simp [first]
    · simp [last]
  unfold searchOrder orderReports
  rw [found]
  cases place : locator.workingPath fs <;>
    cases both : locator.workingFirst && locator.workingLast <;>
    rfl

/-- Only the path of a working directory that is gone is unknown. -/
theorem error_of_workingPath {error : Error} (unknown : locator.workingPath fs = .error error)
    : error = .file (.refused ⟨"."⟩ .notFound) := by
  unfold workingPath at unknown
  split at unknown
  · cases unknown
  · unfold FileSystem.workingPath at unknown
    split at unknown
    · cases unknown
    · exact (Except.error.inj unknown).symm

/-- The directories are unknown only when the working directory is needed and gone. -/
theorem error_of_searchOrder {error : Error}
    (unordered : (locator.searchOrder fs).outcome = .error error)
    : error = .file (.refused ⟨"."⟩ .notFound) := by
  by_cases moves : locator.Moves
  · rw [searchOrder_of_moves moves] at unordered
    cases place : locator.workingPath fs with
    | ok working =>
        rw [place] at unordered
        cases unordered
    | error cause =>
        rw [place] at unordered
        obtain rfl := Except.error.inj unordered
        exact error_of_workingPath place
  · rw [searchOrder_of_not_moves moves] at unordered
    cases unordered

-----------------------------------------------------------------------------------------
-- One place
-----------------------------------------------------------------------------------------

theorem not_mem_others (working : Path) (directories : List Path)
    : working ∉ directories.filter (· ≠ working) := by
  simp

theorem count_withWorking (locator : Locator) (working : Path)
    : (locator.withWorking working).count working = 1 := by
  have none := List.count_eq_zero.mpr (not_mem_others working locator.directories)
  unfold withWorking
  dsimp only
  split
  · rw [List.count_append, none, List.count_singleton_self]
  · rw [List.count_cons_self, none]

/-- Without the working directory the others are left, as they were. -/
theorem erase_withWorking (locator : Locator) (working : Path)
    : (locator.withWorking working).erase working
      = locator.directories.filter (· ≠ working) := by
  unfold withWorking
  dsimp only
  split
  · rw [List.erase_append_right _ (not_mem_others working locator.directories),
      List.erase_cons_head, List.append_nil]
  · rw [List.erase_cons_head]

/-- The others are the same again in an order in which the working directory has its place. -/
theorem withWorking_withWorking (locator : Locator) (working : Path)
    : { locator with directories := locator.withWorking working }.withWorking working
      = locator.withWorking working := by
  have others
      : (locator.withWorking working).filter (· ≠ working)
        = locator.directories.filter (· ≠ working) := by
    unfold withWorking
    dsimp only
    split <;> simp
  rw [withWorking, others]
  rfl

/-- A search in the order of another one with the same wishes has the same order and reports. -/
theorem searchOrder_again {order : List Path}
    (ordered : (locator.searchOrder fs).outcome = .ok order)
    : { locator with directories := order }.searchOrder fs = locator.searchOrder fs := by
  by_cases moves : locator.Moves
  · have again : { locator with directories := order }.Moves := moves
    rw [searchOrder_of_moves again, searchOrder_of_moves moves]
    rw [searchOrder_of_moves moves] at ordered
    have place
        : { locator with directories := order }.workingPath fs = locator.workingPath fs :=
      rfl
    rw [place]
    cases found : locator.workingPath fs with
    | error error => rfl
    | ok working =>
        rw [found] at ordered
        obtain rfl := Except.ok.inj ordered
        show (⟨_, .ok _⟩ : Reported (List Path)) = ⟨_, .ok _⟩
        rw [withWorking_withWorking]
        rfl
  · have again : ¬ { locator with directories := order }.Moves := moves
    rw [searchOrder_of_not_moves moves] at ordered
    obtain rfl := Except.ok.inj ordered
    rfl

theorem trace_searchOrder (locator : Locator) (fs : FileSystem)
    : (locator.searchOrder fs).trace = locator.orderReports := by
  by_cases moves : locator.Moves
  · rw [searchOrder_of_moves moves]
  · obtain ⟨first, last⟩ := not_or.mp moves
    rw [searchOrder_of_not_moves moves, orderReports, Bool.eq_false_iff.mpr first]
    rfl

-----------------------------------------------------------------------------------------
-- The order of a search
-----------------------------------------------------------------------------------------

/-- Directories are searched as they are given unless the working directory is asked to move. Then
it has one place, the first one if only that is asked for and else the last one, and without it
just the other directories are left, as often as they are given and in their order. Which ones are
others is told by the paths that their texts spell. Only a working directory whose path is unknown
ends the search. A search in the order of the first one changes nothing more, and that both places
were asked for is reported just when they were.
-/
theorem working_directory_once (locator : Locator) (fs : FileSystem)
    : (¬ locator.Moves → (locator.searchOrder fs).outcome = .ok locator.directories)
      ∧ (locator.Moves
        → ∀ working,
            locator.workingPath fs = .ok working
            → ∃ order,
                (locator.searchOrder fs).outcome = .ok order
                ∧ order.count working = 1
                ∧ (locator.workingLast = false → order.head? = some working)
                ∧ (locator.workingLast = true → order.getLast? = some working)
                ∧ order.erase working = locator.directories.filter (· ≠ working)
                ∧ ∀ (given : List String) (current : String),
                    locator.directories = given.map Path.ofString
                    → working = Path.ofString current
                    → order.erase working
                      = (given.filter fun text =>
                          Path.ofString text ≠ Path.ofString current).map Path.ofString)
      ∧ (locator.Moves
        → ∀ error,
            locator.workingPath fs = .error error
            → (locator.searchOrder fs).outcome = .error error)
      ∧ (∀ order,
          (locator.searchOrder fs).outcome = .ok order
          → { locator with directories := order }.searchOrder fs = locator.searchOrder fs)
      ∧ (locator.searchOrder fs).trace
        = if locator.workingFirst && locator.workingLast then [.ambiguousOrder] else [] := by
  refine ⟨fun still => ?_, fun moves working found => ?_, fun moves error missing => ?_,
    fun order ordered => searchOrder_again ordered, trace_searchOrder locator fs⟩
  · rw [searchOrder_of_not_moves still]
  · have without := locator.erase_withWorking working
    refine ⟨locator.withWorking working, ?_, locator.count_withWorking working, ?_, ?_, without, ?_⟩
    · rw [searchOrder_of_moves moves, found]
      rfl
    · intro front
      simp [withWorking, front]
    · intro back
      simp [withWorking, back]
    · rintro given current same rfl
      rw [without, same, List.filter_map]
      rfl
  · rw [searchOrder_of_moves moves, missing]
    rfl

/-- Other spellings of the working directory count as that directory. -/
theorem working_directory_once_respelled
    : let locator : Locator := {
        directories := ["a", "./b", "b", ".\\b", "a"].map Path.ofString
        workingFirst := true
        workingLast := true
        working := some (Path.ofString "././b") }
      ∃ order,
        (locator.searchOrder ⟨[], [], []⟩).outcome = .ok order
        ∧ order.getLast? = some (Path.ofString "b")
        ∧ order.erase (Path.ofString "b") = ["a", "a"].map Path.ofString
        ∧ { locator with directories := order }.searchOrder ⟨[], [], []⟩
          = locator.searchOrder ⟨[], [], []⟩ := by
  intro locator
  obtain ⟨_, moved, _, again, _⟩ := working_directory_once locator ⟨[], [], []⟩
  obtain ⟨order, ordered, _, _, last, _, spelled⟩ := moved (.inl rfl) (Path.ofString "b") rfl
  refine ⟨order, ordered, last rfl, ?_, again order ordered⟩
  rw [spelled ["a", "./b", "b", ".\\b", "a"] "b" rfl rfl]
  decide

end Packaging.Locator
