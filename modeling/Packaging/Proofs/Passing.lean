/-! Items of a list that pass a test on what stands before them.
-/

namespace Packaging

variable {α : Type}

/-- The items after `earlier` ones that pass the test on all items before them, whether or not those
pass it themselves.
-/
def passing (test : List α → α → Bool) (earlier items : List α) : List α :=
  (items.zipIdx.filter fun entry => test (earlier ++ items.take entry.2) entry.1).map Prod.fst

/-- The first item is tested on the earlier ones, and is one of those for the rest. -/
theorem passing_cons (test : List α → α → Bool) (earlier : List α) (first : α) (rest : List α)
    : passing test earlier (first :: rest)
      = if test earlier first then first :: passing test (earlier ++ [first]) rest
        else passing test (earlier ++ [first]) rest := by
  have shifted
      : ((rest.zipIdx 1).filter fun entry =>
          test (earlier ++ (first :: rest).take entry.2) entry.1).map Prod.fst
        = passing test (earlier ++ [first]) rest := by
    rw [List.zipIdx_succ, List.filter_map, List.map_map, passing]
    simp only [Function.comp_def, List.take_succ_cons, List.append_assoc, List.singleton_append]
  rw [← shifted, passing, List.zipIdx_cons, List.filter_cons, List.take_zero, List.append_nil]
  cases test earlier first <;> rfl

theorem passing_sublist (test : List α → α → Bool) (earlier items : List α)
    : (passing test earlier items).Sublist items := by
  have kept := (List.filter_sublist (l := items.zipIdx) (p := fun entry =>
    test (earlier ++ items.take entry.2) entry.1)).map Prod.fst
  rwa [List.zipIdx_map_fst] at kept

end Packaging
