import Mathlib.Tactic.ByContra
import Packaging.Proofs.Traced
import Packaging.Status.Inquiries

/-! The walk over the pages of updates. Pages are asked for one after another until one is the last,
a query fails, or no greater page number exists.
-/

namespace Packaging.Status

variable {services : Services} {package : String}

-----------------------------------------------------------------------------------------
-- Queries
-----------------------------------------------------------------------------------------

/-- What follows a query goes on with its answer. -/
theorem ask_bind_of_ok {α β : Type} {query : Query} {result : Except QueryError α} {value : α}
    (answered : result = .ok value) (next : α → Inquiry β)
    : ask query result >>= next = ⟨.asked query :: (next value).trace, (next value).outcome⟩ :=
  Traced.bind_of_ok next answered

/-- A downstream name with content is the name of the package. -/
theorem packageName_of_named {status : Status} {name : String}
    (named : status.attributes.downstreamName = some name) (given : name ≠ "")
    : status.packageName = ⟨[], .ok name⟩ := by
  rw [packageName, filled_eq_some_iff.mpr ⟨named, given⟩]
  rfl

-----------------------------------------------------------------------------------------
-- One page
-----------------------------------------------------------------------------------------

section

variable {page : UInt32} {answer : UpdatePage}

theorem pagesFrom_of_error {error : QueryError}
    (failed : services.updates package page = .error error)
    : pagesFrom services package page = ⟨[.asked (.updates package page)], .error error⟩ := by
  rw [pagesFrom]
  exact Traced.bind_of_error _ failed

theorem toNat_add_one (within : page.toNat + 1 < UInt32.size)
    : (page + 1).toNat = page.toNat + 1 := by
  rw [UInt32.toNat_add]
  exact Nat.mod_eq_of_lt within

/-- A total beyond a page leaves room for the number of the page after it. -/
theorem add_one_lt_size (more : page.toNat < answer.pages.toNat)
    : page.toNat + 1 < UInt32.size :=
  Nat.lt_of_le_of_lt more answer.pages.toNat_lt

/-- A page with a total beyond it is followed by the page after it. -/
theorem pagesFrom_of_more (answered : services.updates package page = .ok answer)
    (more : page.toNat < answer.pages.toNat)
    : pagesFrom services package page
      = ⟨.asked (.updates package page) :: (pagesFrom services package (page + 1)).trace,
          (pagesFrom services package (page + 1)).outcome.map (answer.updates ++ ·)⟩ := by
  have within := add_one_lt_size more
  have reached : page + 1 ≤ answer.pages := by
    rw [UInt32.le_iff_toNat_le, toNat_add_one within]
    exact more
  rw [pagesFrom, ask_bind_of_ok answered, dif_pos within, if_pos reached, Traced.bind_pure]

/-- A page with a total that is not beyond it is the last one. -/
theorem pagesFrom_of_last (answered : services.updates package page = .ok answer)
    (last : answer.pages.toNat ≤ page.toNat) (within : page.toNat + 1 < UInt32.size)
    : pagesFrom services package page
      = ⟨[.asked (.updates package page)], .ok answer.updates⟩ := by
  have unreached : ¬ page + 1 ≤ answer.pages := by
    rw [UInt32.le_iff_toNat_le, toNat_add_one within]
    omega
  rw [pagesFrom, ask_bind_of_ok answered, dif_pos within, if_neg unreached]
  rfl

/-- After the page with the greatest number there is none to ask for. -/
theorem pagesFrom_of_greatest (answered : services.updates package page = .ok answer)
    (greatest : page.toNat + 1 = UInt32.size)
    : pagesFrom services package page
      = ⟨[.asked (.updates package page)], .error .tooManyPages⟩ := by
  rw [pagesFrom, ask_bind_of_ok answered, dif_neg (by omega)]
  rfl

end

-----------------------------------------------------------------------------------------
-- The whole walk
-----------------------------------------------------------------------------------------

/-- The queries for the first pages. -/
def pageQueries (package : String) (count : Nat) : List (Step Query) :=
  (List.range' 1 count).map fun page => .asked (.updates package (.ofNat page))

/-- The updates of the first pages, page after page. -/
def gathered (answers : Nat → UpdatePage) (count : Nat) : List Update :=
  (List.range' 1 count).flatMap fun page => (answers page).updates

/-- The first pages are answered, each with a total beyond it. -/
structure Passes (services : Services) (package : String) (answers : Nat → UpdatePage)
    (count : Nat) : Prop where
  answered
    : ∀ page, 1 ≤ page → page ≤ count
        → services.updates package (.ofNat page) = .ok (answers page)
  more : ∀ page, 1 ≤ page → page ≤ count → page < (answers page).pages.toNat

/-- How the walk over the pages ends, after how many queries: at the last page, with a failing
query, or at a page behind which there is no number for another one.
-/
inductive Walks (services : Services) (package : String) (answers : Nat → UpdatePage)
    : Nat → Except QueryError (List Update) → Prop
  | ended {count : Nat} (passes : Passes services package answers count)
    (answered : services.updates package (.ofNat (count + 1)) = .ok (answers (count + 1)))
    (last : (answers (count + 1)).pages.toNat ≤ count + 1) (within : count + 2 < UInt32.size)
    : Walks services package answers (count + 1) (.ok (gathered answers (count + 1)))
  | failed {count : Nat} {error : QueryError} (passes : Passes services package answers count)
    (failure : services.updates package (.ofNat (count + 1)) = .error error)
    : Walks services package answers (count + 1) (.error error)
  | exhausted {count : Nat} (passes : Passes services package answers count)
    (answered : services.updates package (.ofNat (count + 1)) = .ok (answers (count + 1)))
    (greatest : count + 2 = UInt32.size)
    : Walks services package answers (count + 1) (.error .tooManyPages)

variable {answers : Nat → UpdatePage} {count : Nat}

theorem pageQueries_succ (package : String) (count : Nat)
    : pageQueries package (count + 1)
      = pageQueries package count ++ [.asked (.updates package (.ofNat (count + 1)))] := by
  rw [pageQueries, List.range'_1_concat, List.map_append, Nat.add_comm 1]
  rfl

theorem gathered_succ (answers : Nat → UpdatePage) (count : Nat)
    : gathered answers (count + 1) = gathered answers count ++ (answers (count + 1)).updates := by
  rw [gathered, List.range'_1_concat, List.flatMap_append, List.flatMap_singleton,
    Nat.add_comm 1]
  rfl

namespace Passes

theorem zero : Passes services package answers 0 where
  answered page positive within := by omega
  more page positive within := by omega

theorem succ (passes : Passes services package answers count)
    (answered : services.updates package (.ofNat (count + 1)) = .ok (answers (count + 1)))
    (more : count + 1 < (answers (count + 1)).pages.toNat)
    : Passes services package answers (count + 1) where
  answered page positive within := by
    rcases Nat.le_succ_iff.mp within with earlier | rfl
    · exact passes.answered page positive earlier
    · exact answered
  more page positive within := by
    rcases Nat.le_succ_iff.mp within with earlier | rfl
    · exact passes.more page positive earlier
    · exact more

theorem of_succ (passes : Passes services package answers (count + 1))
    : Passes services package answers count where
  answered page positive within := passes.answered page positive (Nat.le_succ_of_le within)
  more page positive within := passes.more page positive (Nat.le_succ_of_le within)

/-- The page after the passed ones has a number. -/
theorem lt_size (passes : Passes services package answers count)
    : count + 1 < UInt32.size := by
  cases count with
  | zero => decide
  | succ earlier =>
      exact Nat.lt_of_le_of_lt (passes.more _ (Nat.le_add_left ..) (Nat.le_refl _))
        (answers _).pages.toNat_lt

theorem toNat_next (passes : Passes services package answers count)
    : (UInt32.ofNat (count + 1)).toNat = count + 1 :=
  UInt32.toNat_ofNat_of_lt passes.lt_size

/-- The walk comes through the passed pages with what is on them, by induction over their number. -/
theorem pagesFrom_one (passes : Passes services package answers count)
    : pagesFrom services package 1
      = ⟨pageQueries package count ++ (pagesFrom services package (.ofNat (count + 1))).trace,
          (pagesFrom services package (.ofNat (count + 1))).outcome.map
            (gathered answers count ++ ·)⟩ := by
  induction count with
  | zero =>
      show pagesFrom services package 1
        = ⟨(pagesFrom services package 1).trace, (pagesFrom services package 1).outcome.map id⟩
      rw [Except.map_id]
      rfl
  | succ count ih =>
      have before := passes.of_succ
      have answered := passes.answered (count + 1) (Nat.le_add_left ..) (Nat.le_refl _)
      have more : (UInt32.ofNat (count + 1)).toNat < (answers (count + 1)).pages.toNat := by
        rw [before.toNat_next]
        exact passes.more (count + 1) (Nat.le_add_left ..) (Nat.le_refl _)
      have next : UInt32.ofNat (count + 1) + 1 = .ofNat (count + 1 + 1) :=
        (UInt32.ofNat_add (count + 1) 1).symm
      rw [ih before, pagesFrom_of_more answered more, next, pageQueries_succ, gathered_succ]
      cases (pagesFrom services package (.ofNat (count + 1 + 1))).outcome with
      | error error => simp [Except.map]
      | ok later => simp [Except.map]

end Passes

/-- However the walk ends, it asks for the pages in order, each once. -/
theorem Walks.pagesFrom_one {queried : Nat} {result : Except QueryError (List Update)}
    (walks : Walks services package answers queried result)
    : pagesFrom services package 1 = ⟨pageQueries package queried, result⟩ := by
  cases walks with
  | ended passes answered last within =>
      rw [passes.pagesFrom_one, pagesFrom_of_last answered, pageQueries_succ, gathered_succ]
      · rfl
      · rw [passes.toNat_next]
        exact last
      · rw [passes.toNat_next]
        exact within
  | failed passes failure =>
      rw [passes.pagesFrom_one, pagesFrom_of_error failure, pageQueries_succ]
      rfl
  | exhausted passes answered greatest =>
      rw [passes.pagesFrom_one, pagesFrom_of_greatest answered, pageQueries_succ]
      · rfl
      · rw [passes.toNat_next]
        exact greatest

theorem mem_pageQueries_iff {page : UInt32}
    : .asked (.updates package page) ∈ pageQueries package count
      ↔ ∃ number, 1 ≤ number ∧ number ≤ count ∧ page = .ofNat number := by
  rw [pageQueries, List.mem_map]
  constructor
  · rintro ⟨number, within, same⟩
    have bounds := List.mem_range'_1.mp within
    exact ⟨number, bounds.1, by omega, by simpa using same.symm⟩
  · rintro ⟨number, positive, within, rfl⟩
    exact ⟨number, List.mem_range'_1.mpr ⟨positive, by omega⟩, rfl⟩

/-- A walk with a failing query ends with that query and its error. -/
theorem Walks.of_failure {queried : Nat} {result : Except QueryError (List Update)} {page : UInt32}
    {error : QueryError} (walks : Walks services package answers queried result)
    (asked : .asked (.updates package page) ∈ pageQueries package queried)
    (failure : services.updates package page = .error error)
    : queried = page.toNat ∧ result = .error error := by
  obtain ⟨number, positive, within, rfl⟩ := mem_pageQueries_iff.mp asked
  have last {count : Nat} (passes : Passes services package answers count)
      (within : number ≤ count + 1)
      : number = count + 1 := by
    refine Nat.le_antisymm within (Nat.lt_of_not_le fun earlier => ?_)
    rw [passes.answered number positive earlier] at failure
    cases failure
  cases walks with
  | ended passes answered =>
      rw [last passes within, answered] at failure
      cases failure
  | failed passes failed =>
      rw [last passes within] at failure ⊢
      rw [failed] at failure
      obtain rfl := Except.error.inj failure
      exact ⟨passes.toNat_next.symm, rfl⟩
  | exhausted passes answered =>
      rw [last passes within, answered] at failure
      cases failure

/-- Every walk ends, since it cannot pass more pages than there are numbers. -/
theorem exists_walks (services : Services) (package : String)
    : ∃ answers queried result, Walks services package answers queried result := by
  let answers (page : Nat) : UpdatePage :=
    match services.updates package (.ofNat page) with
    | .ok answer => answer
    | .error _ => ⟨[], 0⟩
  by_contra endless
  have passes (count : Nat) : Passes services package answers count := by
    induction count with
    | zero => exact .zero
    | succ count ih =>
        cases answered : services.updates package (.ofNat (count + 1)) with
        | error error => exact absurd ⟨_, _, _, .failed ih answered⟩ endless
        | ok answer =>
            have same : answer = answers (count + 1) := by simp only [answers, answered]
            rw [same] at answered
            by_cases more : count + 1 < (answers (count + 1)).pages.toNat
            · exact ih.succ answered more
            have last := Nat.le_of_not_lt more
            rcases Nat.lt_or_eq_of_le (Nat.succ_le_of_lt ih.lt_size) with within | greatest
            · exact absurd ⟨_, _, _, .ended ih answered last within⟩ endless
            · exact absurd ⟨_, _, _, .exhausted ih answered greatest⟩ endless
  exact absurd (passes UInt32.size).lt_size (by omega)

-----------------------------------------------------------------------------------------
-- Where a walk ends well
-----------------------------------------------------------------------------------------

/-- The last page of a walk is the first one that is at least the total reported with it, and no
query up to it fails. Its number is not the greatest one.
-/
structure LastPage (services : Services) (package : String) (answers : Nat → UpdatePage)
    (last : Nat) : Prop where
  positive : 1 ≤ last
  within : last + 1 < UInt32.size
  answered
    : ∀ page, 1 ≤ page → page ≤ last
        → services.updates package (.ofNat page) = .ok (answers page)
  more : ∀ page, 1 ≤ page → page < last → page < (answers page).pages.toNat
  reached : (answers last).pages.toNat ≤ last

theorem LastPage.walks {last : Nat} (found : LastPage services package answers last)
    : Walks services package answers last (.ok (gathered answers last)) := by
  obtain ⟨earlier, rfl⟩ := Nat.exists_eq_add_of_le' found.positive
  have passes : Passes services package answers earlier :=
    { answered := fun page positive within =>
        found.answered page positive (Nat.le_succ_of_le within)
      more := fun page positive within => found.more page positive (Nat.lt_succ_of_le within) }
  exact .ended passes (found.answered _ found.positive (Nat.le_refl _)) found.reached found.within

/-- Services that report one total with every page are asked for so many pages, and for one page if
they report none. The walk ends well unless that total is the greatest number.
-/
theorem walks_of_constant_total {total : UInt32}
    (answered : ∀ page, services.updates package (.ofNat page) = .ok (answers page))
    (constant : ∀ page, (answers page).pages = total)
    : Walks services package answers (max 1 total.toNat)
        (if total.toNat + 1 < UInt32.size then .ok (gathered answers (max 1 total.toNat))
          else .error .tooManyPages) := by
  have bound := total.toNat_lt
  have count : max 1 total.toNat = total.toNat - 1 + 1 := by omega
  have passes : Passes services package answers (total.toNat - 1) :=
    { answered := fun page _ _ => answered page
      more := fun page positive within => by
        rw [constant]
        omega }
  rw [count]
  split
  · next within =>
    refine .ended passes (answered _) ?_ ?_
    · rw [constant]
      omega
    · simp only [UInt32.size] at within ⊢
      omega
  · next beyond =>
    refine .exhausted passes (answered _) ?_
    simp only [UInt32.size] at beyond ⊢
    omega

end Packaging.Status
