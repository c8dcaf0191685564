import Mathlib.Tactic.Choose
import Packaging.Proofs.Passing
import Packaging.Proofs.Status.Pages

/-! The updates that a report shows. They are the first ones of all pages, without each stable
update whose branch has a stable one already.
-/

namespace Packaging.Status

-----------------------------------------------------------------------------------------
-- Repeated stable updates
-----------------------------------------------------------------------------------------

/-- Whether an update is stable and its branch has a stable update already. -/
def repeatsStable (earlier : List Update) (update : Update) : Bool :=
  update.isStable && earlier.any fun other => other.isStable && other.branch = update.branch

/-- The updates that follow `earlier` ones, without each that repeats a stable update of those
before it.
-/
def withoutRepeats (earlier updates : List Update) : List Update :=
  (updates.zipIdx.filter fun entry =>
    !repeatsStable (earlier ++ updates.take entry.2) entry.1).map Prod.fst

variable {earlier : List Update} {update : Update}

theorem repeatsStable_iff
    : repeatsStable earlier update = true
      ↔ update.isStable = true
        ∧ ∃ other ∈ earlier, other.isStable = true ∧ other.branch = update.branch := by
  simp [repeatsStable]

theorem repeatsStable_of_unstable (unstable : update.isStable = false)
    : repeatsStable earlier update = false := by
  rw [repeatsStable, unstable, Bool.false_and]

theorem withoutRepeats_eq (earlier updates : List Update)
    : withoutRepeats earlier updates
      = passing (fun before update => !repeatsStable before update) earlier updates :=
  rfl

/-- Whether the first update stays is told by the earlier ones. It is one of those for the rest. -/
theorem withoutRepeats_cons (earlier : List Update) (update : Update) (rest : List Update)
    : withoutRepeats earlier (update :: rest)
      = if repeatsStable earlier update then withoutRepeats (earlier ++ [update]) rest
        else update :: withoutRepeats (earlier ++ [update]) rest := by
  rw [withoutRepeats_eq, passing_cons]
  cases repeatsStable earlier update <;> rfl

theorem withoutRepeats_sublist (earlier updates : List Update)
    : (withoutRepeats earlier updates).Sublist updates := by
  rw [withoutRepeats_eq]
  exact passing_sublist _ earlier updates

/-- What stays repeats no stable update of the earlier ones, by induction over the updates. -/
theorem not_repeatsStable_of_mem {updates : List Update}
    (kept : update ∈ withoutRepeats earlier updates)
    : repeatsStable earlier update = false := by
  induction updates generalizing earlier with
  | nil => cases kept
  | cons first rest ih =>
      rw [withoutRepeats_cons] at kept
      have later (member : update ∈ withoutRepeats (earlier ++ [first]) rest)
          : repeatsStable earlier update = false := by
        have apart := ih member
        rw [← Bool.not_eq_true, repeatsStable_iff] at apart ⊢
        rintro ⟨stable, other, among, same⟩
        exact apart ⟨stable, other, List.mem_append_left _ among, same⟩
      cases repeated : repeatsStable earlier first with
      | true =>
          rw [repeated, if_pos rfl] at kept
          exact later kept
      | false =>
          rw [repeated, if_neg Bool.false_ne_true, List.mem_cons] at kept
          rcases kept with rfl | member
          · exact repeated
          · exact later member

/-- No two stable updates for one branch stay, by induction over the updates. -/
theorem pairwise_withoutRepeats (earlier updates : List Update)
    : (withoutRepeats earlier updates).Pairwise fun first second =>
        ¬ (first.isStable = true ∧ second.isStable = true ∧ first.branch = second.branch) := by
  induction updates generalizing earlier with
  | nil => exact .nil
  | cons first rest ih =>
      rw [withoutRepeats_cons]
      split
      · exact ih _
      · refine .cons (fun second member => ?_) (ih _)
        have apart := not_repeatsStable_of_mem member
        rw [← Bool.not_eq_true, repeatsStable_iff] at apart
        rintro ⟨firstStable, secondStable, same⟩
        exact apart ⟨secondStable, first, by simp, firstStable, same⟩

/-- Updates that are not stable all stay, by induction over the updates. -/
theorem filter_withoutRepeats (earlier updates : List Update)
    : (withoutRepeats earlier updates).filter (!·.isStable) = updates.filter (!·.isStable) := by
  induction updates generalizing earlier with
  | nil => rfl
  | cons first rest ih =>
      rw [withoutRepeats_cons, List.filter_cons]
      split
      · next repeated =>
        rw [ih, (repeatsStable_iff.mp repeated).1]
        rfl
      · rw [List.filter_cons, ih]

/-- The first updates that stay are those that stay up to some place. Behind it there is either
nothing more or no need for more. By induction over the updates.
-/
theorem exists_take_withoutRepeats (earlier updates : List Update) (count : Nat)
    : ∃ cut,
        (withoutRepeats earlier updates).take count = withoutRepeats earlier (updates.take cut)
        ∧ (((withoutRepeats earlier updates).take count).length = count
          ∨ updates.length ≤ cut) := by
  induction updates generalizing earlier count with
  | nil => exact ⟨0, List.take_nil, .inr (Nat.le_refl _)⟩
  | cons first rest ih =>
      cases count with
      | zero => exact ⟨0, rfl, .inl rfl⟩
      | succ count =>
          cases repeated : repeatsStable earlier first with
          | true =>
              obtain ⟨cut, same, enough⟩ := ih (earlier ++ [first]) (count + 1)
              refine ⟨cut + 1, ?_, ?_⟩
              · rw [List.take_succ_cons, withoutRepeats_cons, withoutRepeats_cons, repeated,
                  if_pos rfl, if_pos rfl, same]
              · rw [withoutRepeats_cons, repeated, if_pos rfl, List.length_cons]
                exact enough.imp id Nat.succ_le_succ
          | false =>
              obtain ⟨cut, same, enough⟩ := ih (earlier ++ [first]) count
              refine ⟨cut + 1, ?_, ?_⟩
              · rw [List.take_succ_cons, withoutRepeats_cons, withoutRepeats_cons, repeated,
                  if_neg Bool.false_ne_true, if_neg Bool.false_ne_true, List.take_succ_cons, same]
              · rw [withoutRepeats_cons, repeated, if_neg Bool.false_ne_true, List.take_succ_cons,
                  List.length_cons, List.length_cons]
                exact enough.imp (congrArg Nat.succ) Nat.succ_le_succ

-----------------------------------------------------------------------------------------
-- The chosen updates
-----------------------------------------------------------------------------------------

/-- The branches that are seen are those of the stable updates among the earlier ones. -/
def Sees (seen : List String) (earlier : List Update) : Prop :=
  ∀ branch, branch ∈ seen ↔ ∃ other ∈ earlier, other.isStable = true ∧ other.branch = branch

theorem Sees.stable {seen : List String} (sees : Sees seen earlier)
    (stable : update.isStable = true)
    : Sees (update.branch :: seen) (earlier ++ [update]) := by
  intro branch
  rw [List.mem_cons, sees branch]
  constructor
  · rintro (rfl | ⟨other, among, same⟩)
    · exact ⟨update, by simp, stable, rfl⟩
    · exact ⟨other, List.mem_append_left _ among, same⟩
  · rintro ⟨other, among, otherStable, same⟩
    rcases List.mem_append.mp among with before | last
    · exact .inr ⟨other, before, otherStable, same⟩
    · rw [List.mem_singleton.mp last] at same
      exact .inl same.symm

/-- An update that is not stable, or for a branch that is seen, makes no other branch seen. -/
theorem Sees.idle {seen : List String} (sees : Sees seen earlier)
    (idle : update.isStable = true → update.branch ∈ seen)
    : Sees seen (earlier ++ [update]) := by
  intro branch
  constructor
  · intro known
    obtain ⟨other, among, same⟩ := (sees branch).mp known
    exact ⟨other, List.mem_append_left _ among, same⟩
  · rintro ⟨other, among, stable, rfl⟩
    rcases List.mem_append.mp among with before | last
    · exact (sees _).mpr ⟨other, before, stable, rfl⟩
    · rw [List.mem_singleton.mp last] at stable ⊢
      exact idle stable

/-- The scan with a count and a record of branches chooses the first updates that repeat no stable
one, by induction over the updates.
-/
theorem choose_eq {seen : List String} (sees : Sees seen earlier) (count : Nat)
    (updates : List Update)
    : choose seen count updates
      = ((withoutRepeats earlier updates).take count).map Update.summary := by
  induction updates generalizing seen earlier count with
  | nil => cases count <;> simp [choose, withoutRepeats]
  | cons update rest ih =>
      cases count with
      | zero => rfl
      | succ count =>
          rw [choose, withoutRepeats_cons]
          cases stable : update.isStable with
          | false =>
              have seenAfter : Sees seen (earlier ++ [update]) := sees.idle (by simp [stable])
              rw [repeatsStable_of_unstable stable, if_neg Bool.false_ne_true,
                if_neg Bool.false_ne_true, ih seenAfter]
              rfl
          | true =>
              have repeated : repeatsStable earlier update = true ↔ update.branch ∈ seen := by
                rw [repeatsStable_iff, sees update.branch, stable]
                simp
              rw [if_pos rfl]
              by_cases known : update.branch ∈ seen
              · rw [if_pos known, if_pos (repeated.mpr known), ih (sees.idle fun _ => known)]
              · rw [if_neg known, if_neg (mt repeated.mp known), ih (sees.stable stable)]
                rfl

/-- Updates are the first ones that a count allows: in their order, with at most one stable update
for a branch, and nothing but repeated stable ones is missing before the place where the count is
reached.
-/
structure Selects (updates : List Update) (count : Nat) (chosen : List Update) : Prop where
  ordered : chosen.Sublist updates
  bounded : chosen.length ≤ count
  single
    : chosen.Pairwise fun first second =>
        ¬ (first.isStable = true ∧ second.isStable = true ∧ first.branch = second.branch)
  complete
    : ∃ cut,
        chosen = withoutRepeats [] (updates.take cut)
        ∧ chosen.filter (!·.isStable) = (updates.take cut).filter (!·.isStable)
        ∧ (chosen.length = count ∨ updates.length ≤ cut)

theorem selects_take_withoutRepeats (updates : List Update) (count : Nat)
    : Selects updates count ((withoutRepeats [] updates).take count) where
  ordered := (List.take_sublist ..).trans (withoutRepeats_sublist [] updates)
  bounded := List.length_take_le ..
  single := (pairwise_withoutRepeats [] updates).sublist (List.take_sublist ..)
  complete := by
    obtain ⟨cut, same, enough⟩ := exists_take_withoutRepeats [] updates count
    refine ⟨cut, same, ?_, enough⟩
    rw [same, filter_withoutRepeats]

-----------------------------------------------------------------------------------------
-- The inquiry
-----------------------------------------------------------------------------------------

variable {status : Status} {name : String}

/-- With a name for the package, the inquiry is the walk over its pages and a choice. -/
theorem updates_of_named (named : status.attributes.downstreamName = some name) (given : name ≠ "")
    (count : Nat)
    : status.updates count
      = ⟨(pagesFrom status.services name 1).trace,
          (pagesFrom status.services name 1).outcome.map fun updates =>
            ((withoutRepeats [] updates).take count).map Update.summary⟩ := by
  have sees : Sees [] [] := by simp [Sees]
  rw [updates, Traced.silent_bind (packageName_of_named named given), Traced.bind_pure,
    funext (choose_eq sees count)]

/-- Without a name for the package nothing is asked. -/
theorem updates_of_unnamed (unnamed : filled status.attributes.downstreamName = none) (count : Nat)
    : status.updates count
      = ⟨[], .error (.incomplete "downstream_package_name is not set")⟩ := by
  rw [updates, packageName, unnamed]
  rfl

/-- What the inquiry gives for a count is the beginning of what it gives for a greater one. -/
theorem updates_of_le {count more : Nat} (within : count ≤ more)
    : status.updates count
      = ⟨(status.updates more).trace, (status.updates more).outcome.map (List.take count)⟩ := by
  cases given : filled status.attributes.downstreamName with
  | none =>
      rw [updates_of_unnamed given, updates_of_unnamed given]
      rfl
  | some name =>
      obtain ⟨named, filled⟩ := filled_eq_some_iff.mp given
      rw [updates_of_named named filled, updates_of_named named filled]
      cases (pagesFrom status.services name 1).outcome with
      | error error => rfl
      | ok updates =>
          simp only [Except.map, ← List.map_take, List.take_take, Nat.min_eq_left within]

/-- A failing query is the last one, and the inquiry fails as it does. -/
theorem updates_of_failure (named : status.attributes.downstreamName = some name)
    (given : name ≠ "") {count : Nat} {page : UInt32} {error : QueryError}
    (asked : .asked (.updates name page) ∈ (status.updates count).trace)
    (failure : status.services.updates name page = .error error)
    : status.updates count = ⟨pageQueries name page.toNat, .error error⟩ := by
  rw [updates_of_named named given] at asked ⊢
  obtain ⟨answers, queried, result, walks⟩ := exists_walks status.services name
  rw [walks.pagesFrom_one] at asked ⊢
  obtain ⟨rfl, rfl⟩ := walks.of_failure asked failure
  rfl

/-- With a name for the package, the inquiry asks for the pages up to the last one in order, each
once, and gives the first updates of all of them without each stable one whose branch has a stable
one before it. A smaller count gives the beginning of this. A failing query is the last one and its
error is all that there is, and without a name nothing is asked.
-/
theorem updates_of_pages (status : Status) (count : Nat)
    : (∀ (name : String) (answers : Nat → UpdatePage) (last : Nat),
        status.attributes.downstreamName = some name → name ≠ ""
        → LastPage status.services name answers last
        → let chosen := (withoutRepeats [] (gathered answers last)).take count
          status.updates count = ⟨pageQueries name last, .ok (chosen.map Update.summary)⟩
          ∧ Selects (gathered answers last) count chosen)
      ∧ (∀ more,
          count ≤ more
          → status.updates count
            = ⟨(status.updates more).trace, (status.updates more).outcome.map (List.take count)⟩)
      ∧ (∀ (name : String) (page : UInt32) (error : QueryError),
          status.attributes.downstreamName = some name → name ≠ ""
          → .asked (.updates name page) ∈ (status.updates count).trace
          → status.services.updates name page = .error error
          → status.updates count = ⟨pageQueries name page.toNat, .error error⟩)
      ∧ (status.attributes.downstreamName = none ∨ status.attributes.downstreamName = some ""
        → status.updates count
          = ⟨[], .error (.incomplete "downstream_package_name is not set")⟩) := by
  refine ⟨?_, ?_, ?_, ?_⟩
  · intro name answers last named given found
    refine ⟨?_, selects_take_withoutRepeats ..⟩
    rw [updates_of_named named given, found.walks.pagesFrom_one]
    rfl
  · intro more within
    exact updates_of_le within
  · intro name page error named given asked failure
    exact updates_of_failure named given asked failure
  · intro unnamed
    exact updates_of_unnamed (filled_eq_none_iff.mpr unnamed) count

/-- Services that know about updates alone. -/
def Services.ofUpdates (updates : String → UInt32 → Except QueryError UpdatePage) : Services where
  pullRequests := .ok []
  branches := .ok []
  specVersion _ := .ok none
  releases := none
  completedBuilds _ _ := .ok []
  updates := updates
  coprBuilds _ := .ok []

/-- Three pages with totals that grow and then shrink, a stable update repeated on its own page and
on a later one, and the same with a failing second page and without a name.
-/
theorem updates_of_pages_three
    : let stable (title branch : String) : Update := ⟨title, 0, "stable", branch⟩
      let pages (number : Nat) : UpdatePage :=
        match number with
        | 1 => ⟨[stable "a" "f39", stable "b" "f39"], 3⟩
        | 2 => ⟨[⟨"c", 1, "testing", "f39"⟩, stable "d" "f39"], 9⟩
        | _ => ⟨[stable "e" "f38", ⟨"f", -1, "pending", "f38"⟩], 2⟩
      let whole : Services := .ofUpdates fun _ page => .ok (pages page.toNat)
      let broken : Services :=
        .ofUpdates fun _ page =>
          if page = 2 then .error (.failed "down" "no route") else .ok (pages page.toNat)
      let known (services : Services) : Status := ⟨{ downstreamName := some "ogr" }, services⟩
      let queries : List (Step Query) :=
        [.asked (.updates "ogr" 1), .asked (.updates "ogr" 2), .asked (.updates "ogr" 3)]
      let chosen : List UpdateSummary :=
        [⟨"a", 0, "stable"⟩, ⟨"c", 1, "testing"⟩, ⟨"e", 0, "stable"⟩]
      (known whole).updates 3 = ⟨queries, .ok chosen⟩
      ∧ (known whole).updates 2 = ⟨queries, .ok (chosen.take 2)⟩
      ∧ (known broken).updates 3 = ⟨queries.take 2, .error (.failed "down" "no route")⟩
      ∧ updates ⟨{ downstreamName := some "" }, whole⟩ 3
        = ⟨[], .error (.incomplete "downstream_package_name is not set")⟩ := by
  intro stable pages whole broken known queries chosen
  have number {page : Nat} (within : page ≤ 3) : (UInt32.ofNat page).toNat = page :=
    UInt32.toNat_ofNat_of_lt (by simp only [UInt32.size]; omega)
  have last : LastPage whole "ogr" pages 3 :=
    { positive := by decide
      within := by decide
      answered := fun page _ within => congrArg (Except.ok ∘ pages) (number within)
      more := fun page positive before => by
        obtain rfl | rfl : page = 1 ∨ page = 2 := by omega
        · decide
        · decide
      reached := by decide }
  have three := ((updates_of_pages (known whole) 3).1 "ogr" pages 3 rfl (by decide) last).1
  have passes : Passes broken "ogr" pages 1 :=
    { answered := fun page positive within => by
        obtain rfl : page = 1 := by omega
        rfl
      more := fun page positive within => by
        obtain rfl : page = 1 := by omega
        decide }
  have failing : Walks broken "ogr" pages 2 (.error (.failed "down" "no route")) :=
    .failed passes rfl
  refine ⟨three, ?_, ?_, ?_⟩
  · rw [(updates_of_pages (known whole) 2).2.1 3 (by decide), three]
    rfl
  · refine (updates_of_pages (known broken) 3).2.2.1 "ogr" 2 _ rfl (by decide) ?_ rfl
    rw [updates_of_named rfl (by decide), failing.pagesFrom_one]
    decide
  · exact (updates_of_pages _ 3).2.2.2 (.inr rfl)

/-- Services that report one total with every page are asked for exactly so many pages, and for one
page if they report none. The inquiry succeeds unless that total is the greatest number: the number
behind it does not exist.
-/
theorem updates_of_constant_total {status : Status} {name : String}
    (named : status.attributes.downstreamName = some name) (given : name ≠ "") {total : UInt32}
    (constant
      : ∀ page, ∃ answer, status.services.updates name page = .ok answer ∧ answer.pages = total)
    (count : Nat)
    : (status.updates count).trace = pageQueries name (max 1 total.toNat)
      ∧ (total.toNat + 1 < UInt32.size → ∃ chosen, (status.updates count).outcome = .ok chosen)
      ∧ (total.toNat + 1 = UInt32.size
        → (status.updates count).outcome = .error .tooManyPages) := by
  choose answer answered pages using constant
  have walks := @walks_of_constant_total _ _ (fun page => answer (.ofNat page)) _
    (fun page => answered (.ofNat page)) (fun page => pages (.ofNat page))
  rw [updates_of_named named given, walks.pagesFrom_one]
  refine ⟨rfl, ?_, ?_⟩
  · intro within
    rw [if_pos within]
    exact ⟨_, rfl⟩
  · intro greatest
    rw [if_neg (by omega)]
    rfl

/-- The greatest total there is, beside the total of services without updates. -/
theorem updates_of_greatest_total
    : let reporting (total : UInt32) : Status :=
        ⟨{ downstreamName := some "ogr" }, .ofUpdates fun _ _ => .ok ⟨[], total⟩⟩
      ((reporting 0).updates 5).trace = [.asked (.updates "ogr" 1)]
      ∧ (∃ chosen, ((reporting 0).updates 5).outcome = .ok chosen)
      ∧ ((reporting 4294967295).updates 5).trace = pageQueries "ogr" 4294967295
      ∧ ((reporting 4294967295).updates 5).outcome = .error .tooManyPages := by
  intro reporting
  have runs (total : UInt32) :=
    @updates_of_constant_total (reporting total) "ogr" rfl (by decide) total
      (fun _ => ⟨⟨[], total⟩, rfl, rfl⟩) 5
  obtain ⟨none, ended, _⟩ := runs 0
  obtain ⟨all, _, exhausted⟩ := runs 4294967295
  exact ⟨none, ended (by decide), all, exhausted (by decide)⟩

end Packaging.Status
