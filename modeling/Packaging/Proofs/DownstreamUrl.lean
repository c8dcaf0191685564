import Packaging.Attributes.Assignment
import Packaging.Proofs.Resolution.Resolved

/-! The downstream URL over whole runs of requests. Attributes are copied and laid over, and each
copy answers by what was requested of it and of what it was copied from.
-/

namespace Packaging.Attributes

-----------------------------------------------------------------------------------------
-- Asking for the URL
-----------------------------------------------------------------------------------------

/-- Ask for the downstream URL. The explicit one is returned where it has a content. Otherwise the
derived one is, and where there is none yet, the package URL is derived for good.
-/
def askUrl (x : Attributes) : String × Attributes :=
  match filled x.downstreamUrl with
  | some url => (url, x)
  | none =>
    let url := x.derivedUrl.getD x.packageUrl
    (url, { x with derivedUrl := some url })

/-- Asking derives the URL and returns the one that takes effect then. -/
theorem askUrl_eq (x : Attributes)
    : x.askUrl = (x.deriveUrl.effectiveUrl, x.deriveUrl) := by
  unfold askUrl deriveUrl
  cases explicit : filled x.downstreamUrl <;> simp [effectiveUrl, explicit]

/-- What is returned is the explicit URL with a content, or else the one derived by then. -/
theorem returned_askUrl (x : Attributes)
    : (filled x.downstreamUrl).or x.askUrl.2.derivedUrl = some x.askUrl.1 := by
  unfold askUrl
  cases filled x.downstreamUrl <;> simp

-----------------------------------------------------------------------------------------
-- Requests
-----------------------------------------------------------------------------------------

/-- A request to attributes. They are compared with those at a place. -/
inductive Request where
  | assign (assignment : Assignment)
  | askUrl
  | effectiveUrl
  | packageUrl
  | isDerived
  | form
  | same (other : Nat)
  | clone
  | overlay (o : Overrides)
deriving DecidableEq

/-- What a request returns. -/
inductive Answer where
  | nothing
  | url (text : String)
  | flag (given : Bool)
  | value (form : Value)
deriving DecidableEq

/-- A request, and the attributes before it. -/
structure Moment where
  before : Attributes
  request : Request

/-- Attributes with the moments that led to them, the earliest first. A clone has the moments of
what it was cloned from. The moments are only recorded and decide nothing.
-/
structure Kept where
  now : Attributes
  past : List Moment := []

structure Operation where
  place : Nat
  request : Request

namespace Request

/-- What a request makes of the attributes themselves. -/
def effect (x : Attributes) : Request → Attributes
  | .assign assignment => x.assign assignment
  | .askUrl => x.askUrl.2
  | _ => x

/-- What a request returns, where `at?` tells the attributes at a place. -/
def answer (at? : Nat → Option Attributes) (x : Attributes) : Request → Answer
  | .assign _ | .clone | .overlay _ => .nothing
  | .askUrl => .url x.askUrl.1
  | .effectiveUrl => .url x.effectiveUrl
  | .packageUrl => .url x.packageUrl
  | .isDerived => .flag x.isDerived
  | .form => .value x.form
  | .same other =>
    match at? other with
    | some y => .flag (x.same y)
    | none => .nothing

/-- The attributes that a request makes beside those it is made to. -/
def made (kept : Kept) : Request → List Kept
  | .clone => [kept]
  | .overlay o => [{ now := kept.now.overlay o }]
  | _ => []

/-- Whether a request only reads. -/
def reads : Request → Bool
  | .effectiveUrl | .packageUrl | .isDerived | .form | .same _ => true
  | _ => false

end Request

/-- The attributes after a request to them. -/
def Kept.after (kept : Kept) (request : Request) : Kept :=
  ⟨request.effect kept.now, kept.past ++ [⟨kept.now, request⟩]⟩

/-- All attributes after an operation. What is made comes last. -/
def perform (all : List Kept) (operation : Operation) : List Kept :=
  match all[operation.place]? with
  | none => all
  | some kept => all.set operation.place (kept.after operation.request)
      ++ operation.request.made kept

/-- What an operation returns. -/
def returned (all : List Kept) (operation : Operation) : Answer :=
  match all[operation.place]? with
  | none => .nothing
  | some kept => operation.request.answer (fun place => all[place]?.map Kept.now) kept.now

/-- All attributes after operations one after the other. -/
def run (all : List Kept) (operations : List Operation) : List Kept :=
  operations.foldl perform all

/-- The requests that are made at a place. -/
def requestsAt (place : Nat) (operations : List Operation) : List Request :=
  (operations.filter fun operation => operation.place = place).map Operation.request

/-- Whether the URL is derived at a moment, unless it already is: it is asked for, and there is no
explicit URL with a content.
-/
def Moment.derives (moment : Moment) : Bool :=
  moment.request = .askUrl && (filled moment.before.downstreamUrl).isNone

/-- The package URL at the first moment at which the URL is derived. -/
def firstDerived (past : List Moment) : Option String :=
  (past.find? Moment.derives).map fun moment => moment.before.packageUrl

-----------------------------------------------------------------------------------------
-- One request
-----------------------------------------------------------------------------------------

/-- A request derives the URL or leaves the derived one as it is. -/
theorem derivedUrl_effect (x : Attributes) (request : Request)
    : (request.effect x).derivedUrl
      = if Moment.derives ⟨x, request⟩ then some (x.derivedUrl.getD x.packageUrl)
        else x.derivedUrl := by
  cases request with
  | assign assignment => simp [Request.effect, Moment.derives]
  | askUrl =>
      unfold Request.effect askUrl Moment.derives
      cases filled x.downstreamUrl <;> simp
  | _ => simp [Request.effect, Moment.derives]

theorem derivedUrl_effect_of_some {x : Attributes} {url : String}
    (derived : x.derivedUrl = some url) (request : Request)
    : (request.effect x).derivedUrl = some url := by
  rw [derivedUrl_effect]
  split
  · rw [derived, Option.getD_some]
  · exact derived

/-- The derived URL is the one of the first moment at which it was derived. -/
def Kept.Lawful (kept : Kept) : Prop :=
  kept.now.derivedUrl = firstDerived kept.past

/-- A later moment matters only if the URL was not derived before. -/
theorem firstDerived_append (past : List Moment) (moment : Moment)
    : firstDerived (past ++ [moment])
      = (firstDerived past).or
          (if moment.derives then some moment.before.packageUrl else none) := by
  unfold firstDerived
  rw [List.find?_append]
  cases past.find? Moment.derives <;> by_cases derives : moment.derives <;> simp [derives]

/-- A request keeps the law: it derives the URL now, or the first derivation was earlier. -/
theorem Kept.Lawful.after {kept : Kept} (lawful : kept.Lawful) (request : Request)
    : (kept.after request).Lawful := by
  unfold Lawful Kept.after
  rw [derivedUrl_effect, firstDerived_append, ← lawful]
  -- A URL that was derived before is the first one and stays, and else this request derives it.
  cases derived : kept.now.derivedUrl with
  | none => simp
  | some url => simp

/-- What a request makes beside is lawful: a clone by its past, and an overlay has none. -/
theorem Kept.Lawful.made {kept : Kept} (lawful : kept.Lawful) (request : Request)
    : ∀ other ∈ request.made kept, other.Lawful := by
  cases request with
  | clone => simpa [Request.made] using lawful
  | overlay o =>
      simp only [Request.made, List.mem_singleton, forall_eq]
      rfl
  | _ => simp [Request.made]

-----------------------------------------------------------------------------------------
-- Runs
-----------------------------------------------------------------------------------------

/-- An operation reaches the attributes at its place and leaves those at other places. -/
theorem getElem?_perform {all : List Kept} {place : Nat} {kept : Kept}
    (held : all[place]? = some kept) (operation : Operation)
    : (perform all operation)[place]?
      = some (if operation.place = place then kept.after operation.request else kept) := by
  have inside : place < all.length := (List.getElem?_eq_some_iff.mp held).1
  unfold perform
  cases target : all[operation.place]? with
  | none =>
      have other : operation.place ≠ place := by
        intro same
        simp [same, held] at target
      simp [other, held]
  | some reached =>
      simp only []
      rw [List.getElem?_append_left (by simpa using inside), List.getElem?_set]
      by_cases same : operation.place = place
      · have equal : reached = kept := by
          rw [same, held] at target
          exact (Option.some.inj target).symm
        simp [same, inside, equal]
      · simp [same, held]

/-- What becomes of attributes is decided by the requests to them alone. By induction over the
operations.
-/
theorem getElem?_run {all : List Kept} {place : Nat} {kept : Kept}
    (held : all[place]? = some kept) (operations : List Operation)
    : (run all operations)[place]?
      = some ((requestsAt place operations).foldl Kept.after kept) := by
  induction operations generalizing all kept with
  | nil => exact held
  | cons operation rest ih =>
      have step := getElem?_perform held operation
      rw [run, List.foldl_cons, ← run, ih step]
      by_cases same : operation.place = place <;> simp [requestsAt, same]

theorem lawful_perform {all : List Kept} (lawful : ∀ kept ∈ all, kept.Lawful)
    (operation : Operation)
    : ∀ kept ∈ perform all operation, kept.Lawful := by
  unfold perform
  split
  · exact lawful
  · next reached held =>
    have reachedLawful := lawful reached (List.mem_of_getElem? held)
    intro kept member
    -- Attributes are from before, or were just reached, or are made beside those.
    rcases List.mem_append.mp member with stored | made
    · rcases List.mem_or_eq_of_mem_set stored with before | rfl
      · exact lawful kept before
      · exact reachedLawful.after operation.request
    · exact reachedLawful.made operation.request kept made

/-- Runs keep all attributes lawful. By induction over the operations. -/
theorem lawful_run {all : List Kept} (lawful : ∀ kept ∈ all, kept.Lawful)
    (operations : List Operation)
    : ∀ kept ∈ run all operations, kept.Lawful := by
  induction operations generalizing all with
  | nil => exact lawful
  | cons operation rest ih => exact ih (lawful_perform lawful operation)

/-- A derived URL is kept by any requests. By induction over the requests. -/
theorem Kept.derivedUrl_foldl {kept : Kept} {url : String}
    (derived : kept.now.derivedUrl = some url) (requests : List Request)
    : (requests.foldl Kept.after kept).now.derivedUrl = some url := by
  induction requests generalizing kept with
  | nil => exact derived
  | cons request rest ih => exact ih (derivedUrl_effect_of_some derived request)

/-- An operation whose request has no effect changes none of the attributes, and what it makes
comes last.
-/
theorem map_now_perform {all : List Kept} {place : Nat} {kept : Kept} {request : Request}
    (held : all[place]? = some kept) (unchanged : request.effect kept.now = kept.now)
    : (perform all ⟨place, request⟩).map Kept.now
      = all.map Kept.now ++ (request.made kept).map Kept.now := by
  have same : (all.set place (kept.after request)).map Kept.now = all.map Kept.now := by
    rw [List.map_set]
    apply List.ext_getElem?
    intro other
    rw [List.getElem?_set]
    split
    · next asked =>
      subst asked
      obtain ⟨inside, found⟩ := List.getElem?_eq_some_iff.mp held
      simp [inside, found, Kept.after, unchanged]
    · rfl
  simp [perform, held, same]

/-- The downstream URL in every state of every run that starts without a derived one. The derived
URL is the package URL at the first moment at which it was asked for without an explicit one, and
stays for good. Asking returns the explicit URL with a content or else the derived one, which is
also what takes effect before asking, and requests that read change nothing. A clone has the
derived URL and the past of its origin, an overlay starts with neither, and afterwards each is
changed by the requests to it alone. Packages and jobs are resolved without a derived URL.
-/
theorem derivedUrl_of_run {start : Attributes} (fresh : start.derivedUrl = none)
    (operations : List Operation)
    : let all := run [{ now := start }] operations
      (∀ kept ∈ all, kept.now.derivedUrl = firstDerived kept.past)
      ∧ (∀ place kept, all[place]? = some kept
        → (∀ later, ∃ next,
            (run all later)[place]? = some next
            ∧ next = (requestsAt place later).foldl Kept.after kept
            ∧ ∀ url, kept.now.derivedUrl = some url → next.now.derivedUrl = some url)
          ∧ (∃ url next,
            returned all ⟨place, .askUrl⟩ = .url url
            ∧ (perform all ⟨place, .askUrl⟩)[place]? = some next
            ∧ (filled kept.now.downstreamUrl).or next.now.derivedUrl = some url
            ∧ returned all ⟨place, .effectiveUrl⟩ = .url url)
          ∧ (∀ request, request.reads
            → (perform all ⟨place, request⟩).map Kept.now = all.map Kept.now)
          ∧ ((perform all ⟨place, .clone⟩)[all.length]? = some kept
            ∧ (perform all ⟨place, .clone⟩).map Kept.now = all.map Kept.now ++ [kept.now])
          ∧ ∀ o,
            (perform all ⟨place, .overlay o⟩)[all.length]? = some ⟨kept.now.overlay o, []⟩
            ∧ (perform all ⟨place, .overlay o⟩).map Kept.now
              = all.map Kept.now ++ [kept.now.overlay o]
            ∧ (kept.now.overlay o).derivedUrl = none)
      ∧ ∀ (hints : Hints) (document : Value) (package : Package),
          (hints.resolve document).outcome = .ok package
          → package.attributes.derivedUrl = none
            ∧ ∀ job ∈ package.jobs, job.attributes.derivedUrl = none := by
  intro all
  have lawful : ∀ kept ∈ all, kept.Lawful := by
    refine lawful_run ?_ operations
    intro kept member
    rw [List.mem_singleton.mp member]
    exact fresh
  refine ⟨lawful, fun place kept held => ⟨?_, ?_, ?_, ?_, ?_⟩, ?_⟩
  · intro later
    exact ⟨_, getElem?_run held later, rfl, fun url derived => Kept.derivedUrl_foldl derived _⟩
  · refine ⟨kept.now.askUrl.1, kept.after .askUrl, ?_, ?_, returned_askUrl kept.now, ?_⟩
    · simp [returned, held, Request.answer]
    · rw [getElem?_perform held, if_pos rfl]
    · simp [returned, held, Request.answer, askUrl_eq, effectiveUrl_deriveUrl]
  · intro request reads
    have nothing : request.effect kept.now = kept.now ∧ request.made kept = [] := by
      cases request <;> simp [Request.reads] at reads <;> exact ⟨rfl, rfl⟩
    rw [map_now_perform held nothing.1, nothing.2, List.map_nil, List.append_nil]
  · refine ⟨?_, map_now_perform held rfl⟩
    simp [perform, held, Request.made]
  · intro o
    refine ⟨?_, map_now_perform held rfl, rfl⟩
    simp [perform, held, Request.made]
  · intro hints document package resolved
    have invariant := Hints.resolved_of_resolve resolved
    exact ⟨invariant.fresh, fun job member => (invariant.jobs job member).2.2⟩

/-- An explicit URL that hides the package URL until it is emptied. The namespace changes after the
package URL is derived, and before the attributes are cloned and laid over.
-/
theorem derivedUrl_of_run_emptied
    : let start : Attributes := { downstreamName := some "foo" }
      let operations : List Operation :=
        [⟨0, .assign (.downstreamUrl (some "https://example.com/foo.git"))⟩, ⟨0, .askUrl⟩,
          ⟨0, .assign (.downstreamUrl (some ""))⟩, ⟨0, .askUrl⟩,
          ⟨0, .assign (.distGitNamespace "modules")⟩, ⟨0, .clone⟩, ⟨1, .overlay {}⟩,
          ⟨1, .askUrl⟩, ⟨2, .effectiveUrl⟩]
      let all := run [{ now := start }] operations
      start.derivedUrl = none
      ∧ all.map (fun kept => kept.now.derivedUrl)
        = [some "https://src.fedoraproject.org/rpms/foo.git",
          some "https://src.fedoraproject.org/rpms/foo.git", none]
      ∧ ∀ kept ∈ all, kept.now.derivedUrl = firstDerived kept.past := by
  intro start operations all
  have fresh : start.derivedUrl = none := rfl
  exact ⟨fresh, by decide, (derivedUrl_of_run fresh operations).1⟩

end Packaging.Attributes
