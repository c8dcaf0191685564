import Packaging.Document.Format
import Packaging.Proofs.Document.Ordered

/-! Documents are read into ordered trees, whatever their format. Entries are only ever inserted in
their place, so the readers keep every open mapping in ascending order.
-/

namespace Packaging

open Value

-----------------------------------------------------------------------------------------
-- JSON
-----------------------------------------------------------------------------------------

namespace Json

/-- A numeral stands for a scalar. -/
theorem Numeral.ordered_value? {numeral : Numeral} {value : Value}
    (read : numeral.value? = some value)
    : value.Ordered := by
  simp only [Numeral.value?] at read
  split at read
  · cases read
    trivial
  split at read
  · cases read
    trivial
  · obtain ⟨bits, _, rfl⟩ := Option.map_eq_some_iff.mp read
    trivial

/-- A word that stands for a value stands for a scalar. -/
theorem ordered_word? {word : List Char} {value : Value} (read : word? word = some value)
    : value.Ordered := by
  unfold word? at read
  split at read
  · cases read
    trivial
  split at read
  · cases read
    trivial
  split at read
  · cases read
    trivial
  · obtain ⟨numeral, _, given⟩ := Option.bind_eq_some_iff.mp read
    exact numeral.ordered_value? given

/-- The value of a token is ordered, if it has one. -/
def Token.Ordered : Token → Prop
  | .scalar value => value.Ordered
  | _ => True

theorem ordered_openToken {tokens after : List Token} {next : Pending} {c : Char}
    (ordered : ∀ token ∈ tokens, token.Ordered)
    (read : openToken tokens c = some (after, next))
    : ∀ token ∈ after, token.Ordered := by
  have mark (token : Token) (plain : token.Ordered)
      : ∀ other ∈ token :: tokens, other.Ordered :=
    List.forall_mem_cons.mpr ⟨plain, ordered⟩
  unfold openToken at read
  split at read
  case h_12 =>
    split at read
    · cases read
      exact ordered
    · simp at read
  all_goals
    cases read
    first
    | exact ordered
    | exact mark _ trivial

/-- One more character adds only ordered tokens. -/
theorem ordered_lexChar {state after : List Token × Pending} {c : Char}
    (ordered : ∀ token ∈ state.1, token.Ordered) (read : lexChar state c = some after)
    : ∀ token ∈ after.1, token.Ordered := by
  obtain ⟨tokens, pending⟩ := state
  obtain ⟨more, next⟩ := after
  cases pending with
  | nothing => exact ordered_openToken ordered read
  | word collected =>
      simp only [lexChar] at read
      split at read
      · cases read
        exact ordered
      · obtain ⟨value, word, opened⟩ := Option.bind_eq_some_iff.mp read
        have closed : (Token.scalar value).Ordered := ordered_word? word
        exact ordered_openToken (List.forall_mem_cons.mpr ⟨closed, ordered⟩) opened
  | text collected =>
      simp only [lexChar] at read
      split at read
      · cases read
        exact List.forall_mem_cons.mpr ⟨trivial, ordered⟩
      split at read
      · cases read
        exact ordered
      split at read
      · simp at read
      · cases read
        exact ordered
  | escape collected =>
      simp only [lexChar] at read
      split at read
      · cases read
        exact ordered
      · obtain ⟨_, _, same⟩ := Option.map_eq_some_iff.mp read
        cases same
        exact ordered
  | unit collected high number count =>
      obtain ⟨digit, _, rest⟩ := Option.bind_eq_some_iff.mp read
      simp only [] at rest
      split at rest
      · cases rest
        exact ordered
      · obtain ⟨_, _, same⟩ := Option.map_eq_some_iff.mp rest
        cases same
        exact ordered
  | half collected high =>
      simp only [lexChar] at read
      split at read
      · cases read
        exact ordered
      · simp at read
  | halfEscape collected high =>
      simp only [lexChar] at read
      split at read
      · cases read
        exact ordered
      · simp at read

/-- What every step keeps holds after all steps. By induction over what is read. -/
theorem foldlM_keeps {σ α : Type} (P : σ → Prop) {step : σ → α → Option σ} {items : List α}
    (keeps
      : ∀ item ∈ items, ∀ state next, P state → step state item = some next → P next)
    {state final : σ} (start : P state) (read : items.foldlM step state = some final)
    : P final := by
  induction items generalizing state with
  | nil =>
      cases read
      exact start
  | cons item rest ih =>
      rw [List.foldlM_cons] at read
      obtain ⟨next, stepped, others⟩ := Option.bind_eq_some_iff.mp read
      obtain ⟨first, later⟩ := List.forall_mem_cons.mp keeps
      exact ih later (first state next start stepped) others

theorem ordered_tokens? {text : List Char} {tokens : List Token}
    (read : tokens? text = some tokens)
    : ∀ token ∈ tokens, token.Ordered := by
  obtain ⟨⟨more, pending⟩, lexed, closed⟩ := Option.bind_eq_some_iff.mp read
  have ordered : ∀ token ∈ more, token.Ordered :=
    foldlM_keeps (fun state : List Token × Pending => ∀ token ∈ state.1, token.Ordered)
      (fun _ _ _ _ before step => ordered_lexChar before step) (by simp) lexed
  cases pending with
  | nothing =>
      cases closed
      simpa using ordered
  | word collected =>
      obtain ⟨value, word, same⟩ := Option.bind_eq_some_iff.mp closed
      cases same
      intro token member
      rcases List.mem_cons.mp (List.mem_reverse.mp member) with rfl | earlier
      · exact ordered_word? word
      · exact ordered token earlier
  | _ => simp at closed

/-- An open collection is ordered as far as it is read. -/
def Frame.Ordered : Frame → Prop
  | .items done => OrderedItems done
  | .entries done _ => Fields.Ascending done ∧ OrderedEntries done

/-- A reading is ordered: so are its open collections, and its result where it has one. -/
structure Reading.Ordered (reading : Reading) : Prop where
  frames : ∀ frame ∈ reading.frames, frame.Ordered
  result : ∀ value, reading.expecting = .nothing value → value.Ordered

namespace Reading

/-- A reading that is not complete is ordered when its open collections are. -/
theorem ordered_of_frames {frames : List Frame} {expecting : Expecting}
    (ordered : ∀ frame ∈ frames, frame.Ordered)
    (incomplete : ∀ value, expecting ≠ .nothing value)
    : Ordered ⟨frames, expecting⟩ :=
  ⟨ordered, fun value same => absurd same (incomplete value)⟩

/-- An ordered value is put into its place. -/
theorem ordered_deliver {frames : List Frame} {value : Value}
    (ordered : ∀ frame ∈ frames, frame.Ordered) (given : value.Ordered)
    : (deliver frames value).Ordered := by
  unfold deliver
  split
  · refine ⟨by simp, ?_⟩
    intro other same
    cases same
    exact given
  · next done outer =>
    obtain ⟨inner, others⟩ := List.forall_mem_cons.mp ordered
    refine ordered_of_frames (List.forall_mem_cons.mpr ⟨?_, others⟩) (by simp)
    exact ⟨given, inner⟩
  · next done key outer =>
    obtain ⟨⟨ascending, inner⟩, others⟩ := List.forall_mem_cons.mp ordered
    refine ordered_of_frames (List.forall_mem_cons.mpr ⟨?_, others⟩) (by simp)
    exact ⟨ascending.insert key value, OrderedEntries.insert inner given key⟩

theorem ordered_openValue {frames : List Frame} {token : Token} {next : Reading}
    (ordered : ∀ frame ∈ frames, frame.Ordered) (plain : token.Ordered)
    (read : openValue frames token = some next)
    : next.Ordered := by
  have entered {frame : Frame} {expecting : Expecting} (empty : frame.Ordered)
      (incomplete : ∀ value, expecting ≠ .nothing value)
      (read : enter frames frame expecting = some next)
      : next.Ordered := by
    unfold enter at read
    split at read
    · cases read
      exact ordered_of_frames (List.forall_mem_cons.mpr ⟨empty, ordered⟩) incomplete
    · simp at read
  unfold openValue at read
  split at read
  · cases read
    exact ordered_deliver ordered plain
  · have empty : (Frame.items []).Ordered := trivial
    exact entered empty (by simp) read
  · have empty : (Frame.entries [] "").Ordered := ⟨List.Pairwise.nil, trivial⟩
    exact entered empty (by simp) read
  · simp at read

theorem ordered_close {frames : List Frame} {token : Token} {next : Reading}
    (ordered : ∀ frame ∈ frames, frame.Ordered) (read : close frames token = some next)
    : next.Ordered := by
  unfold close at read
  split at read
  · next done outer =>
    obtain ⟨inner, others⟩ := List.forall_mem_cons.mp ordered
    cases read
    refine ordered_deliver others ?_
    rw [ordered_list_iff]
    intro item member
    exact orderedItems_iff.mp inner item (List.mem_reverse.mp member)
  · next done key outer =>
    obtain ⟨inner, others⟩ := List.forall_mem_cons.mp ordered
    cases read
    exact ordered_deliver others inner
  · simp at read

theorem ordered_takeKey {frames : List Frame} {token : Token} {next : Reading}
    (ordered : ∀ frame ∈ frames, frame.Ordered) (read : takeKey frames token = some next)
    : next.Ordered := by
  unfold takeKey at read
  split at read
  · obtain ⟨inner, others⟩ := List.forall_mem_cons.mp ordered
    cases read
    exact ordered_of_frames (List.forall_mem_cons.mpr ⟨inner, others⟩) (by simp)
  · simp at read

/-- A token keeps the reading ordered. -/
theorem Ordered.step {reading next : Reading} {token : Token} (ordered : reading.Ordered)
    (plain : token.Ordered) (read : reading.step token = some next)
    : next.Ordered := by
  have frames := ordered.frames
  unfold Reading.step at read
  split at read
  · exact ordered_openValue frames plain read
  · exact ordered_close frames read
  · exact ordered_openValue frames plain read
  · exact ordered_takeKey frames read
  · exact ordered_close frames read
  · exact ordered_takeKey frames read
  · cases read
    exact ordered_of_frames frames (by simp)
  · dsimp only at read
    split at read
    · cases read
      exact ordered_of_frames frames (by simp)
    · cases read
      exact ordered_of_frames frames (by simp)
    · simp at read
  · exact ordered_close frames read
  · simp at read

end Reading

/-- A JSON text is read into an ordered tree. -/
theorem ordered_read? {text : String} {value : Value} (read : read? text = some value)
    : value.Ordered := by
  obtain ⟨tokens, lexed, parsed⟩ := Option.bind_eq_some_iff.mp read
  obtain ⟨reading, folded, closed⟩ := Option.bind_eq_some_iff.mp parsed
  have ordered : reading.Ordered :=
    foldlM_keeps Reading.Ordered
      (fun token member _ _ before step => before.step (ordered_tokens? lexed token member) step)
      (Reading.ordered_of_frames (by simp) (by simp)) folded
  split at closed
  · next result complete =>
    cases closed
    exact ordered.result _ complete
  · simp at closed

end Json

-----------------------------------------------------------------------------------------
-- YAML
-----------------------------------------------------------------------------------------

namespace Yaml

/-- Whatever a counted reading gives has the property. -/
def Counted.Gives {α : Type} (reading : Counted α) (P : α → Prop) : Prop :=
  ∀ count result, reading count = some result → P result.1

namespace Counted.Gives

variable {α β : Type} {P : α → Prop} {Q : β → Prop}

theorem pure {value : α} (holds : P value)
    : Gives (Pure.pure value) P := by
  intro count result read
  cases read
  exact holds

theorem failure
    : Gives (Alternative.failure : Counted α) P := by
  intro count result read
  cases read

/-- A sequence gives what its second part does after a value that the first part gives. -/
theorem bind {first : Counted α} {next : α → Counted β} (gives : first.Gives P)
    (continues : ∀ value, P value → (next value).Gives Q)
    : Gives (first >>= next) Q := by
  intro count result read
  obtain ⟨⟨value, later⟩, started, rest⟩ := Option.bind_eq_some_iff.mp read
  exact continues value (gives count _ started) later result rest

theorem map {first : Counted α} {change : α → β} (gives : first.Gives P)
    (changes : ∀ value, P value → Q (change value))
    : Gives (change <$> first) Q := by
  intro count result read
  obtain ⟨⟨value, later⟩, started, same⟩ := Option.bind_eq_some_iff.mp read
  cases same
  exact changes value (gives count _ started)

theorem any (reading : Counted α)
    : reading.Gives fun _ => True :=
  fun _ _ _ => trivial

theorem lift {read? : Option α} (holds : ∀ value, read? = some value → P value)
    : Gives (StateT.lift read?) P := by
  intro count result read
  obtain ⟨value, found, same⟩ := Option.bind_eq_some_iff.mp read
  cases same
  exact holds value found

/-- Each item of a list is given by the reading of it. By induction over the list. -/
theorem mapM {read : β → Counted α} {items : List β} (gives : ∀ item, (read item).Gives P)
    : Gives (items.mapM read) fun values => ∀ value ∈ values, P value := by
  induction items with
  | nil =>
      rw [List.mapM_nil]
      exact pure (by simp)
  | cons item rest ih =>
      rw [List.mapM_cons]
      refine (gives item).bind fun first firstHolds => ih.bind fun others othersHold => ?_
      exact pure (List.forall_mem_cons.mpr ⟨firstHolds, othersHold⟩)

/-- What every step keeps is given in the end. By induction over the list. -/
theorem foldlM {step : α → β → Counted α} {items : List β}
    (keeps : ∀ value item, P value → (step value item).Gives P) {start : α} (holds : P start)
    : Gives (items.foldlM step start) P := by
  induction items generalizing start with
  | nil => exact pure holds
  | cons item rest ih =>
      rw [List.foldlM_cons]
      exact (keeps start item holds).bind fun next nextHolds => ih nextHolds

end Counted.Gives

/-- A text that stands for a real number stands for a scalar. -/
theorem ordered_real? {content : List Char} {value : Value} (read : real? content = some value)
    : value.Ordered := by
  unfold real? at read
  split at read
  · cases read
    trivial
  split at read
  all_goals
    obtain ⟨bits, _, rfl⟩ := Option.map_eq_some_iff.mp read
    trivial

theorem ordered_integerValue? {n : Int} {value : Value} (read : integerValue? n = some value)
    : value.Ordered := by
  unfold integerValue? at read
  split at read
  · cases read
    trivial
  · simp at read

/-- A plain scalar stands for a scalar. -/
theorem ordered_plainValue? {content : List Char} {value : Value}
    (read : plainValue? content = some value)
    : value.Ordered := by
  unfold plainValue? at read
  split at read
  · cases read
    trivial
  split at read
  · cases read
    trivial
  split at read
  · exact ordered_integerValue? read
  · next noInteger =>
    have real {found : Option Value} (read : found = real? content ∨ found = none)
        : (found.getD (.text (String.ofList content))).Ordered := by
      cases found with
      | none => trivial
      | some value => exact ordered_real? (read.resolve_right (by simp)).symm
    cases read
    refine real ?_
    split
    · exact Or.inr rfl
    · exact Or.inl rfl

theorem ordered_taggedValue? {tag content : List Char} {value : Value}
    (read : taggedValue? tag content = some value)
    : value.Ordered := by
  unfold taggedValue? at read
  split at read
  · simp at read
  split at read
  · obtain ⟨given, _, rfl⟩ := Option.map_eq_some_iff.mp read
    trivial
  split at read
  · obtain ⟨number, _, given⟩ := Option.bind_eq_some_iff.mp read
    exact ordered_integerValue? given
  split at read
  · exact ordered_real? read
  split at read
  · split at read
    · cases read
      trivial
    · simp at read
  · cases read
    trivial

/-- A scalar is ordered. -/
theorem ordered_scalarValue? {tag : Option (List Char)} {plain : Bool} {content : List Char}
    {value : Value} (read : scalarValue? tag plain content = some value)
    : value.Ordered := by
  unfold scalarValue? at read
  split at read
  · exact ordered_taggedValue? read
  · split at read
    · exact ordered_plainValue? read
    · cases read
      trivial

/-- A node gives an ordered tree. By induction over how deep it may be nested. -/
theorem Context.gives_value (context : Context) (depth : Nat) (node : Node Nat)
    : (context.value depth node).Gives Ordered := by
  induction depth generalizing node with
  | zero =>
      unfold Context.value
      refine (Counted.Gives.any (context.follow node)).bind fun target _ => ?_
      cases target with
      | scalar anchor tag plain content =>
          exact Counted.Gives.lift fun value read => ordered_scalarValue? read
      | _ => exact Counted.Gives.failure
  | succ depth ih =>
      unfold Context.value
      refine (Counted.Gives.any (context.follow node)).bind fun target _ => ?_
      cases target with
      | scalar anchor tag plain content =>
          exact Counted.Gives.lift fun value read => ordered_scalarValue? read
      | sequence anchor tag items =>
          dsimp only
          split
          · exact (Counted.Gives.mapM ih).map fun values ordered => ordered_list_iff.mpr ordered
          · exact Counted.Gives.failure
      | mapping anchor tag entries =>
          dsimp only
          split
          · refine Counted.Gives.bind
              (?_ : Counted.Gives _ fun fields => Fields.Ascending fields ∧ OrderedEntries fields)
              fun fields ordered => Counted.Gives.pure ordered
            -- An entry that is read goes to its place among those before it.
            refine Counted.Gives.foldlM (fun fields entry ordered => ?_)
              ⟨List.Pairwise.nil, trivial⟩
            obtain ⟨ascending, values⟩ := ordered
            refine (Counted.Gives.any (context.key entry.1)).bind fun key _ => ?_
            refine (ih entry.2).bind fun item given => ?_
            exact Counted.Gives.pure ⟨ascending.insert key item, values.insert given key⟩
          · exact Counted.Gives.failure
      | _ => exact Counted.Gives.failure

/-- A YAML text is read into an ordered tree. -/
theorem ordered_read? {text : String} {value : Value} (read : read? text = some value)
    : value.Ordered := by
  obtain ⟨tokens, _, parsed⟩ := Option.bind_eq_some_iff.mp read
  obtain ⟨document?, _, given⟩ := Option.bind_eq_some_iff.mp parsed
  cases document? with
  | none =>
      cases given
      trivial
  | some document =>
      obtain ⟨⟨names, node⟩, _, found⟩ := Option.bind_eq_some_iff.mp given
      obtain ⟨result, counted, same⟩ := Option.map_eq_some_iff.mp found
      subst same
      exact Context.gives_value _ _ node 0 result counted

end Yaml

-----------------------------------------------------------------------------------------
-- Formats
-----------------------------------------------------------------------------------------

/-- Whatever the format of a document is, it is read into an ordered tree. -/
theorem Format.ordered_read? {format : Format} {text : String} {value : Value}
    (read : format.read? text = some value)
    : value.Ordered := by
  cases format with
  | yaml => exact Yaml.ordered_read? read
  | json => exact Json.ordered_read? read

end Packaging
