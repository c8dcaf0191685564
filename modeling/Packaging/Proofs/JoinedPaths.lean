import Packaging.Proofs.Paths

/-! Paths to which segments are joined. They never hold a backslash, and they keep the spelling of
other paths unless a segment is joined to the path `.`, which puts a step in place at the front.
-/

namespace Packaging.Path

-----------------------------------------------------------------------------------------
-- One segment
-----------------------------------------------------------------------------------------

/-- A text with a step in place at its front. -/
def StartsInPlace (text : String) : Prop :=
  ∃ rest, text.toList = '.' :: '/' :: rest

theorem isNormal_iff {text : String}
    : IsNormal text ↔ '\\' ∉ text.toList ∧ ¬ StartsInPlace text :=
  ⟨fun normal => ⟨normal.backslash, fun ⟨rest, same⟩ => normal.dot rest same⟩,
    fun ⟨plain, still⟩ => ⟨plain, fun rest same => still ⟨rest, same⟩⟩⟩

theorem join_of_empty {base : Path} (empty : base.text = "") (segment : String)
    : base.join segment = ofString (String.ofList (slashed segment.toList)) := by
  rw [join, if_pos empty]

/-- Behind a path with content a segment stands as it is, after one slash. -/
theorem toList_join_of_ne {base : Path} (content : base.text ≠ "") (segment : String)
    : (base.join segment).text.toList
      = base.text.toList ++ (if base.text.toList.getLast? = some '/' then [] else ['/'])
        ++ slashed segment.toList := by
  rw [join, if_neg content]
  split
  · simp [String.toList_append]
  · simp [String.toList_append]

theorem notMem_join {base : Path} (plain : '\\' ∉ base.text.toList) (segment : String)
    : '\\' ∉ (base.join segment).text.toList := by
  by_cases empty : base.text = ""
  · rw [join_of_empty empty]
    exact (isNormal_text_ofString _).backslash
  · rw [toList_join_of_ne empty, List.mem_append, List.mem_append, not_or, not_or]
    refine ⟨⟨plain, ?_⟩, notMem_slashed _⟩
    split <;> decide

/-- A joined path starts with a step in place just when the path before it does or is `.`. -/
theorem startsInPlace_join_iff (base : Path) (segment : String)
    : StartsInPlace (base.join segment).text ↔ StartsInPlace base.text ∨ base.text = "." := by
  by_cases empty : base.text = ""
  · have still := (isNormal_iff.mp (isNormal_text_ofString
      (String.ofList (slashed segment.toList)))).2
    have noStep : ¬ StartsInPlace base.text := by
      rintro ⟨rest, same⟩
      simp [empty] at same
    have noDot : base.text ≠ "." := by
      rw [empty]
      decide
    rw [join_of_empty empty]
    simp only [still, noStep, noDot, or_self]
  · have same : base.text = "." ↔ base.text.toList = ['.'] := String.toList_inj.symm
    unfold StartsInPlace
    rw [toList_join_of_ne empty, same]
    -- Two characters tell, and a path of one character is followed by a slash.
    match characters : base.text.toList with
    | [] => exact absurd (String.toList_eq_nil_iff.mp characters) empty
    | [c] =>
        by_cases slash : c = '/'
        · simp [slash]
        · simp [slash]
    | c :: d :: rest => simp

/-- A path that is neither empty nor `.` does not become either of them. -/
theorem text_join_ne {base : Path} (content : base.text ≠ "") (other : base.text ≠ ".")
    (segment : String)
    : (base.join segment).text ≠ "" ∧ (base.join segment).text ≠ "." := by
  have characters : base.text.toList ≠ [] := mt String.toList_eq_nil_iff.mp content
  have more : base.text.toList ≠ ['.'] := fun same => other (String.toList_inj.mp same)
  have dot : (base.join segment).text = "." ↔ (base.join segment).text.toList = ['.'] :=
    String.toList_inj.symm
  rw [ne_eq, ne_eq, dot, ← String.toList_eq_nil_iff, toList_join_of_ne content, List.append_assoc]
  constructor
  · intro empty
    exact characters (List.append_eq_nil_iff.mp empty).1
  · intro single
    rcases List.append_eq_singleton_iff.mp single with ⟨empty, _⟩ | ⟨same, _⟩
    · exact characters empty
    · exact more same

-----------------------------------------------------------------------------------------
-- Several segments
-----------------------------------------------------------------------------------------

/-- The path that is made from another one by joining segments one after another. -/
def joined (start : Path) (segments : List String) : Path :=
  segments.foldl join start

/-- A segment is joined to the path `.` on the way. -/
def JoinedToDot (start : Path) (segments : List String) : Prop :=
  ∃ before segment after,
    segments = before ++ segment :: after ∧ (start.joined before).text = "."

/-- No segment brings a backslash. By induction over the segments. -/
theorem notMem_joined {start : Path} (plain : '\\' ∉ start.text.toList) (segments : List String)
    : '\\' ∉ (start.joined segments).text.toList := by
  induction segments generalizing start with
  | nil => exact plain
  | cons segment rest ih => exact ih (notMem_join plain segment)

theorem not_joinedToDot_nil (start : Path)
    : ¬ start.JoinedToDot [] := by
  rintro ⟨before, segment, after, split, _⟩
  simp at split

theorem joinedToDot_cons_iff {start : Path} {segment : String} {rest : List String}
    : start.JoinedToDot (segment :: rest)
      ↔ start.text = "." ∨ (start.join segment).JoinedToDot rest := by
  constructor
  · rintro ⟨before, other, after, split, dot⟩
    cases before with
    | nil => exact .inl dot
    | cons first more =>
        obtain ⟨rfl, further⟩ := List.cons.inj split
        exact .inr ⟨more, other, after, further, dot⟩
  · rintro (dot | ⟨before, other, after, rfl, dot⟩)
    · exact ⟨[], segment, rest, rfl, dot⟩
    · exact ⟨segment :: before, other, after, rfl, dot⟩

/-- A path that is neither empty nor `.` at the start is never `.` on the way. By induction over the
segments.
-/
theorem not_joinedToDot_of_ne {start : Path} (content : start.text ≠ "")
    (other : start.text ≠ ".") (segments : List String)
    : ¬ start.JoinedToDot segments := by
  induction segments generalizing start with
  | nil => exact not_joinedToDot_nil start
  | cons segment rest ih =>
      obtain ⟨contentNext, otherNext⟩ := text_join_ne content other segment
      rw [joinedToDot_cons_iff, not_or]
      exact ⟨other, ih contentNext otherNext⟩

/-- A step in place comes from the path at the start or from a `.` on the way, and stays. By
induction over the segments.
-/
theorem startsInPlace_joined_iff {start : Path} {segments : List String}
    : StartsInPlace (start.joined segments).text
      ↔ StartsInPlace start.text ∨ start.JoinedToDot segments := by
  induction segments generalizing start with
  | nil =>
      rw [or_iff_left (not_joinedToDot_nil start)]
      rfl
  | cons segment rest ih =>
      rw [joinedToDot_cons_iff, ← or_assoc, ← startsInPlace_join_iff start segment]
      exact ih

theorem isNormal_joined_iff {text : String} {segments : List String}
    : IsNormal ((ofString text).joined segments).text
      ↔ ¬ (ofString text).JoinedToDot segments := by
  have start := isNormal_iff.mp (isNormal_text_ofString text)
  rw [isNormal_iff, startsInPlace_joined_iff, or_iff_right start.2]
  exact and_iff_right (notMem_joined start.1 segments)

/-- A path that is spelled by a text and then joined with segments holds no backslash. It starts
with a step in place just when a segment was joined to `.` on the way, which never happens to a path
that is neither empty nor `.` at the start. So it spells itself just when that did not happen, and
paths to which it did not are equal when they spell the same.
-/
theorem joined_paths_normal (text : String) (segments : List String)
    : '\\' ∉ ((ofString text).joined segments).text.toList
      ∧ (StartsInPlace ((ofString text).joined segments).text
        ↔ (ofString text).JoinedToDot segments)
      ∧ ((ofString text).text ≠ ""
        → (ofString text).text ≠ "."
        → ¬ (ofString text).JoinedToDot segments)
      ∧ (ofString ((ofString text).joined segments).text = (ofString text).joined segments
        ↔ ¬ (ofString text).JoinedToDot segments)
      ∧ (¬ (ofString text).JoinedToDot segments
        → ∀ other more,
            ¬ (ofString other).JoinedToDot more
            → ofString ((ofString text).joined segments).text
              = ofString ((ofString other).joined more).text
            → (ofString text).joined segments = (ofString other).joined more) := by
  have start := isNormal_iff.mp (isNormal_text_ofString text)
  refine ⟨notMem_joined start.1 segments, ?_, fun content other => ?_, ?_, ?_⟩
  · rw [startsInPlace_joined_iff, or_iff_right start.2]
  · exact not_joinedToDot_of_ne content other segments
  · rw [← isNormal_joined_iff, ← ofString_eq_iff_isNormal]
  · intro kept other more keptOther same
    have one := isNormal_joined_iff.mpr kept
    have two := isNormal_joined_iff.mpr keptOther
    exact congrArg mk (one.eq_of_ofString_eq two same)

/-- A `.` behind another path changes nothing, and at the start it is kept as a step in place. -/
theorem joined_paths_normal_behind_dot
    : ofString ((ofString "./a\\b").joined [".", "c"]).text = (ofString "a/b").joined [".", "c"]
      ∧ StartsInPlace ((ofString ".").joined ["foo.spec"]).text := by
  constructor
  · obtain ⟨_, _, kept, normal, _⟩ := joined_paths_normal "./a\\b" [".", "c"]
    exact normal.mpr (kept (by decide) (by decide))
  · refine (joined_paths_normal "." ["foo.spec"]).2.1.mpr ?_
    exact joinedToDot_cons_iff.mpr (.inl (by decide))

end Packaging.Path
