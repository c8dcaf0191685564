/-! Search for a part of a text. The first place where the part stands counts.
-/

namespace Packaging.Text

/-- The text after the first place where a part stands. -/
def after? (part : List Char) : List Char → Option (List Char)
  | [] => if part.isEmpty then some [] else none
  | c :: rest =>
    if part.isPrefixOf (c :: rest) then some ((c :: rest).drop part.length) else after? part rest

/-- Whether a part stands somewhere in a text. -/
def occurs (part text : List Char) : Bool :=
  (after? part text).isSome

/-- The text after a part at the front of a text. -/
def afterFront? (front text : List Char) : Option (List Char) :=
  if front.isPrefixOf text then some (text.drop front.length) else none

/-- The text before the last place where a part stands. -/
def beforeLast? (part text : List Char) : Option (List Char) :=
  (after? part.reverse text.reverse).map List.reverse

/-- A part stands in a text exactly if the text is the part between two others, by induction over
the text.
-/
theorem occurs_iff {part text : List Char}
    : occurs part text = true ↔ ∃ before after, text = before ++ part ++ after := by
  unfold occurs
  induction text with
  | nil =>
    cases part <;> simp [after?]
  | cons c rest ih =>
    unfold after?
    split
    · next front =>
      obtain ⟨after, h⟩ := List.isPrefixOf_iff_prefix.1 front
      exact ⟨fun _ => ⟨[], after, by simpa using h.symm⟩, fun _ => rfl⟩
    · next front =>
      rw [ih]
      constructor
      · rintro ⟨before, after, rfl⟩
        exact ⟨c :: before, after, by simp⟩
      · rintro ⟨before, after, h⟩
        cases before with
        | nil => exact absurd (List.isPrefixOf_iff_prefix.2 ⟨after, by simpa using h.symm⟩) front
        | cons d before =>
          simp only [List.cons_append, List.cons.injEq] at h
          exact ⟨before, after, h.2⟩

end Packaging.Text
