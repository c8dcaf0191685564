/-! The pieces of a text between separators. Joining the pieces gives the text back, so nothing
but the separators is lost.
-/

namespace Packaging.Text

/-- The pieces between the elements that separate. There is one piece more than separators. -/
def pieces {α : Type} (separates : α → Bool) : List α → List (List α)
  | [] => [[]]
  | c :: rest =>
    if separates c then [] :: pieces separates rest
    else
      match pieces separates rest with
      | [] => [[c]]
      | piece :: others => (c :: piece) :: others

/-- There is always a piece. -/
theorem pieces_ne_nil {α : Type} (separates : α → Bool) (text : List α)
    : pieces separates text ≠ [] := by
  cases text with
  | nil => simp [pieces]
  | cons c rest =>
    unfold pieces
    split
    · simp
    · split <;> simp

/-- No piece holds a separator, by induction over the text. -/
theorem separates_of_mem_pieces {α : Type} {separates : α → Bool} {text piece : List α}
    (member : piece ∈ pieces separates text)
    : ∀ c ∈ piece, separates c = false := by
  induction text generalizing piece with
  | nil => simp_all [pieces]
  | cons c rest ih =>
    unfold pieces at member
    split at member
    · rcases List.mem_cons.1 member with rfl | member
      · simp
      · exact ih member
    · next hc =>
      split at member
      · simp_all
      · next first others heq =>
        rcases List.mem_cons.1 member with rfl | member
        · intro d hd
          rcases List.mem_cons.1 hd with rfl | hd
          · simpa using hc
          · exact ih (heq ▸ List.mem_cons_self) d hd
        · exact ih (heq ▸ List.mem_cons_of_mem _ member)

/-- A separator ends the pieces before it, by induction over the text before it. -/
theorem pieces_append {α : Type} {separates : α → Bool} {c : α} (ends : separates c = true)
    (before after : List α)
    : pieces separates (before ++ c :: after)
      = pieces separates before ++ pieces separates after := by
  induction before with
  | nil => simp [pieces, ends]
  | cons d rest ih =>
    rw [List.cons_append, pieces, pieces, ih]
    split
    · rfl
    · obtain ⟨first, others, split⟩ := List.exists_cons_of_ne_nil (pieces_ne_nil separates rest)
      simp [split]

/-- A text without separators is its own piece. -/
theorem pieces_of_forall {α : Type} {separates : α → Bool} {text : List α}
    (plain : ∀ c ∈ text, separates c = false)
    : pieces separates text = [text] := by
  induction text with
  | nil => rfl
  | cons c rest ih =>
    obtain ⟨first, others⟩ := List.forall_mem_cons.1 plain
    simp [pieces, first, ih others]

/-- What holds no separator only lengthens the first piece after it. -/
theorem pieces_append_of_forall {α : Type} {separates : α → Bool} {before after first : List α}
    {others : List (List α)} (plain : ∀ c ∈ before, separates c = false)
    (split : pieces separates after = first :: others)
    : pieces separates (before ++ after) = (before ++ first) :: others := by
  induction before with
  | nil => exact split
  | cons c rest ih =>
    obtain ⟨own, further⟩ := List.forall_mem_cons.1 plain
    simp [pieces, own, ih further]

/-- The first piece ends at the first separator. -/
theorem head?_pieces {α : Type} (separates : α → Bool) (text : List α)
    : (pieces separates text).head? = some (text.takeWhile fun c => !separates c) := by
  induction text with
  | nil => rfl
  | cons c rest ih =>
    obtain ⟨first, others, split⟩ := List.exists_cons_of_ne_nil (pieces_ne_nil separates rest)
    rw [split] at ih
    cases own : separates c with
    | true => simp [pieces, own]
    | false => simpa [pieces, own, split] using ih

end Packaging.Text
