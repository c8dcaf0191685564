import Packaging.Error
import Packaging.Lookup.ConfigName

/-! Spellings of paths, and names and extensions of joined ones. What a name is joined to never
changes what the name says about its file.
-/

namespace Packaging

namespace Path

/-- A name that is one component: it has content and no slash of either sort. -/
structure IsSegment (segment : String) : Prop where
  content : segment ≠ ""
  slash : '/' ∉ segment.toList
  backslash : '\\' ∉ segment.toList

/-- A text without backslashes stays as it is. -/
theorem slashed_of_notMem {text : List Char} (plain : '\\' ∉ text)
    : slashed text = text := by
  induction text with
  | nil => rfl
  | cons c rest ih =>
      rw [List.mem_cons, not_or] at plain
      have tail : slashed rest = rest := ih plain.2
      rw [slashed, List.map_cons, if_neg (Ne.symm plain.1)]
      exact congrArg (c :: ·) tail

theorem notMem_slashed (text : List Char)
    : '\\' ∉ slashed text := by
  rw [slashed, List.mem_map]
  rintro ⟨c, _, turned⟩
  split at turned
  · cases turned
  · next other => exact other turned

/-- Without a step in place at its front a text stays as it is. -/
theorem withoutDot_of_ne {text : List Char} (still : ∀ rest, text ≠ '.' :: '/' :: rest)
    : withoutDot text = text := by
  unfold withoutDot
  split
  · next rest => exact absurd rfl (still rest)
  · rfl

/-- No step in place is left. By induction over those that are left out. -/
theorem withoutDot_ne (text rest : List Char)
    : withoutDot text ≠ '.' :: '/' :: rest := by
  fun_induction withoutDot text with
  | case1 more ih => exact ih
  | case2 text still => exact still rest

theorem withoutDot_suffix (text : List Char)
    : withoutDot text <:+ text := by
  fun_induction withoutDot text with
  | case1 rest ih => exact ih.trans ⟨['.', '/'], rfl⟩
  | case2 text _ => exact List.suffix_refl text

/-- A text in the spelling that paths are kept in: forward slashes, and no `./` at the front. -/
structure IsNormal (text : String) : Prop where
  backslash : '\\' ∉ text.toList
  dot : ∀ rest, text.toList ≠ '.' :: '/' :: rest

/-- Every path is kept in this spelling. -/
theorem isNormal_text_ofString (text : String)
    : IsNormal (ofString text).text := by
  rw [ofString]
  constructor
  · rw [String.toList_ofList]
    exact fun member => notMem_slashed _ ((withoutDot_suffix _).subset member)
  · intro rest
    rw [String.toList_ofList]
    exact withoutDot_ne _ rest

/-- The texts in this spelling are those that spell themselves. -/
theorem ofString_eq_iff_isNormal {text : String}
    : ofString text = ⟨text⟩ ↔ IsNormal text := by
  constructor
  · intro same
    have kept := isNormal_text_ofString text
    rwa [same] at kept
  · intro normal
    rw [ofString, slashed_of_notMem normal.backslash, withoutDot_of_ne normal.dot,
      String.ofList_toList]

/-- Texts in this spelling that spell the same path are equal. -/
theorem IsNormal.eq_of_ofString_eq {first second : String} (one : IsNormal first)
    (other : IsNormal second) (same : ofString first = ofString second)
    : first = second := by
  rw [ofString_eq_iff_isNormal.mpr one, ofString_eq_iff_isNormal.mpr other] at same
  exact Path.mk.inj same

theorem IsSegment.isNormal {segment : String} (single : IsSegment segment)
    : IsNormal segment where
  backslash := single.backslash
  dot rest same := single.slash (by simp [same])

theorem ofString_of_isSegment {segment : String} (single : IsSegment segment)
    : ofString segment = ⟨segment⟩ :=
  ofString_eq_iff_isNormal.mpr single.isNormal

/-- On the empty path a name is itself, and elsewhere it stands behind a slash. -/
theorem text_join (base : Path) {segment : String} (single : IsSegment segment)
    : (base.join segment).text = segment
      ∨ ∃ before, (base.join segment).text.toList = before ++ '/' :: segment.toList := by
  have same : String.ofList (slashed segment.toList) = segment := by
    rw [slashed_of_notMem single.backslash, String.ofList_toList]
  unfold join
  simp only [same]
  split
  · exact Or.inl (by rw [ofString_of_isSegment single])
  · split
    · next slash =>
      obtain ⟨before, split⟩ := List.getLast?_eq_some_iff.mp slash
      exact Or.inr ⟨before, by simp [String.toList_append, split]⟩
    · exact Or.inr ⟨base.text.toList, by simp [String.toList_append]⟩

/-- A path that starts from the root stays as it is, unless it has backslashes. -/
theorem ofString_of_root {path : String} (root : path.toList.head? = some '/')
    (plain : '\\' ∉ path.toList)
    : ofString path = ⟨path⟩ := by
  obtain ⟨rest, split⟩ := List.head?_eq_some_iff.mp root
  exact ofString_eq_iff_isNormal.mpr ⟨plain, by simp [split]⟩

/-- The last component of a text is what stands behind its last slash. -/
theorem reversedName_of_slash {name : List Char} (content : name ≠ []) (plain : '/' ∉ name)
    {text : List Char} (last : text = name ∨ ∃ before, text = before ++ '/' :: name)
    : reversedName text = name.reverse := by
  obtain ⟨c, front, reversed⟩ := List.exists_cons_of_ne_nil (List.reverse_ne_nil_iff.mpr content)
  have other : c ≠ '/' := by
    rintro rfl
    exact plain (List.mem_reverse.mp (reversed ▸ List.mem_cons_self))
  have each : ∀ c ∈ name.reverse, decide (c ≠ '/') = true := by
    intro c member
    exact decide_eq_true fun same => plain (same ▸ List.mem_reverse.mp member)
  have kept (rest : List Char)
      : ((name.reverse ++ rest).dropWhile (· = '/')).takeWhile (· ≠ '/')
        = name.reverse ++ rest.takeWhile (· ≠ '/') := by
    rw [← List.takeWhile_append_of_pos each]
    simp [reversed, other]
  unfold reversedName
  rcases last with rfl | ⟨before, rfl⟩
  · simpa using kept []
  · simpa using kept ('/' :: before.reverse)

/-- A joined path ends with the name that it was joined from. -/
theorem fileName?_join (base : Path) {segment : String} (single : IsSegment segment)
    : (base.join segment).fileName? = some segment := by
  have content : segment.toList ≠ [] := fun empty =>
    single.content (String.toList_eq_nil_iff.mp empty)
  have last : (base.join segment).text.toList = segment.toList
      ∨ ∃ before, (base.join segment).text.toList = before ++ '/' :: segment.toList := by
    rcases base.text_join single with same | behind
    · exact Or.inl (congrArg String.toList same)
    · exact Or.inr behind
  obtain ⟨c, front, reversed⟩ := List.exists_cons_of_ne_nil (List.reverse_ne_nil_iff.mpr content)
  rw [fileName?, reversedName_of_slash content single.slash last, reversed]
  simp only
  rw [← reversed, List.reverse_reverse, String.ofList_toList]

theorem extension?_join (base : Path) {segment : String} (single : IsSegment segment)
    : (base.join segment).extension? = extensionOf? segment := by
  rw [extension?, base.fileName?_join single, Option.bind_some]

/-- An extension is what stands after the last dot of a name, unless that dot is at its front. -/
theorem extensionOf?_eq_some_iff {name extension : String}
    : extensionOf? name = some extension
      ↔ '.' ∉ extension.toList
        ∧ ∃ front, front ≠ [] ∧ name.toList = front ++ '.' :: extension.toList := by
  have parts : name.toList.reverse.takeWhile (· ≠ '.') ++ name.toList.reverse.dropWhile (· ≠ '.')
      = name.toList.reverse :=
    List.takeWhile_append_dropWhile
  unfold extensionOf?
  dsimp only
  constructor
  · intro found
    split at found
    · cases found
    · cases found
    · next _ notEmpty notLone =>
      obtain rfl := Option.some.inj found
      obtain ⟨dot, others, split⟩ := List.exists_cons_of_ne_nil notEmpty
      have last : dot = '.' := by
        have fails := List.head?_dropWhile_not (· ≠ '.') name.toList.reverse
        rw [split] at fails
        simpa using fails
      refine ⟨?_, others.reverse, ?_, ?_⟩
      · intro member
        rw [String.toList_ofList, List.mem_reverse] at member
        simpa using List.all_eq_true.mp List.all_takeWhile _ member
      · rw [ne_eq, List.reverse_eq_nil_iff]
        rintro rfl
        exact notLone dot split
      · rw [split, last] at parts
        have whole := congrArg List.reverse parts
        simpa using whole.symm
  · rintro ⟨plain, front, content, split⟩
    have each : ∀ c ∈ extension.toList.reverse, decide (c ≠ '.') = true := by
      intro c member
      exact decide_eq_true fun same => plain (same ▸ List.mem_reverse.mp member)
    have reversed : name.toList.reverse = extension.toList.reverse ++ '.' :: front.reverse := by
      simp [split]
    obtain ⟨c, rest, started⟩ := List.exists_cons_of_ne_nil (List.reverse_ne_nil_iff.mpr content)
    rw [reversed, List.dropWhile_append_of_pos each, List.takeWhile_append_of_pos each, started]
    simp

/-- A lone name has the extension that it has below any directory. -/
theorem extension?_of_isSegment {name : String} (single : IsSegment name)
    : extension? ⟨name⟩ = extensionOf? name := by
  have joined := (⟨""⟩ : Path).extension?_join single
  have same : (⟨""⟩ : Path).join name = ⟨name⟩ := by
    rw [join, if_pos rfl, slashed_of_notMem single.backslash, String.ofList_toList,
      ofString_of_isSegment single]
  rwa [same] at joined

end Path

namespace ConfigName

theorem isSegment_label (name : ConfigName)
    : Path.IsSegment name.label := by
  cases name <;> exact ⟨by decide, by decide, by decide⟩

/-- The format of the documents that have a name. -/
def format : ConfigName → Format
  | .hiddenYaml | .hiddenYml | .yaml | .yml => .yaml
  | .hiddenJson | .json => .json

/-- The name of a document decides its format in every directory. -/
theorem ofPath_join_label (directory : Path) (name : ConfigName)
    : Format.ofPath (directory.join name.label) = .ok name.format := by
  unfold Format.ofPath
  rw [directory.extension?_join name.isSegment_label]
  cases name <;> rfl

theorem ofPath_label (name : ConfigName)
    : Format.ofPath (Path.ofString name.label) = .ok name.format := by
  cases name <;> rfl

end ConfigName

end Packaging
