import Mathlib.Data.List.Basic
import Mathlib.Data.String.Basic
import Packaging.Git.Encoding
import Packaging.Git.Repository

/-! The bytes of texts. Texts ascend just when their bytes do, and slashes of the one are slashes of
the other, so names can be compared and split in either form.
-/

namespace Packaging.Git

-----------------------------------------------------------------------------------------
-- Bytes as a list
-----------------------------------------------------------------------------------------

/-- What is read of a content after some of it. By induction over what is left. -/
theorem toList_loop (content : ByteArray) (index : Nat) (read : List UInt8)
    : ByteArray.toList.loop content index read
      = read.reverse ++ content.data.toList.drop index := by
  fun_induction ByteArray.toList.loop content index read with
  | case1 index read inside ih =>
      have bound : index < content.data.toList.length := by simpa using inside
      rw [ih, List.drop_eq_getElem_cons bound]
      simp [ByteArray.get!, inside]
  | case2 index read outside =>
      rw [List.drop_eq_nil_of_le (by simpa using Nat.le_of_not_lt outside)]
      simp

theorem toList_eq (content : ByteArray)
    : content.toList = content.data.toList := by
  rw [ByteArray.toList, toList_loop]
  rfl

/-- The bytes of a text are those of its characters, one after another. -/
theorem bytes_eq_flatMap (text : String)
    : bytes text = text.toList.flatMap String.utf8EncodeChar := by
  rw [bytes, toList_eq, String.toUTF8, ← String.utf8Encode_toList, List.utf8Encode,
    List.toList_data_toByteArray]

theorem bytes_append (first second : String)
    : bytes (first ++ second) = bytes first ++ bytes second := by
  simp [bytes_eq_flatMap, String.toList_append]

theorem bytes_injective : Function.Injective bytes := by
  intro first second same
  rw [bytes, bytes, toList_eq, toList_eq, Array.toList_inj] at same
  exact String.toByteArray_inj.mp (ByteArray.ext same)

theorem bytes_eq_nil_iff {text : String}
    : bytes text = [] ↔ text = "" := by
  have empty : bytes "" = [] := by rw [bytes_eq_flatMap, String.toList_empty, List.flatMap_nil]
  rw [← empty, bytes_injective.eq_iff]

/-- The bytes of a text are what the text is made of. -/
theorem mk_bytes (text : String)
    : (⟨(bytes text).toArray⟩ : ByteArray) = text.toByteArray := by
  rw [bytes, toList_eq]
  rfl

theorem fromUTF8?_toUTF8 (text : String)
    : String.fromUTF8? text.toUTF8 = some text := by
  have valid : text.toUTF8.IsValidUTF8 := text.isValidUTF8
  rw [String.fromUTF8?, dif_pos valid]
  rfl

/-- Bytes stand for a text just when they are the bytes of that text. -/
theorem textOf?_eq_some_iff {name : Name} {text : String}
    : Repository.textOf? name = some text ↔ name = bytes text := by
  unfold Repository.textOf? String.fromUTF8?
  split
  · next valid =>
    rw [Option.some.injEq, ← String.toByteArray_inj]
    show (⟨name.toArray⟩ : ByteArray) = text.toByteArray ↔ _
    rw [← mk_bytes, ByteArray.mk.injEq]
    exact ⟨List.toArray_inj, congrArg _⟩
  · next invalid =>
    simp only [reduceCtorEq, false_iff]
    rintro rfl
    exact invalid (mk_bytes text ▸ text.isValidUTF8)

theorem textOf?_bytes (text : String)
    : Repository.textOf? (bytes text) = some text :=
  textOf?_eq_some_iff.mpr rfl

-----------------------------------------------------------------------------------------
-- Order
-----------------------------------------------------------------------------------------

theorem ofNat_lt_ofNat_iff {a b : Nat} (first : a < 256) (second : b < 256)
    : UInt8.ofNat a < UInt8.ofNat b ↔ a < b := by
  rw [UInt8.lt_iff_toNat_lt, UInt8.toNat_ofNat', UInt8.toNat_ofNat']
  omega

theorem ofNat_inj {a b : Nat} (first : a < 256) (second : b < 256)
    : UInt8.ofNat a = UInt8.ofNat b ↔ a = b := by
  rw [← UInt8.toNat_inj, UInt8.toNat_ofNat', UInt8.toNat_ofNat']
  omega

theorem codePoint_lt (c : Char) : c.val.toNat < 1114112 := by
  rcases c.valid with low | high <;> omega

/-- The bytes of a smaller character are smaller, whatever follows them. The first byte tells how
many follow it, and all of them together are the digits of the character to the base 64.
-/
theorem encode_append_lt {c d : Char} (less : c < d) (first second : List UInt8)
    : String.utf8EncodeChar c ++ first < String.utf8EncodeChar d ++ second := by
  have ascends : c.val.toNat < d.val.toNat := less
  have bounded := codePoint_lt d
  have digits (n : Nat) : n / 64 / 64 = n / 4096 ∧ n / 4096 / 64 = n / 262144 :=
    ⟨Nat.div_div_eq_div_mul n 64 64, Nat.div_div_eq_div_mul n 4096 64⟩
  have firstDigits := digits c.val.toNat
  have secondDigits := digits d.val.toNat
  have lead {n : Nat} (small : n < 1114112) : n / 262144 % 8 = n / 262144 := by omega
  have firstLead := lead (ascends.trans bounded)
  have secondLead := lead bounded
  simp only [String.utf8EncodeChar]
  split_ifs <;>
    simp (disch := omega) only [List.cons_append, List.nil_append, List.cons_lt_cons_iff,
      ofNat_lt_ofNat_iff, ofNat_inj] <;>
    omega

/-- The bytes of a smaller text are smaller. By induction over both texts. -/
theorem flatMap_encode_lt {first second : List Char} (less : first < second)
    : first.flatMap String.utf8EncodeChar < second.flatMap String.utf8EncodeChar := by
  induction first generalizing second with
  | nil =>
      cases second with
      | nil => exact absurd less (List.lt_irrefl _)
      | cons d rest =>
          obtain ⟨byte, others, split⟩ :=
            List.exists_cons_of_ne_nil (String.utf8EncodeChar_ne_nil (c := d))
          simp [split]
  | cons c front ih =>
      cases second with
      | nil => exact absurd less (List.not_lt_nil _)
      | cons d rest =>
          rw [List.flatMap_cons, List.flatMap_cons]
          rcases List.cons_lt_cons_iff.mp less with below | ⟨rfl, tail⟩
          · exact encode_append_lt below _ _
          · exact List.append_left_lt (ih tail)

theorem bytes_lt_iff {first second : String}
    : bytes first < bytes second ↔ first < second := by
  have ascends {a b : String} (less : a < b) : bytes a < bytes b := by
    rw [bytes_eq_flatMap, bytes_eq_flatMap]
    exact flatMap_encode_lt (String.lt_iff_toList_lt.mp less)
  constructor
  · intro less
    rcases lt_trichotomy first second with below | rfl | above
    · exact below
    · exact absurd less (List.lt_irrefl _)
    · exact absurd (ascends above) (List.lt_asymm less)
  · exact ascends

theorem bytes_le_iff {first second : String}
    : bytes first ≤ bytes second ↔ first ≤ second := by
  rw [← List.not_lt, ← not_lt, bytes_lt_iff]

-----------------------------------------------------------------------------------------
-- Slashes
-----------------------------------------------------------------------------------------

/-- Only a slash has its byte: every other character below 128 is another byte, and all bytes of the
rest are above.
-/
theorem slash_mem_encode_iff {c : Char}
    : slash ∈ String.utf8EncodeChar c ↔ c = '/' := by
  have same : c = '/' ↔ c.val.toNat = 47 := by
    rw [← Char.val_inj, ← UInt32.toNat_inj]
    rfl
  have byte : slash = UInt8.ofNat 47 := rfl
  simp only [String.utf8EncodeChar, byte, same]
  split_ifs <;>
    simp (disch := omega) only [List.mem_cons, List.not_mem_nil, or_false, ofNat_inj] <;>
    omega

theorem slash_mem_bytes_iff {text : String}
    : slash ∈ bytes text ↔ '/' ∈ text.toList := by
  simp [bytes_eq_flatMap, slash_mem_encode_iff]

end Packaging.Git
