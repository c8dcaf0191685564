import Packaging.Job
import Packaging.Proofs.Attributes.Encoding

/-! The settings of a job one by one. A setting that is left out when it is written has its
default, so reading gives it back.
-/

namespace Packaging

open Value

/-- A setting that only a job has. -/
inductive Setting where
  | targets
  | distGitBranches
  | branch
  | scratch
  | timeout
  | owner
  | project
deriving DecidableEq

namespace Setting

def all : List Setting :=
  [.targets, .distGitBranches, .branch, .scratch, .timeout, .owner, .project]

def key : Setting → String
  | .targets => "targets"
  | .distGitBranches => "dist_git_branches"
  | .branch => "branch"
  | .scratch => "scratch"
  | .timeout => "timeout"
  | .owner => "owner"
  | .project => "project"

/-- The data of a setting. -/
abbrev Data : Setting → Type
  | .targets | .distGitBranches => List String
  | .branch | .owner | .project => Option String
  | .scratch => Bool
  | .timeout => UInt64

/-- How a value gives the data of a setting. -/
def decode : (s : Setting) → Decoder s.Data
  | .targets | .distGitBranches => Overrides.texts
  | .branch | .owner | .project => Decoder.optional Decoder.text
  | .scratch => Decoder.boolean
  | .timeout => Decoder.word

/-- The data of a setting. -/
def value : (s : Setting) → Metadata → s.Data
  | .targets, m => m.targets
  | .distGitBranches, m => m.distGitBranches
  | .branch, m => m.branch
  | .scratch, m => m.scratch
  | .timeout, m => m.timeout
  | .owner, m => m.owner
  | .project, m => m.project

/-- The settings with other data for one of them. -/
def put : (s : Setting) → s.Data → Metadata → Metadata
  | .targets, data, m => { m with targets := data }
  | .distGitBranches, data, m => { m with distGitBranches := data }
  | .branch, data, m => { m with branch := data }
  | .scratch, data, m => { m with scratch := data }
  | .timeout, data, m => { m with timeout := data }
  | .owner, data, m => { m with owner := data }
  | .project, data, m => { m with project := data }

/-- How the data of a setting is written, unless it is left out. -/
def encode? : (s : Setting) → s.Data → Option Value
  | .targets, (data : List String) | .distGitBranches, (data : List String) =>
    if data.isEmpty then none else some (Overrides.encodeTexts data)
  | .branch, (data : Option String) | .owner, (data : Option String)
  | .project, (data : Option String) => data.map .text
  | .scratch, (data : Bool) => if data then some (.boolean true) else none
  | .timeout, (data : UInt64) => some (.integer data.toNat)

theorem mem_all (s : Setting)
    : s ∈ all := by
  cases s <;> decide

theorem key_injective (a b : Setting) (same : a.key = b.key)
    : a = b := by
  have listed : ∀ a ∈ all, ∀ b ∈ all, a.key = b.key → a = b := by decide
  exact listed a a.mem_all b b.mem_all same

theorem keys_eq
    : Metadata.keys = all.map key :=
  rfl

/-- Settings with the same data are the same. -/
theorem metadata_ext {m n : Metadata} (same : ∀ s : Setting, s.value m = s.value n)
    : m = n := by
  cases m
  cases n
  simp only [Metadata.mk.injEq]
  exact ⟨same .targets, same .distGitBranches, same .branch, same .scratch, same .timeout,
    same .owner, same .project⟩

/-- The entry under the key of a setting gives its data. -/
theorem change_key (s : Setting) (value : Value)
    : Metadata.reader.change s.key value = (s.decode value).map s.put := by
  have found : (Metadata.reader.fields.find? fun field => field.key = s.key)
      = some (.of s.key s.decode s.put) := by
    cases s <;> rfl
  rw [RecordReader.change, found]
  rfl

theorem value_put (s : Setting) (data : s.Data) (m : Metadata)
    : s.value (s.put data m) = data := by
  cases s <;> rfl

/-- What is stored for one setting does not matter for another. -/
theorem value_put_of_ne {s t : Setting} (differs : s ≠ t) (data : t.Data) (m : Metadata)
    : s.value (t.put data m) = s.value m := by
  cases t <;> cases s <;> first | rfl | exact absurd rfl differs

/-- The settings as the parts of a job's settings. -/
def parts : Metadata.reader.Parts Setting Data where
  all := all
  key := key
  decode := decode
  get := value
  put := put
  mem_all := mem_all
  injective := key_injective
  keys := keys_eq
  change := change_key
  get_put := value_put
  get_put_of_ne := value_put_of_ne
  ext := metadata_ext

/-- The entries of settings are those that are not left out, each written under its key. -/
theorem entries_eq (m : Metadata)
    : m.entries = Fields.ofTable all key fun s => s.encode? (s.value m) := by
  have list (key : String) (texts : List String)
      : Metadata.listEntry key texts
        = (if texts.isEmpty then none else some (Overrides.encodeTexts texts)).toList.map
            fun value => (key, value) := by
    unfold Metadata.listEntry
    split <;> rfl
  have flag (scratch : Bool)
      : (if scratch then [("scratch", Value.boolean true)] else [])
        = (if scratch then some (Value.boolean true) else none).toList.map
            fun value => ("scratch", value) := by
    cases scratch <;> rfl
  simp [Fields.ofTable, Metadata.entries, list, flag, Attributes.entry, all, key, value, encode?,
    Option.toList_map, Function.comp_def]

-----------------------------------------------------------------------------------------
-- Reading what was written
-----------------------------------------------------------------------------------------

/-- A setting that is left out has its default. -/
theorem eq_default_of_encode? {s : Setting} {data : s.Data} (leftOut : s.encode? data = none)
    : data = s.value {} := by
  have list {texts : List String}
      (leftOut : (if texts.isEmpty then none else some (Overrides.encodeTexts texts)) = none)
      : texts = [] := by
    simpa using leftOut
  cases s with
  | targets => exact list leftOut
  | distGitBranches => exact list leftOut
  | branch => exact Option.map_eq_none_iff.mp leftOut
  | scratch =>
      cases data with
      | false => rfl
      | true => simp [encode?] at leftOut
  | timeout => simp [encode?] at leftOut
  | owner => exact Option.map_eq_none_iff.mp leftOut
  | project => exact Option.map_eq_none_iff.mp leftOut

/-- A number of seconds is read back. -/
theorem word_toNat (seconds : UInt64)
    : Decoder.word (.integer seconds.toNat) = .ok seconds := by
  have bound : (seconds.toNat : Int) < Nat.pow 2 64 := Int.ofNat_lt.mpr seconds.toNat_lt
  have natural : ¬ (seconds.toNat : Int) < 0 := by omega
  simp only [Decoder.word, natural, bound, if_false, if_true, Int.toNat_natCast,
    UInt64.ofNat_toNat]

/-- A setting that is written is read back after it is sorted. -/
theorem decode_of_encode? {s : Setting} {data : s.Data} {value : Value}
    (written : s.encode? data = some value)
    : s.decode value.sorted = .ok data := by
  have list {texts : List String} {value : Value}
      (written
        : (if texts.isEmpty then none else some (Overrides.encodeTexts texts)) = some value)
      : Overrides.texts value.sorted = .ok texts := by
    split at written
    · simp at written
    · cases written
      rw [sorted_encodeTexts, texts_encodeTexts]
  have text {given : Option String} {value : Value} (written : given.map .text = some value)
      : Decoder.optional Decoder.text value.sorted = .ok given := by
    obtain ⟨text, rfl, rfl⟩ := Option.map_eq_some_iff.mp written
    rfl
  cases s with
  | targets => exact list written
  | distGitBranches => exact list written
  | branch => exact text written
  | scratch =>
      cases data with
      | false => simp [encode?] at written
      | true =>
          cases written
          rfl
  | timeout =>
      cases written
      exact word_toNat data
  | owner => exact text written
  | project => exact text written

/-- Entries are read as the settings `m` when the written settings of `m` are found among them,
and no other settings.
-/
theorem record_of_written {m : Metadata} {fields : Fields} (distinct : fields.keys.Nodup)
    (found : ∀ s : Setting, fields.find? s.key = (s.encode? (s.value m)).map Value.sorted)
    : Declaration.record Metadata.reader fields = .ok m := by
  apply (parts.record_eq_ok_iff distinct).mpr
  intro s
  have held := found s
  cases encoded : s.encode? (s.value m) with
  | none =>
      rw [encoded] at held
      exact (parts.told_of_missing held).mpr (eq_default_of_encode? encoded)
  | some value =>
      rw [encoded] at held
      exact (parts.told_of_found held).mpr (decode_of_encode? encoded)

end Setting

end Packaging
