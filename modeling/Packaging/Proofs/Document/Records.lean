import Packaging.Declaration
import Packaging.Proofs.Document.Fields

/-! Records read entry by entry. A view shows the part of a record that one key gives, so that a
record is told by what is found under its keys.
-/

namespace Packaging

-----------------------------------------------------------------------------------------
-- Values that may be null
-----------------------------------------------------------------------------------------

/-- The value of an entry that is there and is not null. -/
def Value.present? (field? : Option Value) : Option Value :=
  field?.filter (· ≠ .null)

theorem Value.present?_eq_some_iff {field? : Option Value} {value : Value}
    : present? field? = some value ↔ field? = some value ∧ value ≠ .null := by
  simp [present?, Option.filter_eq_some_iff]

/-- Null gives nothing, and any other value has to decode. -/
theorem Decoder.optional_eq_ok_iff {α : Type} {given : Decoder α} {value : Value}
    {data : Option α}
    : optional given value = .ok data
      ↔ (value = .null ∧ data = none)
        ∨ (value ≠ .null ∧ ∃ content, given value = .ok content ∧ data = some content) := by
  unfold optional
  split
  · simp [eq_comm]
  · next present =>
    have notNull : value ≠ .null := fun null => present null
    cases given value <;> simp [notNull, Except.map, eq_comm]

-----------------------------------------------------------------------------------------
-- Views of a record
-----------------------------------------------------------------------------------------

namespace RecordReader

variable {α β : Type} {reader : RecordReader α}

/-- The view `get` shows what `decode` makes of the entry under `key`, and entries under other
keys do not change what it shows.
-/
structure Shows (reader : RecordReader α) (key : String) (decode : Decoder β) (get : α → β)
    : Prop where
  own
    : ∀ value record,
        (reader.change key value).map (fun update => get (update record)) = decode value
  other
    : ∀ name value update,
        name ≠ key → reader.change name value = .ok update
        → ∀ record, get (update record) = get record

theorem ofEntries_cons_eq_ok {key : String} {value : Value} {rest : List (String × Value)}
    {record final : α}
    : reader.ofEntries record ((key, value) :: rest) = .ok final
      ↔ ∃ update, reader.change key value = .ok update
          ∧ reader.ofEntries (update record) rest = .ok final := by
  cases changed : reader.change key value <;> simp [ofEntries, changed, bind, Except.bind]

/-- Reading succeeds just when each entry decodes by itself. By induction over the entries. -/
theorem exists_ofEntries_iff (record : α) (entries : List (String × Value))
    : (∃ final, reader.ofEntries record entries = .ok final)
      ↔ ∀ entry ∈ entries, ∃ update, reader.change entry.1 entry.2 = .ok update := by
  induction entries generalizing record with
  | nil => simp [ofEntries]
  | cons head rest ih =>
      obtain ⟨key, value⟩ := head
      simp only [ofEntries_cons_eq_ok, List.forall_mem_cons]
      constructor
      · intro together
        obtain ⟨final, update, changed, read⟩ := together
        exact ⟨⟨update, changed⟩, (ih (update record)).mp ⟨final, read⟩⟩
      · intro decodes
        obtain ⟨⟨update, changed⟩, readable⟩ := decodes
        obtain ⟨final, read⟩ := (ih (update record)).mpr readable
        exact ⟨final, update, changed, read⟩

/-- Reading one entry alone fails just as the entry does. -/
theorem decode_single (key : String) (value : Value)
    : reader.decode (.mapping [(key, value)])
      = (reader.change key value).map fun update => update reader.start := by
  cases changed : reader.change key value <;>
    simp [decode, ofEntries, changed, bind, Except.bind, Except.map]

/-- An entry under a key that the record does not have is ignored. -/
theorem change_of_unknown {key : String} (unknown : key ∉ reader.keys) (value : Value)
    : reader.change key value = .ok id := by
  have missing : (reader.fields.find? fun field => field.key = key) = none := by
    refine List.find?_eq_none.mpr fun field member named => unknown ?_
    exact List.mem_map.mpr ⟨field, member, by simpa using named⟩
  simp [change, missing]

namespace Shows

variable {key : String} {decode : Decoder β} {get : α → β}

/-- Where the key is missing, the view shows what it showed before. -/
theorem ofEntries_of_missing (shows : reader.Shows key decode get)
    {entries : List (String × Value)} {record final : α}
    (read : reader.ofEntries record entries = .ok final)
    (missing : key ∉ Fields.keys entries)
    : get final = get record := by
  induction entries generalizing record with
  | nil =>
      cases read
      rfl
  | cons head rest ih =>
      obtain ⟨name, value⟩ := head
      obtain ⟨update, changed, read⟩ := ofEntries_cons_eq_ok.mp read
      obtain ⟨differs, missing⟩ := not_or.mp fun member => missing (List.mem_cons.mpr member)
      rw [ih read missing]
      exact shows.other name value update (Ne.symm differs) changed record

/-- Where the key is found, its value decodes and the view shows what it decodes to. -/
theorem ofEntries_of_found (shows : reader.Shows key decode get)
    {entries : List (String × Value)} {record final : α} {value : Value}
    (distinct : (Fields.keys entries).Nodup)
    (read : reader.ofEntries record entries = .ok final)
    (found : Fields.find? key entries = some value)
    : decode value = .ok (get final) := by
  induction entries generalizing record with
  | nil => simp [Fields.find?] at found
  | cons head rest ih =>
      obtain ⟨name, content⟩ := head
      obtain ⟨fresh, distinct⟩ := List.nodup_cons.mp distinct
      obtain ⟨update, changed, read⟩ := ofEntries_cons_eq_ok.mp read
      by_cases same : name = key
      · subst same
        have equal : content = value := by simpa [Fields.find?] using found
        rw [shows.ofEntries_of_missing read fresh, ← shows.own value record, ← equal, changed]
        rfl
      · exact ih distinct read (by simpa [Fields.find?, same] using found)

/-- A value that decodes may stand under the key. -/
theorem exists_change (shows : reader.Shows key decode get) {value : Value} {content : β}
    (decoded : decode value = .ok content)
    : ∃ update, reader.change key value = .ok update := by
  have own := shows.own value reader.start
  cases changed : reader.change key value with
  | error cause => simp [changed, decoded, Except.map] at own
  | ok update => exact ⟨update, rfl⟩

end Shows

end RecordReader

namespace Declaration

variable {α : Type} {reader : RecordReader α}

/-- The check of each entry passes just when each entry decodes. -/
theorem checkEach_eq_ok_iff {fields : Fields}
    : checkEach reader fields = .ok ()
      ↔ ∀ entry ∈ fields, ∃ update, reader.change entry.1 entry.2 = .ok update := by
  induction fields with
  | nil => simp [checkEach]
  | cons head rest ih =>
      obtain ⟨key, value⟩ := head
      cases changed : reader.change key value with
      | error cause => simp [checkEach, RecordReader.decode_single, changed, Except.map]
      | ok update => simp [checkEach, RecordReader.decode_single, changed, Except.map, ih]

/-- The check fails with an entry that does not decode, and tells its key. -/
theorem exists_of_checkEach_eq_error {fields : Fields} {error : Error}
    (failed : checkEach reader fields = .error error)
    : ∃ key value cause,
        (key, value) ∈ fields ∧ reader.change key value = .error cause
        ∧ error = .invalid key (.mismatch cause) := by
  induction fields with
  | nil => simp [checkEach] at failed
  | cons head rest ih =>
      obtain ⟨key, value⟩ := head
      cases changed : reader.change key value with
      | error cause =>
          simp only [checkEach, RecordReader.decode_single, changed, Except.map,
            Except.error.injEq] at failed
          exact ⟨key, value, cause, by simp, changed, failed.symm⟩
      | ok update =>
          simp only [checkEach, RecordReader.decode_single, changed, Except.map] at failed
          obtain ⟨name, content, cause, member, told⟩ := ih failed
          exact ⟨name, content, cause, List.mem_cons_of_mem _ member, told⟩

/-- Entries that decode one by one decode together, so the second reading never fails. -/
theorem exists_decode_of_checkEach {fields : Fields}
    (checked : checkEach reader fields = .ok ())
    : ∃ final, reader.decode (.mapping fields) = .ok final :=
  (RecordReader.exists_ofEntries_iff reader.start fields).mpr (checkEach_eq_ok_iff.mp checked)

/-- Entries that decode one by one give the record that they decode to together. -/
theorem record_of_decode {fields : Fields} {final : α}
    (checked : checkEach reader fields = .ok ())
    (decoded : reader.decode (.mapping fields) = .ok final)
    : record reader fields = .ok final := by
  show (checkEach reader fields >>= fun _ =>
    (reader.decode (.mapping fields)).mapError .mismatch) = .ok final
  rw [checked, decoded]
  rfl

/-- The record of a mapping is what its entries make of an empty record. The check before that
refuses nothing else.
-/
theorem record_eq_ok_iff {fields : Fields} {final : α}
    : record reader fields = .ok final ↔ reader.ofEntries reader.start fields = .ok final := by
  cases checked : checkEach reader fields with
  | error error =>
      obtain ⟨key, value, cause, member, failed, _⟩ := exists_of_checkEach_eq_error checked
      have never (read : reader.ofEntries reader.start fields = .ok final) : False := by
        obtain ⟨update, changed⟩ :=
          (RecordReader.exists_ofEntries_iff _ _).mp ⟨final, read⟩ _ member
        simp [failed] at changed
      simp only [record, checked, bind, Except.bind]
      exact ⟨fun impossible => by simp at impossible, fun read => (never read).elim⟩
  | ok _ =>
      obtain ⟨other, decoded⟩ := exists_decode_of_checkEach checked
      have read : reader.ofEntries reader.start fields = .ok other := decoded
      rw [record_of_decode checked decoded, read]
      simp only [Except.ok.injEq]

/-- Only the check of each entry refuses a record. -/
theorem record_eq_error_iff {fields : Fields} {error : Error}
    : record reader fields = .error error ↔ checkEach reader fields = .error error := by
  cases checked : checkEach reader fields with
  | error first => simp [record, checked, bind, Except.bind]
  | ok _ =>
      obtain ⟨final, decoded⟩ := exists_decode_of_checkEach checked
      simp [record_of_decode checked decoded]

/-- Entries that decode by themselves may be left out of the check. -/
theorem checkEach_erase {fields : Fields} {key : String}
    (decodes : ∀ value, (key, value) ∈ fields → ∃ update, reader.change key value = .ok update)
    : checkEach reader (fields.erase key) = checkEach reader fields := by
  induction fields with
  | nil => rfl
  | cons head rest ih =>
      obtain ⟨name, value⟩ := head
      have below := ih fun value member => decodes value (List.mem_cons_of_mem _ member)
      unfold Fields.erase at below ⊢
      by_cases same : name = key
      · subst same
        obtain ⟨update, changed⟩ := decodes value List.mem_cons_self
        rw [List.filter_cons_of_neg (by simp), below, checkEach, RecordReader.decode_single,
          changed]
        rfl
      · rw [List.filter_cons_of_pos (by simpa using same), checkEach, below, checkEach]

/-- A record that is refused names a key of the record whose entry does not decode. -/
theorem exists_of_record_eq_error {fields : Fields} {error : Error}
    (failed : record reader fields = .error error)
    : ∃ key value cause,
        (key, value) ∈ fields ∧ key ∈ reader.keys ∧ reader.change key value = .error cause
        ∧ error = .invalid key (.mismatch cause) := by
  obtain ⟨key, value, cause, member, changed, told⟩ :=
    exists_of_checkEach_eq_error (record_eq_error_iff.mp failed)
  have known : key ∈ reader.keys := by
    apply Decidable.byContradiction
    intro unknown
    simp [RecordReader.change_of_unknown unknown] at changed
  exact ⟨key, value, cause, member, known, changed, told⟩

end Declaration

-----------------------------------------------------------------------------------------
-- Records of known parts
-----------------------------------------------------------------------------------------

/-- The parts of a record: each has a key, a decoder and a place of its own in the record, and
together they are all that the record holds.
-/
structure RecordReader.Parts {α : Type} (reader : RecordReader α) (ι : Type)
    (Data : ι → Type) where
  all : List ι
  key : ι → String
  decode : (part : ι) → Decoder (Data part)
  get : (part : ι) → α → Data part
  put : (part : ι) → Data part → α → α
  mem_all : ∀ part, part ∈ all
  injective : ∀ part other, key part = key other → part = other
  keys : reader.keys = all.map key
  change : ∀ part value, reader.change (key part) value = (decode part value).map (put part)
  get_put : ∀ part data record, get part (put part data record) = data
  get_put_of_ne
    : ∀ {part other}, part ≠ other
        → ∀ data record, get part (put other data record) = get part record
  ext : ∀ {record other : α}, (∀ part, get part record = get part other) → record = other

namespace RecordReader.Parts

variable {α ι : Type} {Data : ι → Type} {reader : RecordReader α}
  (parts : reader.Parts ι Data)

theorem key_mem_keys (part : ι)
    : parts.key part ∈ reader.keys :=
  parts.keys ▸ List.mem_map_of_mem (parts.mem_all part)

theorem exists_of_mem_keys {key : String} (known : key ∈ reader.keys)
    : ∃ part, parts.key part = key := by
  rw [parts.keys] at known
  obtain ⟨part, _, named⟩ := List.mem_map.mp known
  exact ⟨part, named⟩

/-- The place of a part shows what the entry under its key decodes to. -/
theorem shows (part : ι)
    : reader.Shows (parts.key part) (parts.decode part) (parts.get part) where
  own value record := by
    rw [parts.change]
    cases decoded : parts.decode part value with
    | error cause => rfl
    | ok data => exact congrArg Except.ok (parts.get_put part data record)
  other name value update differs changed record := by
    by_cases known : name ∈ reader.keys
    · obtain ⟨other, rfl⟩ := parts.exists_of_mem_keys known
      rw [parts.change] at changed
      cases decoded : parts.decode other value with
      | error cause => simp [decoded, Except.map] at changed
      | ok data =>
          simp only [decoded, Except.map, Except.ok.injEq] at changed
          subst changed
          have apart : part ≠ other := fun same => differs (congrArg parts.key same.symm)
          exact parts.get_put_of_ne apart data record
    · rw [change_of_unknown known] at changed
      cases changed
      rfl

/-- A part is as the entries tell: what the entry under its key decodes to, or as in an empty
record where there is no such entry.
-/
def Told (field? : String → Option Value) (final : α) (part : ι) : Prop :=
  match field? (parts.key part) with
  | none => parts.get part final = parts.get part reader.start
  | some value => parts.decode part value = .ok (parts.get part final)

/-- A part without an entry is as in an empty record. -/
theorem told_of_missing {field? : String → Option Value} {final : α} {part : ι}
    (missing : field? (parts.key part) = none)
    : parts.Told field? final part ↔ parts.get part final = parts.get part reader.start := by
  rw [Told, missing]

/-- A part with an entry is what the entry decodes to. -/
theorem told_of_found {field? : String → Option Value} {final : α} {part : ι} {value : Value}
    (found : field? (parts.key part) = some value)
    : parts.Told field? final part ↔ parts.decode part value = .ok (parts.get part final) := by
  rw [Told, found]

/-- What is told about a part depends only on the entry under its key. -/
theorem told_congr {left right : String → Option Value} {final : α} {part : ι}
    (same : left (parts.key part) = right (parts.key part))
    : parts.Told left final part ↔ parts.Told right final part := by
  unfold Told
  rw [same]

/-- Entries tell at most one record. -/
theorem eq_of_told {field? : String → Option Value} {final other : α}
    (first : ∀ part, parts.Told field? final part) (second : ∀ part, parts.Told field? other part)
    : final = other := by
  apply parts.ext
  intro part
  cases found : field? (parts.key part) with
  | none =>
      have left := (parts.told_of_missing found).mp (first part)
      have right := (parts.told_of_missing found).mp (second part)
      exact left.trans right.symm
  | some value =>
      have left := (parts.told_of_found found).mp (first part)
      have right := (parts.told_of_found found).mp (second part)
      exact Except.ok.inj (left.symm.trans right)

/-- Entries tell a record just when each of them decodes. By induction over the parts: each is
stored after the others, which it leaves as they are.
-/
theorem exists_told_iff {field? : String → Option Value}
    : (∃ final, ∀ part, parts.Told field? final part)
      ↔ ∀ part value, field? (parts.key part) = some value
          → ∃ data, parts.decode part value = .ok data := by
  constructor
  · intro tells part value found
    obtain ⟨final, told⟩ := tells
    exact ⟨_, (parts.told_of_found found).mp (told part)⟩
  · intro decodes
    -- Nothing is asked of the parts that are not listed.
    have upTo (listed : List ι) : ∃ final, ∀ part ∈ listed, parts.Told field? final part := by
      induction listed with
      | nil => exact ⟨reader.start, by simp⟩
      | cons first rest ih =>
          obtain ⟨final, told⟩ := ih
          have stored (data : Data first)
              (tells : ∀ other, parts.get first other = data → parts.Told field? other first)
              : ∃ final, ∀ part ∈ first :: rest, parts.Told field? final part := by
            refine ⟨parts.put first data final, ?_⟩
            intro part member
            by_cases same : part = first
            · subst same
              exact tells _ (parts.get_put part data final)
            · have kept := told part ((List.mem_cons.mp member).resolve_left same)
              rw [Told, parts.get_put_of_ne same]
              exact kept
          cases found : field? (parts.key first) with
          | none =>
              apply stored (parts.get first reader.start)
              intro other gets
              exact (parts.told_of_missing found).mpr gets
          | some value =>
              obtain ⟨data, decoded⟩ := decodes first value found
              apply stored data
              intro other gets
              exact (parts.told_of_found found).mpr (gets ▸ decoded)
    obtain ⟨final, told⟩ := upTo parts.all
    exact ⟨final, fun part => told part (parts.mem_all part)⟩

/-- Every part of a record that is read is told by the entries. -/
theorem told_of_ofEntries {fields : Fields} (distinct : fields.keys.Nodup) {final : α}
    (read : reader.ofEntries reader.start fields = .ok final) (part : ι)
    : parts.Told (fun key => fields.find? key) final part := by
  cases found : fields.find? (parts.key part) with
  | none =>
      refine (parts.told_of_missing found).mpr ?_
      exact (parts.shows part).ofEntries_of_missing read (Fields.find?_eq_none_iff.mp found)
  | some value =>
      refine (parts.told_of_found found).mpr ?_
      exact (parts.shows part).ofEntries_of_found distinct read found

/-- A mapping gives a record just when it tells every part of it. Other entries do not matter. -/
theorem record_eq_ok_iff {fields : Fields} (distinct : fields.keys.Nodup) {final : α}
    : Declaration.record reader fields = .ok final
      ↔ ∀ part, parts.Told (fun key => fields.find? key) final part := by
  rw [Declaration.record_eq_ok_iff]
  constructor
  · exact parts.told_of_ofEntries distinct
  · intro told
    -- An entry of a part decodes as it is told, and any other entry is ignored.
    have readable : ∀ entry ∈ fields, ∃ update, reader.change entry.1 entry.2 = .ok update := by
      intro entry member
      obtain ⟨key, value⟩ := entry
      by_cases known : key ∈ reader.keys
      · obtain ⟨part, rfl⟩ := parts.exists_of_mem_keys known
        have found := Fields.find?_of_mem distinct member
        exact (parts.shows part).exists_change ((parts.told_of_found found).mp (told part))
      · exact ⟨id, change_of_unknown known value⟩
    obtain ⟨other, read⟩ := (exists_ofEntries_iff reader.start fields).mpr readable
    rw [parts.eq_of_told told (parts.told_of_ofEntries distinct read)]
    exact read

/-- An entry that tells of its part what an empty record has may be left out. -/
theorem record_erase {fields : Fields} (distinct : fields.keys.Nodup) {part : ι} {value : Value}
    (found : fields.find? (parts.key part) = some value)
    (plain : parts.decode part value = .ok (parts.get part reader.start))
    : Declaration.record reader (fields.erase (parts.key part))
      = Declaration.record reader fields := by
  have distinctAgain : (fields.erase (parts.key part)).keys.Nodup :=
    distinct.sublist (List.filter_sublist.map _)
  cases read : Declaration.record reader fields with
  | error error =>
      rw [Declaration.record_eq_error_iff] at read ⊢
      rw [Declaration.checkEach_erase, read]
      intro other member
      obtain rfl : value = other :=
        Option.some.inj (found.symm.trans (Fields.find?_of_mem distinct member))
      exact (parts.shows part).exists_change plain
  | ok final =>
      have told := (parts.record_eq_ok_iff distinct).mp read
      refine (parts.record_eq_ok_iff distinctAgain).mpr fun other => ?_
      by_cases same : other = part
      · subst same
        refine (parts.told_of_missing (by rw [Fields.find?_erase, if_pos rfl])).mpr ?_
        have own := (parts.told_of_found found).mp (told other)
        exact (Except.ok.inj (plain.symm.trans own)).symm
      · refine (parts.told_congr ?_).mpr (told other)
        rw [Fields.find?_erase, if_neg fun equal => same (parts.injective _ _ equal)]

end RecordReader.Parts

end Packaging
