import Packaging.Proofs.Attributes.Views
import Packaging.Proofs.Document.Ordered

/-! Attributes written and read again. The written form of each kind of data decodes to the data,
also after its mappings are sorted.
-/

namespace Packaging

open Value

-----------------------------------------------------------------------------------------
-- Texts and files
-----------------------------------------------------------------------------------------

/-- Written texts are read item by item. -/
theorem items_text_map (texts : List String)
    : Decoder.items Decoder.text (texts.map .text) = .ok texts := by
  induction texts with
  | nil => rfl
  | cons head rest ih =>
      simp only [List.map_cons, Decoder.items, ih]
      rfl

theorem sorted_encodeTexts (texts : List String)
    : (Overrides.encodeTexts texts).sorted = Overrides.encodeTexts texts := by
  have same : (Value.sorted ∘ Value.text) = Value.text := rfl
  simp [Overrides.encodeTexts, Value.sorted, sortedItems_eq_map, same]

/-- Written texts are read back. -/
theorem texts_encodeTexts (texts : List String)
    : Overrides.texts (Overrides.encodeTexts texts) = .ok texts :=
  items_text_map texts

theorem SyncedFile.decode_sorted_encode (file : SyncedFile)
    : SyncedFile.decode file.encode.sorted = .ok file := by
  -- Sorting moves the destination to the front.
  have swapped : file.encode.sorted
      = .mapping [("dest", .text file.destination), ("src", .text file.source)] := by
    have order : "dest" < "src" := by decide
    simp [SyncedFile.encode, Value.sorted, sortedEntries, Fields.ofList, Fields.insert, order]
  rw [swapped]
  rfl

/-- Written files are read back after they are sorted, by induction over the files. -/
theorem SyncedFiles.decode_sorted_encode (synced : SyncedFiles)
    : SyncedFiles.decode synced.encode.sorted = .ok synced := by
  have items (files : List SyncedFile)
      : Decoder.items SyncedFile.decode ((files.map SyncedFile.encode).map Value.sorted)
        = .ok files := by
    induction files with
    | nil => rfl
    | cons head rest ih =>
        simp only [List.map_cons, Decoder.items, SyncedFile.decode_sorted_encode, ih]
        rfl
  simp only [SyncedFiles.encode, Value.sorted, sortedItems_eq_map, SyncedFiles.decode,
    Decoder.list, items]
  rfl

-----------------------------------------------------------------------------------------
-- Actions
-----------------------------------------------------------------------------------------

theorem ActionCommand.decode_sorted_encode (command : ActionCommand)
    : ActionCommand.decode command.encode.sorted = .ok command := by
  cases command with
  | single line => rfl
  | several lines =>
      show ActionCommand.decode (Overrides.encodeTexts lines).sorted = _
      rw [sorted_encodeTexts]
      simp [Overrides.encodeTexts, ActionCommand.decode, items_text_map]

namespace ActionName

theorem label_injective (a b : ActionName) (same : a.label = b.label)
    : a = b := by
  have listed : ∀ a ∈ all, ∀ b ∈ all, a.label = b.label → a = b := by decide
  exact listed a (mem_all a) b (mem_all b) same

/-- A text is read as a step just when it is the name of the step. -/
theorem decode_text_eq_ok {key : String} {name : ActionName}
    : ActionName.decode (.text key) = .ok name ↔ name.label = key := by
  constructor
  · intro decoded
    simp only [ActionName.decode, Decoder.named, Decoder.named.find] at decoded
    split at decoded
    · next found =>
      cases decoded
      simpa using List.find?_some found
    · simp at decoded
  · intro label
    subst label
    cases name <;> rfl

end ActionName

namespace Actions

/-- Entries are read just when the first of them is a step with a command and then the others
are read.
-/
theorem ofEntries_cons_eq_ok {actions final : Actions} {key : String} {value : Value}
    {rest : List (String × Value)}
    : actions.ofEntries ((key, value) :: rest) = .ok final
      ↔ ∃ name command,
          name.label = key ∧ ActionCommand.decode value = .ok command
          ∧ (actions.assign name (some command)).ofEntries rest = .ok final := by
  cases named : ActionName.decode (.text key) with
  | error cause =>
      have unnamed (name : ActionName) : name.label ≠ key := by
        intro label
        simp [ActionName.decode_text_eq_ok.mpr label] at named
      simp [ofEntries, named, bind, Except.bind, unnamed]
  | ok name =>
      have label := ActionName.decode_text_eq_ok.mp named
      have only {other : ActionName} (same : other.label = key) : other = name :=
        ActionName.label_injective _ _ (same.trans label.symm)
      cases decoded : ActionCommand.decode value with
      | error cause => simp [ofEntries, named, decoded, bind, Except.bind]
      | ok command =>
          simp only [ofEntries, named, decoded, bind, Except.bind]
          constructor
          · exact fun read => ⟨name, command, label, rfl, read⟩
          · intro told
            obtain ⟨other, _, same, equal, read⟩ := told
            cases only same
            cases equal
            exact read

theorem exists_ofEntries (actions : Actions) {entries : List (String × Value)}
    (readable
      : ∀ entry ∈ entries, ∃ (name : ActionName) (command : ActionCommand),
          name.label = entry.1 ∧ ActionCommand.decode entry.2 = .ok command)
    : ∃ final, actions.ofEntries entries = .ok final := by
  induction entries generalizing actions with
  | nil => exact ⟨actions, rfl⟩
  | cons head rest ih =>
      obtain ⟨name, command, named, decoded⟩ := readable head (by simp)
      obtain ⟨final, read⟩ := ih (actions.assign name (some command)) fun entry member =>
        readable entry (List.mem_cons_of_mem _ member)
      exact ⟨final, ofEntries_cons_eq_ok.mpr ⟨name, command, named, decoded, read⟩⟩

/-- Commands that are not mentioned stay. -/
theorem get?_ofEntries_of_missing {actions final : Actions} {entries : List (String × Value)}
    {name : ActionName} (read : actions.ofEntries entries = .ok final)
    (missing : name.label ∉ Fields.keys entries)
    : final.get? name = actions.get? name := by
  induction entries generalizing actions with
  | nil =>
      cases read
      rfl
  | cons head rest ih =>
      obtain ⟨other, command, named, decoded, read⟩ := ofEntries_cons_eq_ok.mp read
      obtain ⟨differs, missing⟩ := not_or.mp fun member => missing (List.mem_cons.mpr member)
      have apart : name ≠ other := by
        intro same
        subst same
        exact differs named
      rw [ih read missing]
      simp [assign, apart]

/-- A command that is mentioned is the one that is read. -/
theorem get?_ofEntries_of_found {actions final : Actions} {entries : List (String × Value)}
    {name : ActionName} {value : Value} {command : ActionCommand}
    (distinct : (Fields.keys entries).Nodup) (read : actions.ofEntries entries = .ok final)
    (found : Fields.find? name.label entries = some value)
    (decoded : ActionCommand.decode value = .ok command)
    : final.get? name = some command := by
  induction entries generalizing actions with
  | nil => simp [Fields.find?] at found
  | cons head rest ih =>
      obtain ⟨key, content⟩ := head
      obtain ⟨fresh, distinct⟩ := List.nodup_cons.mp distinct
      obtain ⟨other, given, named, readable, read⟩ := ofEntries_cons_eq_ok.mp read
      by_cases same : key = name.label
      · have equal : content = value := by simpa [Fields.find?, same] using found
        have command_eq : given = command := by
          rw [equal, decoded] at readable
          exact (Except.ok.inj readable).symm
        cases ActionName.label_injective _ _ (named.trans same)
        rw [get?_ofEntries_of_missing read (same ▸ fresh)]
        simp [assign, command_eq]
      · exact ih distinct read (by simpa [Fields.find?, same] using found)

/-- The steps that have a command, each with its command as it is written. -/
def table (actions : Actions) : Fields :=
  Fields.ofTable ActionName.all ActionName.label fun name =>
    (actions.get? name).map ActionCommand.encode

/-- Actions are written as the mapping of their table. -/
theorem encode_eq_table (actions : Actions)
    : actions.encode = .mapping actions.table := by
  rw [encode, table, ← Fields.filterMap_eq_ofTable]
  simp [Function.comp_def]

theorem distinct_table (actions : Actions)
    : actions.table.keys.Nodup :=
  (Fields.keys_ofTable_sublist _ _ _).nodup (by decide)

/-- Under the name of a step the sorted table has its command. -/
theorem find?_sortedFields_table (actions : Actions) (name : ActionName)
    : (sortedFields actions.table).find? name.label
      = (actions.get? name).map fun command => command.encode.sorted := by
  rw [find?_sortedFields actions.distinct_table, table,
    Fields.find?_ofTable _ _ _ ActionName.label_injective, if_pos (ActionName.mem_all name)]
  simp [Function.comp_def]

/-- Every entry of the sorted table is the name of a step with a command that is read. -/
theorem readable_table (actions : Actions) {entry : String × Value}
    (member : entry ∈ sortedFields actions.table)
    : ∃ (name : ActionName) (command : ActionCommand),
        name.label = entry.1 ∧ ActionCommand.decode entry.2 = .ok command := by
  obtain ⟨key, value⟩ := entry
  have held := Fields.find?_of_mem (ascending_sortedFields actions.table).distinct member
  have listed : key ∈ actions.table.keys :=
    mem_keys_of_mem_sortedFields actions.distinct_table (List.mem_map_of_mem member)
  obtain ⟨name, _, rfl⟩ :=
    List.mem_map.mp ((Fields.keys_ofTable_sublist _ _ _).subset listed)
  rw [find?_sortedFields_table] at held
  obtain ⟨command, _, rfl⟩ := Option.map_eq_some_iff.mp held
  exact ⟨name, command, rfl, command.decode_sorted_encode⟩

/-- Written actions are read back after they are sorted. Each step with a command is found under
its name, and the other steps are missing.
-/
theorem decode_sorted_encode (actions : Actions)
    : Actions.decode actions.encode.sorted = .ok actions := by
  obtain ⟨final, read⟩ := exists_ofEntries .empty fun _ => actions.readable_table
  have same : final = actions := by
    apply Actions.ext
    intro name
    have found := actions.find?_sortedFields_table name
    cases held : actions.get? name with
    | none =>
        rw [held] at found
        rw [get?_ofEntries_of_missing read (Fields.find?_eq_none_iff.mp found)]
        rfl
    | some command =>
        rw [held] at found
        exact get?_ofEntries_of_found (ascending_sortedFields actions.table).distinct read found
          command.decode_sorted_encode
  rw [encode_eq_table]
  exact read.trans (congrArg Except.ok same)

end Actions

-----------------------------------------------------------------------------------------
-- All kinds of data
-----------------------------------------------------------------------------------------

theorem Notifications.decode_sorted_encode (notifications : Notifications)
    : Notifications.decode notifications.encode.sorted = .ok notifications :=
  rfl

/-- Written data of any kind is read back after it is sorted. -/
theorem DataKind.decode_sorted_encode (kind : DataKind) (data : kind.Data)
    : kind.decode (kind.encode data).sorted = .ok data := by
  cases kind with
  | text => rfl
  | texts =>
      show Overrides.texts (Overrides.encodeTexts data).sorted = _
      rw [sorted_encodeTexts]
      exact texts_encodeTexts data
  | files => exact SyncedFiles.decode_sorted_encode data
  | actions => exact Actions.decode_sorted_encode data
  | flag => rfl
  | notifications => exact Notifications.decode_sorted_encode data

end Packaging
