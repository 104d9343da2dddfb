import ManifestOrder.Config
import ManifestOrder.Proofs.Toml.UniqueKeys

/-!
# What loading a configuration comes to

A configuration file that is there is either loaded or an obstacle, and which of the two is told by
its bytes alone (`load_settled`). Three things are obstacles: bytes that are not text, a whole
number with too many digits, and a value that is no table where the tool's section is looked for. Of
all other bytes the settings are what is documented (`AsDocumented`): the standard ones and a
warning if the bytes hold no document, and otherwise, whatever else the document holds, the value of
each key in the section if it is there.

That a document has *the* value of a key rests on its reader, which lets no key stand twice
(`Toml.parse_uniqueKeys`).
-/

namespace ManifestOrder

open Toml (Table Value ValueAt)

namespace Config

/-- Of a setting: it is the value of its key in the tool's section, and the standard value if no
value stands there. -/
def IsSetting (t : Table) (key : String) (standard value : Value) : Prop :=
  ValueAt t [toolKey, sectionKey, key] value ∨
    (∀ other, ¬ ValueAt t [toolKey, sectionKey, key] other) ∧ value = standard

/-- The document that the bytes hold. -/
def document? (content : ByteArray) : Option Table :=
  (String.fromUTF8? content).bind fun text => (Toml.parse text).toOption

/-- What is loaded is what the documentation says: without a document the standard configuration and
a warning, and with one the settings of its section. -/
def AsDocumented (content : ByteArray) (loaded : LoadedConfig) : Prop :=
  match document? content with
  | none => loaded.config = {} ∧ loaded.warned = true
  | some t =>
    loaded.warned = false ∧
      IsSetting t selectKey ({} : Config).select loaded.config.select ∧
      IsSetting t ignoreKey ({} : Config).ignore loaded.config.ignore ∧
      IsSetting t patternsKey ({} : Config).patterns loaded.config.patterns

/-- Why the bytes of a configuration file cannot be loaded. -/
inductive Obstacle (content : ByteArray) : ConfigError → Prop where
  | notText (undecoded : String.fromUTF8? content = none) : Obstacle content .notText
  | numberTooLong {text : String} (decoded : String.fromUTF8? content = some text)
    (stopped : Toml.parse text = .error .numberTooLong) : Obstacle content .numberTooLong
  | notTable {t : Table} {path : Toml.Key} {value : Value} (read : document? content = some t)
    (onTheWay : path = [toolKey] ∨ path = [toolKey, sectionKey]) (stands : ValueAt t path value)
    (noTable : value.table? = none) : Obstacle content .notTable

/-! ## The tool's section -/

section Section

variable {t : Table} {key : String} {e : ConfigError}

theorem tableAt_eq_error :
    tableAt t key = .error e ↔
      e = .notTable ∧ ∃ value, t.find? key = some value ∧ value.table? = none := by
  unfold tableAt
  split
  · simp [*]
  · simp [*, Value.table?]
  · rename_i value noTable found
    cases value <;> simp_all [Value.table?, eq_comm]

theorem tableAt_eq_ok {inner : Table} :
    tableAt t key = .ok inner ↔
      t.find? key = some (.table inner) ∨ t.find? key = none ∧ inner = [] := by
  unfold tableAt
  split
  · simp [*, eq_comm]
  · simp [*]
  · rename_i value noTable found
    simp only [found]
    grind

theorem tableAt_unique {inner : Table} (unique : t.UniqueKeys) (taken : tableAt t key = .ok inner) :
    inner.UniqueKeys := by
  rcases tableAt_eq_ok.1 taken with found | ⟨_, rfl⟩
  · exact unique.find? found
  · exact .nil

/-- A path goes on in the table at its first key. One that is missing is as good as empty. -/
theorem valueAt_tableAt {inner : Table} (unique : t.UniqueKeys) (taken : tableAt t key = .ok inner)
    {next : String} {path : Toml.Key} {value : Value} :
    ValueAt t (key :: next :: path) value ↔ ValueAt inner (next :: path) value := by
  rw [ValueAt.cons_iff unique]
  rcases tableAt_eq_ok.1 taken with found | ⟨missing, rfl⟩
  · simp [found]
  · have nothing : ¬ ValueAt [] (next :: path) value := by
      rintro (⟨stands⟩ | ⟨stands, _⟩) <;> simp at stands
    simp [missing, nothing]

/-- A value that is no table on the way to the section is the one thing that keeps the settings from
being taken. -/
theorem ofTable_eq_error (unique : t.UniqueKeys) :
    ofTable t = .error e ↔
      e = .notTable ∧ ∃ path value, (path = [toolKey] ∨ path = [toolKey, sectionKey]) ∧
        ValueAt t path value ∧ value.table? = none := by
  constructor
  · intro failed
    unfold ofTable at failed
    split at failed
    · rename_i tool
      cases failed
      obtain ⟨rfl, value, found, noTable⟩ := tableAt_eq_error.1 tool
      exact ⟨rfl, _, value, .inl rfl, (ValueAt.single_iff unique).2 found, noTable⟩
    · rename_i inner tool
      split at failed <;> cases failed
      rename_i below
      obtain ⟨rfl, value, found, noTable⟩ := tableAt_eq_error.1 below
      have stands := (ValueAt.single_iff (tableAt_unique unique tool)).2 found
      exact ⟨rfl, _, value, .inr rfl, (valueAt_tableAt unique tool).2 stands, noTable⟩
  · rintro ⟨rfl, _, value, rfl | rfl, stands, noTable⟩
    · have failed : tableAt t toolKey = .error .notTable :=
        tableAt_eq_error.2 ⟨rfl, value, (ValueAt.single_iff unique).1 stands, noTable⟩
      simp only [ofTable, failed]
    · obtain ⟨inner, found, below⟩ := (ValueAt.cons_iff unique).1 stands
      have taken : tableAt t toolKey = .ok inner := tableAt_eq_ok.2 (.inl found)
      have failed : tableAt inner sectionKey = .error .notTable :=
        tableAt_eq_error.2 ⟨rfl, value, (ValueAt.single_iff (unique.find? found)).1 below, noTable⟩
      simp only [ofTable, taken, failed]

/-- The settings are taken from a table that holds what stands in the section. -/
theorem ofTable_section (unique : t.UniqueKeys) {config : Config} (taken : ofTable t = .ok config) :
    ∃ entries : Table, config = ofSection entries ∧
      ∀ key value, ValueAt t [toolKey, sectionKey, key] value ↔ entries.find? key = some value := by
  unfold ofTable at taken
  split at taken
  · cases taken
  · rename_i inner tool
    split at taken <;> cases taken
    rename_i entries below
    have uniqueInner := tableAt_unique unique tool
    refine ⟨entries, rfl, fun key value => ?_⟩
    rw [valueAt_tableAt unique tool, valueAt_tableAt uniqueInner below,
      ValueAt.single_iff (tableAt_unique uniqueInner below)]

/-- The three settings of a document are those that are taken from it, and no others. -/
theorem isSetting_iff (unique : t.UniqueKeys) {config other : Config}
    (taken : ofTable t = .ok config) :
    (IsSetting t selectKey ({} : Config).select other.select ∧
      IsSetting t ignoreKey ({} : Config).ignore other.ignore ∧
      IsSetting t patternsKey ({} : Config).patterns other.patterns) ↔ other = config := by
  obtain ⟨entries, rfl, stands⟩ := ofTable_section unique taken
  have setting (key : String) (standard value : Value) :
      IsSetting t key standard value ↔ value = (entries.find? key).getD standard := by
    simp only [IsSetting, stands]
    cases entries.find? key <;> simp [eq_comm]
  cases other
  simp only [setting, ofSection, Config.mk.injEq]

end Section

/-! ## The file -/

theorem load_of_read {fs : FileSystem} {p : Path} {content : ByteArray}
    (held : fs.read p = .ok content) : load fs p = ofBytes content := by
  have there : fs.pathExists p = .ok true := by
    unfold FileSystem.read at held
    unfold FileSystem.pathExists
    split at held
    · cases held
    · split at held
      · simp [*]
      · split at held <;> cases held
  simp only [load, there, held]

section Bytes

variable {content : ByteArray} {t : Table} {e : ConfigError} {loaded found : LoadedConfig}

theorem document?_eq_some :
    document? content = some t ↔
      ∃ text, String.fromUTF8? content = some text ∧ Toml.parse text = .ok t := by
  simp only [document?, Option.bind_eq_some_iff]
  refine exists_congr fun text => and_congr_right fun _ => ?_
  cases Toml.parse text <;> simp [Except.toOption]

theorem ofBytes_eq_error : ofBytes content = .error e ↔ Obstacle content e := by
  constructor
  · intro failed
    unfold ofBytes at failed
    split at failed
    · cases failed
      exact .notText ‹_›
    · rename_i text decoded
      split at failed
      · cases failed
      · cases failed
        exact .numberTooLong decoded ‹_›
      · rename_i t read
        have document := document?_eq_some.2 ⟨text, decoded, read⟩
        split at failed <;> cases failed
        obtain ⟨rfl, path, value, onTheWay, stands, noTable⟩ :=
          (ofTable_eq_error (Toml.parse_uniqueKeys read)).1 ‹_›
        exact .notTable document onTheWay stands noTable
  · rintro (undecoded | ⟨decoded, stopped⟩ | ⟨document, onTheWay, stands, noTable⟩)
    · simp only [ofBytes, undecoded]
    · simp only [ofBytes, decoded, stopped]
    · obtain ⟨text, decoded, read⟩ := document?_eq_some.1 document
      have failed := (ofTable_eq_error (Toml.parse_uniqueKeys read)).2
        ⟨rfl, _, _, onTheWay, stands, noTable⟩
      simp only [ofBytes, decoded, read, failed]

/-- Where something is loaded, it alone is as documented. -/
theorem asDocumented_iff (loads : ofBytes content = .ok found) :
    AsDocumented content loaded ↔ loaded = found := by
  unfold ofBytes at loads
  split at loads
  · cases loads
  · rename_i text decoded
    split at loads
    · rename_i malformed
      cases loads
      have noDocument : document? content = none := by
        simp [document?, decoded, malformed, Except.toOption]
      cases loaded
      simp [AsDocumented, noDocument]
    · cases loads
    · rename_i t read
      split at loads <;> cases loads
      rename_i config taken
      have document := document?_eq_some.2 ⟨text, decoded, read⟩
      rw [AsDocumented, document, LoadedConfig.mk.injEq, and_comm (a := loaded.config = config)]
      exact and_congr_right fun _ => isSetting_iff (Toml.parse_uniqueKeys read) taken

theorem ofBytes_eq_ok :
    ofBytes content = .ok loaded ↔ (∀ e, ¬ Obstacle content e) ∧ AsDocumented content loaded := by
  constructor
  · intro loads
    refine ⟨fun e obstacle => ?_, (asDocumented_iff loads).2 rfl⟩
    simp [ofBytes_eq_error.2 obstacle] at loads
  · rintro ⟨free, documented⟩
    cases loads : ofBytes content with
    | error e => exact (free e (ofBytes_eq_error.1 loads)).elim
    | ok found => rw [(asDocumented_iff loads).1 documented]

end Bytes

/-- What the bytes of a configuration file come to. Loading fails exactly on an obstacle, for the
reason of the obstacle, and returns exactly what is documented of all other bytes. -/
theorem load_settled {fs : FileSystem} {p : Path} {content : ByteArray}
    (held : fs.read p = .ok content) :
    (∀ e, load fs p = .error e ↔ Obstacle content e) ∧
      ∀ loaded, load fs p = .ok loaded ↔
        (∀ e, ¬ Obstacle content e) ∧ AsDocumented content loaded := by
  rw [load_of_read held]
  exact ⟨fun _ => ofBytes_eq_error, fun _ => ofBytes_eq_ok⟩

/-! ## Bytes that stop the loading -/

def settingsPath : Path where
  components := [".pom-sort-lint.toml"]

/-- A file system with one file, the configuration. -/
def settingsOf (content : ByteArray) : FileSystem where
  files := [([".pom-sort-lint.toml"], content)]

theorem read_settingsOf (content : ByteArray) :
    (settingsOf content).read settingsPath = .ok content :=
  rfl

/-- A document in which the tools are a number. -/
def toolNumber : ByteArray :=
  "tool = 1".toUTF8

theorem toolNumber_obstacle : Obstacle toolNumber .notTable := by
  have decoded : String.fromUTF8? toolNumber = some "tool = 1" := by
    unfold String.fromUTF8? toolNumber
    rw [String.toUTF8_eq_toByteArray, dif_pos (String.isValidUTF8 _)]
    rfl
  have read : ((Toml.parse "tool = 1").toOption.bind fun t =>
      (t.find? toolKey).map fun value => value.table?.isNone) = some true := by
    decide +kernel
  obtain ⟨t, parsed, tools⟩ := Option.bind_eq_some_iff.1 read
  obtain ⟨value, found, noTable⟩ := Option.map_eq_some_iff.1 tools
  have document : document? toolNumber = some t := by
    rw [document?, decoded]
    exact parsed
  exact .notTable document (.inl rfl) (.last (Table.mem_of_find? found))
    (Option.isNone_iff_eq_none.1 noTable)

theorem load_settled_toolNumber :
    (settingsOf toolNumber).read settingsPath = .ok toolNumber ∧
      load (settingsOf toolNumber) settingsPath = .error .notTable :=
  ⟨read_settingsOf _, ((load_settled (read_settingsOf _)).1 _).2 toolNumber_obstacle⟩

/-- One byte that is no text. -/
def strayByte : ByteArray :=
  ⟨#[0xff]⟩

/-- Loading breaks off at bytes that are not text, and at a document whose tools are a number. -/
theorem load_breaks_off :
    load (settingsOf strayByte) settingsPath = .error .notText ∧
      load (settingsOf toolNumber) settingsPath = .error .notTable ∧
      ¬ ∀ content, ∃ loaded, load (settingsOf content) settingsPath = .ok loaded := by
  have undecoded : String.fromUTF8? strayByte = none := by decide
  have first : load (settingsOf strayByte) settingsPath = .error .notText := by
    rw [load_of_read (read_settingsOf _), ofBytes_eq_error]
    exact .notText undecoded
  have second : load (settingsOf toolNumber) settingsPath = .error .notTable := by
    rw [load_of_read (read_settingsOf _), ofBytes_eq_error]
    exact toolNumber_obstacle
  refine ⟨first, second, fun always => ?_⟩
  obtain ⟨loaded, loads⟩ := always strayByte
  rw [first] at loads
  cases loads

end Config

end ManifestOrder
