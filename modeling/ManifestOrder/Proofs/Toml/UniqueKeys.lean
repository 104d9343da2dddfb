import Mathlib.Data.List.Nodup
import ManifestOrder.Toml.Document

/-!
# Keys that stand once

A table keeps its entries as a list, and the value of a key is the first one under it. Nothing in
the list itself keeps a key from standing twice; the reader does. Every place that adds an entry
looks for its key first, and every place that changes one leaves the keys as they are, so a
document that was read holds each key of each table once (`parse_uniqueKeys`), and then to be found
under a key is to be in the table with it (`Table.find?_eq_some`, `ValueAt`).

The readers of values call each other, and what each of them comes to is said once
(`readValue_cases`, `readElements_cases`, `readEntries_cases`).
-/

namespace ManifestOrder.Toml

/-- In no table of the value, however deep, does a key stand twice. -/
inductive Value.UniqueKeys : Value → Prop where
  | string (text : String) : UniqueKeys (.string text)
  | integer (n : Int) : UniqueKeys (.integer n)
  | real (r : Real) : UniqueKeys (.real r)
  | boolean (b : Bool) : UniqueKeys (.boolean b)
  | moment (text : String) : UniqueKeys (.moment text)
  | array {elements : List Value} (each : ∀ element ∈ elements, UniqueKeys element) :
    UniqueKeys (.array elements)
  | table {entries : Table} (once : (entries.map Prod.fst).Nodup)
    (each : ∀ entry ∈ entries, UniqueKeys entry.2) : UniqueKeys (.table entries)

namespace Table

abbrev keys (t : Table) : List String :=
  t.map Prod.fst

theorem find?_eq_some {t : Table} (once : t.keys.Nodup) {key : String} {value : Value} :
    find? t key = some value ↔ (key, value) ∈ t := by
  rw [find?, List.lookup_eq_some_iff]
  constructor
  · rintro ⟨front, back, rfl, _⟩
    simp
  · intro member
    obtain ⟨front, back, rfl⟩ := List.append_of_mem member
    refine ⟨front, back, rfl, fun entry before => bne_iff_ne.2 fun same => ?_⟩
    simp only [keys, List.map_append, List.map_cons, List.nodup_append] at once
    exact once.2.2 _ (List.mem_map_of_mem before) _ (List.mem_cons_self) same.symm

theorem mem_of_find? {t : Table} {key : String} {value : Value}
    (found : find? t key = some value) : (key, value) ∈ t := by
  obtain ⟨front, back, rfl, _⟩ := List.lookup_eq_some_iff.1 found
  simp

theorem find?_eq_none {t : Table} {key : String} : find? t key = none ↔ key ∉ t.keys := by
  rw [find?, List.lookup_eq_none_iff]
  simp only [bne_iff_ne, keys, List.mem_map, not_exists, not_and]
  exact forall₂_congr fun _ _ => ne_comm

@[simp] theorem keys_set (t : Table) (key : String) (value : Value) :
    (t.set key value).keys = t.keys := by
  simp only [keys, set, List.map_map]
  refine List.map_congr_left fun entry _ => ?_
  simp only [Function.comp]
  split <;> simp [*]

end Table

namespace Value.UniqueKeys

theorem of_array {elements : List Value} (unique : UniqueKeys (.array elements)) :
    ∀ element ∈ elements, UniqueKeys element := by
  cases unique with
  | array each => exact each

theorem once {entries : Table} (unique : UniqueKeys (.table entries)) : entries.keys.Nodup := by
  cases unique with
  | table once => exact once

theorem of_table {entries : Table} (unique : UniqueKeys (.table entries)) :
    ∀ entry ∈ entries, UniqueKeys entry.2 := by
  cases unique with
  | table _ each => exact each

theorem nil : UniqueKeys (.table []) :=
  .table List.nodup_nil (by simp)

end Value.UniqueKeys

namespace Table

/-- The keys of the table are unique, and so are those of every table in it. -/
abbrev UniqueKeys (t : Table) : Prop :=
  Value.UniqueKeys (.table t)

namespace UniqueKeys

variable {t : Table} {key : String} {value : Value}

theorem find? (unique : t.UniqueKeys) (found : t.find? key = some value) : value.UniqueKeys :=
  unique.of_table _ (mem_of_find? found)

theorem add (unique : t.UniqueKeys) (missing : t.find? key = none) (new : value.UniqueKeys) :
    (t.add key value).UniqueKeys := by
  refine .table ?_ fun entry member => ?_
  · simp only [Table.add, List.map_append, List.map_cons, List.map_nil]
    exact List.nodup_append.2 ⟨unique.once, List.nodup_singleton _, fun other old _ added =>
      (List.mem_singleton.1 added ▸ fun same => find?_eq_none.1 missing (same ▸ old))⟩
  · rcases List.mem_append.1 member with old | added
    · exact unique.of_table _ old
    · exact List.mem_singleton.1 added ▸ new

theorem set (unique : t.UniqueKeys) (new : value.UniqueKeys) : (t.set key value).UniqueKeys := by
  refine .table (by simpa using unique.once) fun entry member => ?_
  obtain ⟨old, within, rfl⟩ := List.mem_map.1 member
  split
  · exact new
  · exact unique.of_table _ within

/-- The keys stay unique when a change at the end of a path leaves them so. -/
theorem modifyAt? {throughArrays : Bool} {change : Table → Option Table}
    (kept : ∀ {t changed : Table}, t.UniqueKeys → change t = some changed → changed.UniqueKeys)
    {path : Key} (unique : t.UniqueKeys) {changed : Table}
    (modified : Table.modifyAt? throughArrays change path t = some changed) :
    changed.UniqueKeys := by
  induction path, t using Table.modifyAt?.induct throughArrays generalizing changed with
  | case1 t => exact kept unique modified
  | case2 key path t missing ih =>
    simp only [Table.modifyAt?, missing, Option.map_eq_some_iff] at modified
    obtain ⟨inner, below, rfl⟩ := modified
    exact unique.add missing (ih .nil below)
  | case3 key path t inner found ih =>
    simp only [Table.modifyAt?, found, Option.map_eq_some_iff] at modified
    obtain ⟨inner', below, rfl⟩ := modified
    exact unique.set (ih (unique.find? found) below)
  | case4 key path t elements found inner last through ih =>
    subst through
    simp only [Table.modifyAt?, found, last, Option.map_eq_some_iff] at modified
    obtain ⟨inner', below, rfl⟩ := modified
    have each := (unique.find? found).of_array
    refine unique.set (.array fun element member => ?_)
    rcases List.mem_append.1 member with before | changed
    · exact each _ (List.dropLast_subset _ before)
    · exact List.mem_singleton.1 changed ▸ ih (each _ (List.mem_of_getLast? last)) below
  | case5 key path t elements found other =>
    simp [Table.modifyAt?, found] at modified
  | case6 key path t value noTable noArray found =>
    simp [Table.modifyAt?, found] at modified

theorem addNew? (unique : t.UniqueKeys) (new : value.UniqueKeys) {added : Table}
    (read : Toml.addNew? key value t = some added) : added.UniqueKeys := by
  unfold Toml.addNew? at read
  split at read
  · simp at read
  · rename_i missing
    obtain rfl := Option.some.inj read
    exact unique.add (by simpa using missing) new

theorem addAt? (unique : t.UniqueKeys) (new : value.UniqueKeys) {throughArrays : Bool} {path : Key}
    {added : Table} (read : Toml.addAt? throughArrays t path value = some added) :
    added.UniqueKeys := by
  unfold Toml.addAt? at read
  split at read
  · simp at read
  · exact unique.modifyAt? (fun unique read => unique.addNew? new read) read

end UniqueKeys

end Table

theorem orMalformed_eq_ok {α : Type} {read : Option α} {a : α} :
    orMalformed read = .ok a ↔ read = some a := by
  cases read <;> simp [orMalformed]

/-! ## Values as they are read -/

theorem Value.UniqueKeys.of_open {value : Value} (plain : value.isClosed = false) :
    value.UniqueKeys := by
  cases value with
  | string text => exact .string text
  | integer n => exact .integer n
  | real r => exact .real r
  | boolean b => exact .boolean b
  | moment text => exact .moment text
  | array | table => simp [isClosed] at plain

section Plain

variable {s rest : List Char} {value : Value}

/-- A reader that makes plain values of what it finds reads plain values. -/
theorem open_of_map {α : Type} {found : Option α} {make : α → Value × List Char}
    (plain : ∀ a, (make a).1.isClosed = false) (read : found.map make = some (value, rest)) :
    value.isClosed = false := by
  obtain ⟨a, _, same⟩ := Option.map_eq_some_iff.1 read
  have made := plain a
  rwa [same] at made

theorem string?_open (read : string? s = some (value, rest)) : value.isClosed = false :=
  open_of_map (fun _ => rfl) read

theorem boolean?_open (read : boolean? s = some (value, rest)) : value.isClosed = false := by
  unfold boolean? at read
  split at read
  · cases read
    rfl
  · exact open_of_map (fun _ => rfl) read

theorem moment?_open (read : moment? s = some (value, rest)) : value.isClosed = false :=
  open_of_map (fun _ => rfl) read

theorem based?_open (read : based? s = some (value, rest)) : value.isClosed = false := by
  unfold based? at read
  split at read
  · exact open_of_map (fun _ => rfl) read
  · exact open_of_map (fun _ => rfl) read
  · exact open_of_map (fun _ => rfl) read
  · cases read

theorem special?_open (read : special? s = some (value, rest)) : value.isClosed = false := by
  unfold special? at read
  split at read
  split at read
  · cases read
    rfl
  · exact open_of_map (fun _ => rfl) read

theorem wholeNumber_open {negative : Bool} {digits : List Char}
    (read : wholeNumber negative digits = .ok value) : value.isClosed = false := by
  unfold wholeNumber at read
  split at read <;> cases read
  rfl

theorem decimal_open (read : decimal s = .ok (value, rest)) : value.isClosed = false := by
  unfold decimal at read
  split at read
  split at read
  · cases read
  · split at read
    split at read
    · cases read
      rfl
    · split at read
      · unfold Except.map at read
        split at read
        · cases read
        · rename_i whole
          cases read
          exact wholeNumber_open whole
      · cases read
        rfl

theorem number_open (read : number s = .ok (value, rest)) : value.isClosed = false := by
  unfold number at read
  split at read
  · rename_i found
    cases read
    rcases Option.or_eq_some_iff.1 (Option.orElse_eq_or .. ▸ found) with based | ⟨_, special⟩
    · exact based?_open based
    · exact special?_open special
  · exact decimal_open read

theorem plainValue_open (read : plainValue s = .ok (value, rest)) : value.isClosed = false := by
  unfold plainValue at read
  split at read
  · exact string?_open (orMalformed_eq_ok.1 read)
  · exact string?_open (orMalformed_eq_ok.1 read)
  · split at read
    · rename_i found
      cases read
      rcases Option.or_eq_some_iff.1 (Option.orElse_eq_or .. ▸ found) with boolean | ⟨_, moment⟩
      · exact boolean?_open boolean
      · exact moment?_open moment
    · exact number_open read

end Plain

/-! ## Arrays and inline tables -/

section Nested

variable {s : List Char} {rest : Shorter s}

theorem readValue_cases {value : Value} (read : readValue s = .ok (value, rest)) :
    (∃ inner elements left, inner.length < s.length ∧
      readElements inner = .ok (elements, left) ∧ value = .array elements) ∨
    value = .table [] ∨
    (∃ inner entries left, inner.length < s.length ∧
      readEntries {} inner = .ok (entries, left) ∧ value = .table entries) ∨
    value.isClosed = false := by
  unfold readValue at read
  split at read
  · rename_i body
    split at read <;> cases read
    rename_i inside
    exact .inl ⟨body, _, _, by simp, inside, rfl⟩
  · rename_i body
    have blanks : (skipBlanks body).length ≤ body.length :=
      (List.dropWhile_suffix isBlankChar).length_le
    split at read
    · cases read
      exact .inr (.inl rfl)
    · split at read <;> cases read
      rename_i inside
      exact .inr (.inr (.inl ⟨_, _, _, Nat.lt_succ_of_le blanks, inside, rfl⟩))
  · split at read
    · cases read
    · rename_i found plain
      obtain ⟨value', left⟩ := found
      have fits := orMalformed_eq_ok.1 read
      unfold shortened at fits
      split at fits
      · cases fits
      · rename_i same
        split at fits <;> cases fits
        cases same
        exact .inr (.inr (.inr (plainValue_open plain)))

theorem readElements_cases {elements : List Value}
    (read : readElements s = .ok (elements, rest)) :
    elements = [] ∨ ∃ first element left others, first.length ≤ s.length ∧
      readValue first = .ok (element, left) ∧ elements = element :: others ∧
      (others = [] ∨ ∃ next left, next.length < s.length ∧
        readElements next = .ok (others, left)) := by
  revert read
  fun_cases readElements s
  case case3 =>
    rintro ⟨⟩
    exact .inl rfl
  case case7 c body _ _ _ least element _ _ inside _ _ _ _ =>
    rintro ⟨⟩
    exact .inr ⟨c :: body, element, _, [], least, inside, rfl, .inl rfl⟩
  case case9 c body _ _ _ least element _ _ inside next others _ _ further _ _ less _ =>
    rintro ⟨⟩
    exact .inr ⟨c :: body, element, _, others, least, inside, rfl, .inr ⟨next, _, less, further⟩⟩
  all_goals rintro ⟨⟩

theorem readEntries_cases {t : InlineTable} {entries : Table}
    (read : readEntries t s = .ok (entries, rest)) :
    ∃ key afterSign value left t', afterSign.length < s.length ∧
      readValue afterSign = .ok (value, left) ∧ t.add? key value = some t' ∧
      (entries = t'.entries ∨ ∃ next left, next.length < s.length ∧
        readEntries t' next = .ok (entries, left)) := by
  revert read
  fun_cases readEntries t s
  case case5 key afterSign less _ value left _ inside t' added _ _ _ _ =>
    rintro ⟨⟩
    exact ⟨key, afterSign, value, _, t', less, inside, added, .inl rfl⟩
  case case7 key afterSign less _ value _ _ inside t' added _ after _ entries _ _ further _ _ _ =>
    rintro ⟨⟩
    exact ⟨key, afterSign, value, _, t', less, inside, added,
      .inr ⟨skipBlanks after, _, by omega, further⟩⟩
  all_goals rintro ⟨⟩

end Nested

theorem InlineTable.add?_unique {t added : InlineTable} (unique : t.entries.UniqueKeys) {key : Key}
    {value : Value} (new : value.UniqueKeys) (read : t.add? key value = some added) :
    added.entries.UniqueKeys := by
  unfold InlineTable.add? at read
  split at read
  · cases read
  · obtain ⟨entries, below, rfl⟩ := Option.map_eq_some_iff.1 read
    exact unique.addAt? new below

mutual

theorem readValue_unique {s : List Char} {value : Value} {rest : Shorter s}
    (read : readValue s = .ok (value, rest)) : value.UniqueKeys := by
  obtain ⟨inner, elements, left, less, inside, rfl⟩ | rfl |
    ⟨inner, entries, left, less, inside, rfl⟩ | plain := readValue_cases read
  · exact .array (readElements_unique inside)
  · exact .nil
  · exact readEntries_unique .nil inside
  · exact .of_open plain
termination_by 2 * s.length

theorem readElements_unique {s : List Char} {elements : List Value} {rest : Shorter s}
    (read : readElements s = .ok (elements, rest)) : ∀ element ∈ elements, element.UniqueKeys := by
  obtain rfl | ⟨first, element, left, others, least, inside, rfl, further⟩ :=
    readElements_cases read
  · simp
  · refine List.forall_mem_cons.2 ⟨readValue_unique inside, ?_⟩
    obtain rfl | ⟨next, left, less, further⟩ := further
    · simp
    · exact readElements_unique further
termination_by 2 * s.length + 1

theorem readEntries_unique {t : InlineTable} (unique : t.entries.UniqueKeys) {s : List Char}
    {entries : Table} {rest : Shorter s} (read : readEntries t s = .ok (entries, rest)) :
    entries.UniqueKeys := by
  obtain ⟨key, afterSign, value, left, t', less, inside, added, further⟩ := readEntries_cases read
  have kept := InlineTable.add?_unique unique (readValue_unique inside) added
  obtain rfl | ⟨next, left, less', further⟩ := further
  · exact kept
  · exact readEntries_unique kept further
termination_by 2 * s.length + 1

end

/-! ## Documents -/

namespace Reading

variable {r r' : Reading}

theorem openTable?_unique (unique : r.entries.UniqueKeys) {key : Key}
    (opened : r.openTable? key = some r') : r'.entries.UniqueKeys := by
  unfold openTable? at opened
  split at opened
  · cases opened
  · obtain ⟨entries, modified, rfl⟩ := Option.map_eq_some_iff.1 opened
    exact unique.modifyAt? (fun unique same => Option.some.inj same ▸ unique) modified

theorem addElement?_unique {last : String} {t added : Table} (unique : t.UniqueKeys)
    (read : addElement? last t = some added) : added.UniqueKeys := by
  unfold addElement? at read
  split at read
  · rename_i missing
    cases read
    exact unique.add missing (.array (by simpa using .nil))
  · rename_i elements found
    cases read
    refine unique.set (.array fun element member => ?_)
    rcases List.mem_append.1 member with old | new
    · exact (unique.find? found).of_array _ old
    · exact List.mem_singleton.1 new ▸ .nil
  · cases read

theorem openElement?_unique (unique : r.entries.UniqueKeys) {key : Key}
    (opened : r.openElement? key = some r') : r'.entries.UniqueKeys := by
  unfold openElement? at opened
  split at opened
  · cases opened
  · split at opened
    · cases opened
    · obtain ⟨entries, modified, rfl⟩ := Option.map_eq_some_iff.1 opened
      exact unique.modifyAt? addElement?_unique modified

theorem addEntry?_unique (unique : r.entries.UniqueKeys) {key : Key} {value : Value}
    (new : value.UniqueKeys) (added : r.addEntry? key value = some r') :
    r'.entries.UniqueKeys := by
  unfold addEntry? at added
  simp only at added
  split at added
  · cases added
  · obtain ⟨entries, below, rfl⟩ := Option.map_eq_some_iff.1 added
    exact unique.addAt? new below

end Reading

section Lines

variable {r r' : Reading} {s rest : List Char}

theorem readEntry_unique (unique : r.entries.UniqueKeys) (read : readEntry r s = .ok (r', rest)) :
    r'.entries.UniqueKeys := by
  unfold readEntry at read
  split at read
  · cases read
  · split at read
    · cases read
    · rename_i value _ inside
      obtain ⟨_, added, same⟩ := Option.map_eq_some_iff.1 (orMalformed_eq_ok.1 read)
      cases same
      exact r.addEntry?_unique unique (readValue_unique inside) added

theorem readStatement_unique (unique : r.entries.UniqueKeys)
    (read : readStatement r s = .ok (r', rest)) : r'.entries.UniqueKeys := by
  unfold readStatement at read
  split at read
  · obtain ⟨_, _, found⟩ := Option.bind_eq_some_iff.1 (orMalformed_eq_ok.1 read)
    obtain ⟨_, opened, same⟩ := Option.map_eq_some_iff.1 found
    cases same
    exact r.endSection.openElement?_unique unique opened
  · split at read
    · obtain ⟨_, _, found⟩ := Option.bind_eq_some_iff.1 (orMalformed_eq_ok.1 read)
      obtain ⟨_, opened, same⟩ := Option.map_eq_some_iff.1 found
      cases same
      exact r.endSection.openTable?_unique unique opened
    · exact readEntry_unique unique read

theorem readLine_unique (unique : r.entries.UniqueKeys) (read : readLine r s = .ok (r', rest)) :
    r'.entries.UniqueKeys := by
  unfold readLine at read
  split at read
  · cases read
    exact unique
  · split at read
    · cases read
      exact unique
    · split at read
      · obtain ⟨_, _, same⟩ := Option.map_eq_some_iff.1 (orMalformed_eq_ok.1 read)
        cases same
        exact unique
      · split at read
        · cases read
        · rename_i statement
          obtain ⟨_, _, same⟩ := Option.map_eq_some_iff.1 (orMalformed_eq_ok.1 read)
          cases same
          exact readStatement_unique unique statement

theorem readLines_unique (unique : r.entries.UniqueKeys) (read : readLines r s = .ok r') :
    r'.entries.UniqueKeys := by
  induction r, s using readLines.induct with
  | case2 r s r₁ line =>
    rw [readLines, line] at read
    cases read
    exact readLine_unique unique line
  | case3 r s r₁ rest less line ih =>
    rw [readLines, line] at read
    simp only [less, if_true] at read
    exact ih (readLine_unique unique line) read
  | case1 | case4 | case5 =>
    rw [readLines] at read
    simp [*] at read

/-- In a document that was read no key stands twice in a table. -/
theorem parse_uniqueKeys {text : String} {t : Table} (read : parse text = .ok t) :
    t.UniqueKeys := by
  unfold parse Except.map at read
  split at read
  · cases read
  · rename_i lines
    cases read
    exact readLines_unique .nil lines

end Lines

/-! ## Values at the end of a path -/

/-- The value stands in the table at the end of a path of keys, with tables on the way. -/
inductive ValueAt : Table → Key → Value → Prop where
  | last {t : Table} {key : String} {value : Value} (stands : (key, value) ∈ t) :
    ValueAt t [key] value
  | through {t inner : Table} {key : String} {path : Key} {value : Value}
    (stands : (key, .table inner) ∈ t) (further : ValueAt inner path value) :
    ValueAt t (key :: path) value

namespace ValueAt

variable {t : Table} {key next : String} {path : Key} {value : Value}

theorem single_iff (unique : t.UniqueKeys) :
    ValueAt t [key] value ↔ t.find? key = some value := by
  rw [Table.find?_eq_some unique.once]
  constructor
  · intro found
    cases found with
    | last stands => exact stands
    | through _ further => cases further
  · exact .last

theorem cons_iff (unique : t.UniqueKeys) :
    ValueAt t (key :: next :: path) value ↔
      ∃ inner, t.find? key = some (.table inner) ∧ ValueAt inner (next :: path) value := by
  simp only [Table.find?_eq_some unique.once]
  constructor
  · intro found
    cases found with
    | through stands further => exact ⟨_, stands, further⟩
  · rintro ⟨inner, stands, further⟩
    exact .through stands further

end ValueAt

end ManifestOrder.Toml
