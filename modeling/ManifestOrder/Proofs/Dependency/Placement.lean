import ManifestOrder.Proofs.Dependency.Extract
import ManifestOrder.Proofs.Xml.Placement

/-!
# What records say about their text

A list of records is faithful to a text (`DependencyList.FaithfulTo`) when its spans are spans of
the text, the records lie between the tags of the container, one behind the other, and each of them
has the text of its span and the line on which that text begins. `extract?_faithful` is the main
result: what is read from a text is faithful to it.

Spans count characters. Where an element starts is known by the bytes in front of it, and these lead
to the same offset (`Covers`), whatever the characters in front of it are.
-/

namespace ManifestOrder.Dependency

open Edit (Span)
open Text (Position Trimmed charOffset? utf8Length)
open Xml

/-- The line of an offset: the first line is line 1, and each line feed before the offset ends one. -/
def lineAt (text : List Char) (offset : Int) : Int :=
  1 + (text.take offset.toNat).count '\n'

/-- The part of a text that a span covers. -/
def cut (text : List Char) (span : Span) : List Char :=
  (text.take span.stop.toNat).drop span.start.toNat

/-- A span of a text with at least one character in it. Both ends are what the number of bytes in
front of them is turned into. -/
structure Covers (text : List Char) (span : Span) : Prop where
  within : span.Within text.length
  filled : span.start < span.stop
  start : charOffset? text (utf8Length (text.take span.start.toNat)) = some span.start
  stop : charOffset? text (utf8Length (text.take span.stop.toNat)) = some span.stop

/-- An id that was read from a manifest: it is given, and no blanks stand around it. -/
def ReadId (id : Option String) : Prop :=
  ∃ word, id = some word ∧ Trimmed word.toList

/-- The record says what stands in the text. -/
structure Record.FaithfulTo (text : List Char) (r : Record) : Prop where
  covers : Covers text r.span
  source : r.text = cut text r.span
  opens : r.text.head? = some '<'
  closes : r.text.getLast? = some '>'
  line : r.line = lineAt text r.span.start
  groupId : ReadId r.groupId
  artifactId : ReadId r.artifactId

/-- The record stands between the tags of the container. -/
structure Record.Inside (container : Span) (containerLine : Int) (r : Record) : Prop where
  start : container.start < r.span.start
  stop : r.span.stop < container.stop
  line : containerLine ≤ r.line

/-- The list says what stands in the text. -/
structure DependencyList.FaithfulTo (text : List Char) (list : DependencyList) : Prop where
  missing : list.container = none → list.records = [] ∧ list.containerLine = 0
  container : ∀ span, list.container = some span →
    Covers text span ∧ list.containerLine = lineAt text span.start
  inside : ∀ span, list.container = some span →
    ∀ r ∈ list.records, r.Inside span list.containerLine
  records : ∀ r ∈ list.records, r.FaithfulTo text
  apart : list.records.Pairwise fun a b => a.span.stop ≤ b.span.start ∧ a.line ≤ b.line

/-! ## Elements -/

theorem childText_trimmed (e : Xml.Placed) (name : String) : Trimmed (childText e name).toList := by
  unfold childText
  split
  · rename_i child found
    rw [String.toList_ofList]
    cases child.element with
    | empty tag => exact Text.trimmed_nil
    | paired opening inner closing => exact Text.trim_trimmed _
  · exact Text.trimmed_nil

section
variable {text : List Char} {e : Xml.Placed}

theorem spanOf_covers (lies : e.LiesIn {} text) (stands : e.element.StandsBefore []) :
    Covers text (spanOf e) := by
  have long : 0 < e.source.length := by
    obtain ⟨c, rest, begins, -⟩ := stands.begins
    rw [Xml.Placed.source, begins]
    exact Nat.succ_pos _
  have bound := lies.stop_le
  have stop : e.stop.offset = e.start.offset + e.source.length := rfl
  refine ⟨?_, ?_, lies.start_bytes, lies.stop_bytes⟩
  · simp only [Span.Within, spanOf]
    omega
  · simp only [spanOf]
    omega

theorem start_line (lies : e.LiesIn {} text) :
    (e.start.line : Int) = lineAt text e.start.offset := by
  rw [lies.line, Int.natCast_add]
  rfl

theorem ofEntry_faithful (lies : e.LiesIn {} text) (stands : e.element.StandsBefore []) :
    (Record.ofEntry e).FaithfulTo text where
  covers := spanOf_covers lies stands
  source := lies.cut
  opens := by
    obtain ⟨c, rest, begins, -⟩ := stands.begins
    show e.element.source.head? = some '<'
    rw [begins, List.head?_cons]
  closes := by
    obtain ⟨front, ends⟩ := stands.ends
    show e.element.source.getLast? = some '>'
    rw [← ends, List.getLast?_concat]
  line := start_line lies
  groupId := ⟨_, rfl, childText_trimmed e groupIdName⟩
  artifactId := ⟨_, rfl, childText_trimmed e artifactIdName⟩

end

/-! ## The list of a document -/

theorem ofDocument_faithful {d : Document} (stands : d.Stands) :
    (DependencyList.ofDocument d).FaithfulTo d.source := by
  cases found : container? d with
  | none =>
    rw [ofDocument_of_none found]
    refine ⟨fun _ => ⟨rfl, rfl⟩, ?_, ?_, ?_, ?_⟩ <;> simp
  | some list =>
    have member := container?_mem found
    have list_stands : list.element.StandsBefore [] := standsAlone_of_named stands.root member
    have list_lies : list.LiesIn {} d.source :=
      Xml.Placed.child_lies d.rootElement_lies (List.mem_filter.1 member).1
    have entry {e : Xml.Placed} (inside : e ∈ list.childrenNamed entryName) : e ∈ list.children :=
      (List.mem_filter.1 inside).1
    simp only [DependencyList.ofDocument, found]
    refine ⟨by simp, ?_, ?_, ?_, ?_⟩
    · rintro span ⟨⟩
      exact ⟨spanOf_covers list_lies list_stands, start_line list_lies⟩
    · rintro span ⟨⟩ r r_mem
      obtain ⟨e, inside, rfl⟩ := List.mem_map.1 r_mem
      obtain ⟨start, stop, line⟩ := Xml.Placed.child_inside list_stands (entry inside)
      exact ⟨Int.ofNat_lt.2 start, Int.ofNat_lt.2 stop, Int.ofNat_le.2 line⟩
    · intro r r_mem
      obtain ⟨e, inside, rfl⟩ := List.mem_map.1 r_mem
      exact ofEntry_faithful (Xml.Placed.child_lies list_lies (entry inside))
        (standsAlone_of_named list_stands inside)
    · refine List.pairwise_map.2 (((Content.children_precede _ _).sublist
        List.filter_sublist).imp ?_)
      rintro a b ⟨between, start⟩
      simp only [Record.ofEntry, spanOf, start, Xml.Placed.stop, Position.after]
      omega

/-- What is read from a text is faithful to it. -/
theorem extract?_faithful {text : List Char} {list : DependencyList}
    (read : extract? text = some list) : list.FaithfulTo text := by
  obtain ⟨d, document, rfl⟩ := extract?_eq_some read
  obtain ⟨rfl, stands⟩ := Document.ofText?_sound document
  exact ofDocument_faithful stands

/-- A manifest with characters of one to four bytes before, between and in its entries. -/
def mixedWidths : List Char :=
  ("<project><!-- é€𝄞 -->\n<dependencies>\n<dependency><groupId> ü </groupId></dependency>" ++
    "€𝄞<dependency/></dependencies></project>").toList

theorem extract?_faithful_mixedWidths : ∃ list, extract? mixedWidths = some list ∧
    list.records.map Record.span = [⟨37, 84⟩, ⟨86, 99⟩] ∧ list.FaithfulTo mixedWidths := by
  have spans : (extract? mixedWidths).map (fun list => list.records.map Record.span) =
      some [⟨37, 84⟩, ⟨86, 99⟩] := by
    decide +kernel
  obtain ⟨list, read, found⟩ := Option.map_eq_some_iff.1 spans
  exact ⟨list, read, found, extract?_faithful read⟩

end ManifestOrder.Dependency
