import ManifestOrder.Proofs.Edit.Slots
import ManifestOrder.Proofs.Xml.Fill
import ManifestOrder.Dependency.Extract

/-!
# The records of a document

A document with a dependency list is a front, the list and a back (`ListAt`). The entries of the
list are slots of the whole text, and the records are these slots (`Laid`). What a record says, its
text and its ids, depends on the element only and not on where it stands (`ofEntry_entry`).
-/

namespace ManifestOrder.Dependency

open Edit (Span slots)
open Text (weave Position)
open Xml

/-- The records are entries of a text, with the given gaps around them. -/
structure Laid (gaps : List (List Char)) (text : List Char) (records : List Record) : Prop where
  count : gaps.length = records.length + 1
  source : text = weave gaps (records.map Record.text)
  spans : records.map Record.span = slots 0 gaps (records.map Record.text)

theorem Laid.texts_count {gaps : List (List Char)} {text : List Char} {records : List Record}
    (laid : Laid gaps text records) : gaps.length = (records.map Record.text).length + 1 := by
  rw [laid.count, List.length_map]

/-- What a record says about its entry, wherever the entry stands. -/
def Record.entry (r : Record) : List Char × Option String × Option String :=
  (r.text, r.groupId, r.artifactId)

/-! ## Elements and their places -/

theorem place_spans (p : Position) (gaps : List (List Char)) (es : List Element) :
    (place p gaps es).map spanOf = slots p.offset gaps (es.map Element.source) := by
  induction es generalizing p gaps with
  | nil => cases gaps <;> rfl
  | cons e es ih =>
    cases gaps with
    | nil => rfl
    | cons gap gaps =>
      rw [place, List.map_cons, ih, List.map_cons, slots]
      rfl

theorem childrenNamed_elements (e : Placed) (name : String) :
    (e.childrenNamed name).map Placed.element = e.element.content.elementsNamed name := by
  have named := Content.children_named name (e.start.after e.element.tag.text) e.element.content
    [] []
  rw [Position.after_nil] at named
  have room : (e.element.content.elementsNamed name).length ≤
      (e.element.content.gaps name [] []).length := by
    rw [Content.gaps_length]
    exact Nat.le_succ _
  exact (congrArg (List.map Placed.element) named).trans (place_elements room)

/-- The text of a child does not depend on the place of its parent. -/
theorem childText_eq {a b : Placed} (same : a.element = b.element) (name : String) :
    childText a name = childText b name := by
  have children : (a.firstChildNamed? name).map Placed.element =
      (b.firstChildNamed? name).map Placed.element := by
    rw [Placed.firstChildNamed?, Placed.firstChildNamed?, ← List.head?_map, ← List.head?_map,
      childrenNamed_elements, childrenNamed_elements, same]
  unfold childText
  cases here : a.firstChildNamed? name with
  | none =>
    cases there : b.firstChildNamed? name with
    | none => rfl
    | some child => simp [here, there] at children
  | some child =>
    cases there : b.firstChildNamed? name with
    | none => simp [here, there] at children
    | some other =>
      simp only [here, there, Option.map_some, Option.some.injEq] at children
      simp only [children]

theorem ofEntry_entry {a b : Placed} (same : a.element = b.element) :
    (Record.ofEntry a).entry = (Record.ofEntry b).entry := by
  have source : a.source = b.source := congrArg Element.source same
  simp only [Record.entry, Record.ofEntry, source, childText_eq same]

/-! ## Where the list stands -/

/-- The texts around the dependency lists of a root element. -/
def rootGaps (d : Document) : List (List Char) :=
  d.root.content.gaps listName (d.root.ending ++ d.trailing)
    (d.before.flatMap Leaf.text ++ d.root.tag.text)

theorem weave_rootGaps (d : Document) :
    weave (rootGaps d) ((d.root.content.elementsNamed listName).map Element.source) = d.source := by
  rw [rootGaps, Content.weave_gaps, Content.onto_append, Document.source_eq, Element.source_eq]
  simp only [List.append_assoc]

theorem root_children (d : Document) :
    d.rootElement.childrenNamed listName =
      place {} (rootGaps d) (d.root.content.elementsNamed listName) :=
  Placed.childrenNamed_eq listName d.root _ _

/-- The first list of the project stands between `front` and `back`. -/
structure ListAt (d : Document) (list : Element) (front back : List Char) : Prop where
  project : d.root.isNamed projectName = true
  first : ∃ others gaps, d.root.content.elementsNamed listName = list :: others ∧
    rootGaps d = front :: gaps ∧ back = weave gaps (others.map Element.source)

/-- The texts around the entries of a list. -/
def entryGaps (list : Element) (front back : List Char) : List (List Char) :=
  list.content.gaps entryName (list.ending ++ back) (front ++ list.tag.text)

theorem weave_entryGaps (list : Element) (front back : List Char) :
    weave (entryGaps list front back)
      ((list.content.elementsNamed entryName).map Element.source) =
        front ++ list.source ++ back := by
  rw [entryGaps, Content.weave_gaps, Content.onto_append, Element.source_eq]
  simp only [List.append_assoc]

theorem container?_eq_some {d : Document} {list : Placed} (found : container? d = some list) :
    ∃ front back, ListAt d list.element front back ∧ list.start = Position.after {} front := by
  unfold container? at found
  split at found
  · rename_i project
    rw [Placed.firstChildNamed?, root_children] at found
    have count : (rootGaps d).length = _ := Content.gaps_length _ _ _
    obtain ⟨front, gaps, split⟩ := List.exists_cons_of_length_eq_add_one count
    rw [split] at found
    cases named : d.root.content.elementsNamed listName with
    | nil => simp [named, place] at found
    | cons e others =>
      rw [named, place, List.head?_cons, Option.some.injEq] at found
      subst found
      exact ⟨front, _, ⟨beq_iff_eq.2 project, others, gaps, named, split, rfl⟩, rfl⟩
  · simp at found

namespace ListAt

variable {d : Document} {list : Element} {front back : List Char}

theorem mem (found : ListAt d list front back) :
    list ∈ d.root.content.elementsNamed listName := by
  obtain ⟨others, gaps, named, -⟩ := found.first
  rw [named]
  exact List.mem_cons_self

theorem isNamed (found : ListAt d list front back) : list.isNamed listName = true :=
  (List.mem_filter.1 found.mem).2

theorem container (found : ListAt d list front back) :
    container? d = some ⟨list, Position.after {} front⟩ := by
  obtain ⟨others, gaps, named, split, -⟩ := found.first
  have project : d.rootElement.name = projectName := beq_iff_eq.1 found.project
  rw [container?, if_pos project, Placed.firstChildNamed?, root_children, named, split, place,
    List.head?_cons]

theorem source (found : ListAt d list front back) : d.source = front ++ list.source ++ back := by
  obtain ⟨others, gaps, named, split, rfl⟩ := found.first
  rw [← weave_rootGaps, named, split, List.map_cons, Text.weave_cons]

/-- Another list in the place of the first one. -/
theorem replace (found : ListAt d list front back) {other : Element} (tag : other.tag = list.tag) :
    ListAt (d.withRoot (d.root.fill listName [other])) other front back := by
  obtain ⟨others, gaps, named, split, behind⟩ := found.first
  have isList : other.isNamed listName = true := by
    rw [Element.isNamed, tag]
    exact found.isNamed
  have each : ∀ e ∈ [other], e.isNamed listName = true := by simpa using isList
  -- the project, the lists in it and the gaps around them, each seen through `fill`
  refine ⟨?_, others, gaps, ?_, ?_, behind⟩
  · show (d.root.fill listName [other]).isNamed projectName = true
    rw [Element.isNamed, Element.fill_tag]
    exact found.project
  · show (d.root.fill listName [other]).content.elementsNamed listName = other :: others
    rw [Element.fill_content, Content.elementsNamed_fill each (by simp [named]), named]
    rfl
  · show (d.root.fill listName [other]).content.gaps listName
      ((d.root.fill listName [other]).ending ++ d.trailing)
      (d.before.flatMap Leaf.text ++ (d.root.fill listName [other]).tag.text) = front :: gaps
    rw [Element.fill_content, Element.fill_ending, Element.fill_tag, Content.gaps_fill each]
    exact split

theorem ofDocument (found : ListAt d list front back) :
    DependencyList.ofDocument d =
      { records := (place {} (entryGaps list front back)
          (list.content.elementsNamed entryName)).map Record.ofEntry
        container := some ⟨front.length, front.length + list.source.length⟩
        containerLine := (Position.after {} front).line } := by
  rw [DependencyList.ofDocument, found.container]
  simp only [Placed.childrenNamed_eq entryName list front (list.ending ++ back)]
  simp only [spanOf, Placed.stop, Placed.source, Position.after, entryGaps, Nat.zero_add,
    Int.natCast_add]

end ListAt

/-! ## The records of a text -/

theorem laid_place {gaps : List (List Char)} {es : List Element}
    (count : gaps.length = es.length + 1) :
    Laid gaps (weave gaps (es.map Element.source)) ((place {} gaps es).map Record.ofEntry) := by
  have elements : (place {} gaps es).map Placed.element = es := place_elements (by omega)
  have texts : ((place {} gaps es).map Record.ofEntry).map Record.text =
      es.map Element.source := by
    rw [← elements, List.map_map, List.map_map, elements]
    rfl
  have spans : ((place {} gaps es).map Record.ofEntry).map Record.span =
      (place {} gaps es).map spanOf := by
    rw [List.map_map]
    rfl
  refine ⟨?_, by rw [texts], ?_⟩
  · rw [count, List.length_map, ← congrArg List.length elements, List.length_map]
  · rw [spans, place_spans, texts]

theorem ListAt.laid {d : Document} {list : Element} {front back : List Char}
    (found : ListAt d list front back) :
    Laid (entryGaps list front back) d.source (DependencyList.ofDocument d).records := by
  rw [found.ofDocument, found.source, ← weave_entryGaps]
  exact laid_place (Content.gaps_length _ _ _)

theorem ofDocument_of_none {d : Document} (missing : container? d = none) :
    DependencyList.ofDocument d = {} := by
  rw [DependencyList.ofDocument, missing]

theorem standsAlone_of_named {parent e : Placed} {name : String} {next : List Char}
    (stands : parent.element.StandsBefore next) (member : e ∈ parent.childrenNamed name) :
    e.element.StandsBefore [] :=
  Element.standsAlone_of_mem stands _
    (childrenNamed_elements parent name ▸ List.mem_map_of_mem member)

theorem container?_mem {d : Document} {list : Placed} (found : container? d = some list) :
    list ∈ d.rootElement.childrenNamed listName := by
  unfold container? at found
  split at found
  · exact List.mem_of_head? found
  · cases found

/-- Each record is read from an element that was read in the text. -/
theorem exists_element {d : Document} (stands : d.Stands) :
    ∀ r ∈ (DependencyList.ofDocument d).records, ∃ e : Placed,
      e.element.StandsBefore [] ∧ r = Record.ofEntry e := by
  cases found : container? d with
  | none => simp [ofDocument_of_none found]
  | some list =>
    intro r member
    simp only [DependencyList.ofDocument, found, List.mem_map] at member
    obtain ⟨e, inside, rfl⟩ := member
    have list_stands := standsAlone_of_named stands.root (container?_mem found)
    exact ⟨e, standsAlone_of_named list_stands inside, rfl⟩

theorem extract?_of_document {text : List Char} {d : Document}
    (read : Document.ofText? text = some d) :
    extract? text = some (DependencyList.ofDocument d) := by
  rw [extract?, read, Option.map_some]

theorem extract?_eq_some {text : List Char} {list : DependencyList}
    (read : extract? text = some list) :
    ∃ d, Document.ofText? text = some d ∧ DependencyList.ofDocument d = list :=
  Option.map_eq_some_iff.1 read

/-- The records of a text are laid out in it. -/
theorem extract?_laid {text : List Char} {list : DependencyList}
    (read : extract? text = some list) : ∃ gaps, Laid gaps text list.records := by
  obtain ⟨d, document, rfl⟩ := extract?_eq_some read
  obtain ⟨rfl, -⟩ := Document.ofText?_sound document
  cases found : container? d with
  | none =>
    rw [ofDocument_of_none found]
    exact ⟨[d.source], rfl, (Text.weave_singleton d.source).symm, rfl⟩
  | some list =>
    obtain ⟨front, back, at_list, -⟩ := container?_eq_some found
    exact ⟨_, at_list.laid⟩

theorem extract?_filled {text : List Char} {list : DependencyList}
    (read : extract? text = some list) : ∀ r ∈ list.records, r.text ≠ [] := by
  obtain ⟨d, document, rfl⟩ := extract?_eq_some read
  intro r member
  obtain ⟨e, stands, rfl⟩ := exists_element (Document.ofText?_sound document).2 r member
  -- An element begins with its tag, so its text is not empty.
  obtain ⟨c, tail, begins, -⟩ := stands.begins
  show e.element.source ≠ []
  simp [begins]

/-- Entries with the same text say the same, whatever stands behind them. -/
theorem extract?_entry_eq {text text' : List Char} {list list' : DependencyList}
    (read : extract? text = some list) (read' : extract? text' = some list') {a b : Record}
    (here : a ∈ list.records) (there : b ∈ list'.records) (same : a.text = b.text) :
    a.entry = b.entry := by
  obtain ⟨d, document, rfl⟩ := extract?_eq_some read
  obtain ⟨d', document', rfl⟩ := extract?_eq_some read'
  obtain ⟨e, stands, rfl⟩ := exists_element (Document.ofText?_sound document).2 a here
  obtain ⟨e', stands', rfl⟩ := exists_element (Document.ofText?_sound document').2 b there
  exact ofEntry_entry (stands.unique stands' same)

end ManifestOrder.Dependency
