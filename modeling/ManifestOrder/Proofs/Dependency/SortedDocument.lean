import ManifestOrder.Proofs.Dependency.Extract
import ManifestOrder.Proofs.Dependency.Order

/-!
# The sorted document

The document with the entries of its list put into order. It has the records of the old document in
their sorted order, laid out between the same gaps (`sorted_entries`, `sorted_laid`). Its text is
read as the sorted document again exactly when no mark follows an empty section in it
(`ofText?_sorted_iff`): the entries stand as they stood elsewhere, and so does what is around them.
-/

namespace ManifestOrder.Dependency

open Text (weave Position)
open Xml

/-- The entries of a list in their sorted order. -/
def sortedEntries (cmp : Comparator) (list : Placed) : List Element :=
  (stableSort (fun a b => cmp (Record.ofEntry a) (Record.ofEntry b))
    (list.childrenNamed entryName)).map Placed.element

def sortedList (cmp : Comparator) (list : Placed) : Element :=
  list.element.fill entryName (sortedEntries cmp list)

def sortedDocument (cmp : Comparator) (d : Document) : Document :=
  match container? d with
  | none => d
  | some list => d.withRoot (d.root.fill listName [sortedList cmp list])

theorem sortedDocument_of_none {cmp : Comparator} {d : Document} (missing : container? d = none) :
    sortedDocument cmp d = d := by
  rw [sortedDocument, missing]

theorem sortedDocument_of_some {cmp : Comparator} {d : Document} {list : Placed}
    (found : container? d = some list) :
    sortedDocument cmp d = d.withRoot (d.root.fill listName [sortedList cmp list]) := by
  rw [sortedDocument, found]

@[simp] theorem sortedDocument_trailing (cmp : Comparator) (d : Document) :
    (sortedDocument cmp d).trailing = d.trailing := by
  unfold sortedDocument
  split <;> rfl

/-! ## The entries -/

theorem sortedEntries_perm (cmp : Comparator) (list : Placed) :
    (sortedEntries cmp list).Perm (list.element.content.elementsNamed entryName) := by
  rw [← childrenNamed_elements]
  exact (stableSort_perm _ _).map Placed.element

theorem mem_of_sortedEntries {cmp : Comparator} {list : Placed} {e : Element}
    (member : e ∈ sortedEntries cmp list) : e ∈ list.element.content.elementsNamed entryName :=
  (sortedEntries_perm cmp list).mem_iff.1 member

theorem sortedEntries_named (cmp : Comparator) (list : Placed) :
    ∀ e ∈ sortedEntries cmp list, e.isNamed entryName = true := by
  intro e member
  exact (List.mem_filter.1 (mem_of_sortedEntries member)).2

theorem sortedList_entries (cmp : Comparator) (list : Placed) :
    (sortedList cmp list).content.elementsNamed entryName = sortedEntries cmp list := by
  have same := (sortedEntries_perm cmp list).length_eq
  rw [sortedList, Element.fill_content,
    Content.elementsNamed_fill (sortedEntries_named cmp list) (Nat.le_of_eq same), same,
    List.drop_length, List.append_nil]

theorem entryGaps_sortedList (cmp : Comparator) (list : Placed) (front back : List Char) :
    entryGaps (sortedList cmp list) front back = entryGaps list.element front back := by
  rw [entryGaps, sortedList, Element.fill_content, Element.fill_ending, Element.fill_tag,
    Content.gaps_fill (sortedEntries_named cmp list), entryGaps]

/-- What the sorted records say, read off the sorted elements. -/
theorem stableSort_entries (cmp : Comparator) (list : Placed) (p : Position)
    {gaps : List (List Char)} (room : (sortedEntries cmp list).length ≤ gaps.length) :
    ((place p gaps (sortedEntries cmp list)).map Record.ofEntry).map Record.entry =
      (stableSort cmp ((list.childrenNamed entryName).map Record.ofEntry)).map Record.entry := by
  -- What a record says is read off its element, as if that stood at the start of a text.
  let said (e : Element) := (Record.ofEntry ⟨e, {}⟩).entry
  have reads : Record.entry ∘ Record.ofEntry = said ∘ Placed.element := by
    funext e
    exact ofEntry_entry rfl
  rw [← stableSort_map, List.map_map, List.map_map, reads, ← List.map_map, ← List.map_map,
    place_elements room]
  rfl

/-! ## The records -/

/-- The sorted list stands where the list stood. -/
theorem ListAt.sorted (cmp : Comparator) {d : Document} {list : Placed} {front back : List Char}
    (found : container? d = some list) (at_list : ListAt d list.element front back) :
    ListAt (sortedDocument cmp d) (sortedList cmp list) front back := by
  rw [sortedDocument_of_some found]
  exact at_list.replace (Element.fill_tag _ _ _)

theorem Record.map_text_of_entry {first second : List Record}
    (same : first.map Record.entry = second.map Record.entry) :
    first.map Record.text = second.map Record.text := by
  have texts := congrArg (List.map Prod.fst) same
  rwa [List.map_map, List.map_map] at texts

theorem Record.map_ids_of_entry {first second : List Record}
    (same : first.map Record.entry = second.map Record.entry) :
    first.map Record.ids = second.map Record.ids := by
  have ids := congrArg (List.map Prod.snd) same
  rwa [List.map_map, List.map_map] at ids

/-- The records of the sorted document say what the sorted records of the document say. -/
theorem sorted_entries (cmp : Comparator) (d : Document) :
    (DependencyList.ofDocument (sortedDocument cmp d)).records.map Record.entry =
      (stableSort cmp (DependencyList.ofDocument d).records).map Record.entry := by
  cases found : container? d with
  | none =>
    rw [sortedDocument_of_none found, ofDocument_of_none found]
    simp [stableSort]
  | some list =>
    obtain ⟨front, back, at_list, -⟩ := container?_eq_some found
    have room : (sortedEntries cmp list).length ≤ (entryGaps list.element front back).length := by
      rw [(sortedEntries_perm cmp list).length_eq, entryGaps, Content.gaps_length]
      exact Nat.le_succ _
    rw [(at_list.sorted cmp found).ofDocument, entryGaps_sortedList, sortedList_entries,
      stableSort_entries cmp list {} room]
    simp only [DependencyList.ofDocument, found]

/-- The old records and the new ones are laid out between the same gaps. -/
theorem sorted_laid (cmp : Comparator) (d : Document) :
    ∃ gaps, Laid gaps d.source (DependencyList.ofDocument d).records ∧
      Laid gaps (sortedDocument cmp d).source
        (DependencyList.ofDocument (sortedDocument cmp d)).records := by
  cases found : container? d with
  | none =>
    rw [sortedDocument_of_none found, ofDocument_of_none found]
    have alone : Laid [d.source] d.source [] :=
      ⟨rfl, (Text.weave_singleton d.source).symm, rfl⟩
    exact ⟨_, alone, alone⟩
  | some list =>
    obtain ⟨front, back, at_list, -⟩ := container?_eq_some found
    have after := (at_list.sorted cmp found).laid
    rw [entryGaps_sortedList] at after
    exact ⟨_, at_list.laid, after⟩

theorem sortedList_length (cmp : Comparator) (list : Placed) :
    (sortedList cmp list).source.length = list.source.length := by
  have old := weave_entryGaps list.element [] []
  have new := weave_entryGaps (sortedList cmp list) [] []
  rw [entryGaps_sortedList, sortedList_entries] at new
  simp only [List.nil_append, List.append_nil] at old new
  have count : (entryGaps list.element [] []).length =
      ((list.element.content.elementsNamed entryName).map Element.source).length + 1 := by
    rw [entryGaps, Content.gaps_length, List.length_map]
  rw [← new, Placed.source, ← old]
  exact Text.weave_length_perm count ((sortedEntries_perm cmp list).map Element.source)

theorem sorted_container (cmp : Comparator) (d : Document) :
    (DependencyList.ofDocument (sortedDocument cmp d)).container =
        (DependencyList.ofDocument d).container ∧
      (DependencyList.ofDocument (sortedDocument cmp d)).containerLine =
        (DependencyList.ofDocument d).containerLine := by
  cases found : container? d with
  | none =>
    rw [sortedDocument_of_none found]
    exact ⟨rfl, rfl⟩
  | some list =>
    obtain ⟨front, back, at_list, -⟩ := container?_eq_some found
    rw [(at_list.sorted cmp found).ofDocument, at_list.ofDocument, sortedList_length]
    exact ⟨rfl, rfl⟩

/-- Sorting changes nothing outside the list. -/
theorem sorted_outside (cmp : Comparator) {d : Document} {span : Edit.Span}
    (contained : (DependencyList.ofDocument d).container = some span) :
    (sortedDocument cmp d).source.take span.start.toNat = d.source.take span.start.toNat ∧
      (sortedDocument cmp d).source.drop span.stop.toNat = d.source.drop span.stop.toNat := by
  cases found : container? d with
  | none => simp [ofDocument_of_none found] at contained
  | some list =>
    obtain ⟨front, back, at_list, -⟩ := container?_eq_some found
    rw [at_list.ofDocument, Option.some.injEq] at contained
    subst contained
    have same : list.element.source.length = (sortedList cmp list).source.length :=
      (sortedList_length cmp list).symm
    have stop : ((front.length : Int) + list.element.source.length).toNat =
        front.length + list.element.source.length := by omega
    rw [(at_list.sorted cmp found).source, at_list.source]
    simp only [Int.toNat_natCast, stop]
    refine ⟨by rw [List.append_assoc, List.append_assoc, List.take_left, List.take_left], ?_⟩
    rw [← List.length_append, List.drop_left, List.length_append, same, ← List.length_append,
      List.drop_left]

/-! ## Reading the sorted document -/

theorem stands_sorted {cmp : Comparator} {d : Document} (stands : d.Stands)
    (settled : (sortedDocument cmp d).root.isSettled d.trailing = true) :
    (sortedDocument cmp d).Stands := by
  cases found : container? d with
  | none => rwa [sortedDocument_of_none found]
  | some list =>
    obtain ⟨front, back, at_list, -⟩ := container?_eq_some found
    -- Twice the same step: what is put into the slots stands alone, so what has the slots stands
    -- where it stood. First the entries in the list, then the list in the root.
    have list_stands := Element.standsAlone_of_mem stands.root _ at_list.mem
    have list_settled := Element.isSettled_of_mem settled _ (at_list.sorted cmp found).mem
    rw [sortedDocument_of_some found] at settled ⊢
    have entries_stand : ∀ e ∈ sortedEntries cmp list, e.StandsBefore [] := by
      intro e member
      exact Element.standsAlone_of_mem list_stands e (mem_of_sortedEntries member)
    have new_stands : (sortedList cmp list).StandsBefore [] :=
      Element.fill_standsBefore list_stands entries_stand list_settled
    have nested := stands.nested
    rw [Element.isNested_alone] at nested
    have list_nested := Element.isNested_of_mem nested _ at_list.mem
    have entries_nested : ∀ e ∈ sortedEntries cmp list, e.alone.isNested
        ((TagStack.push [] d.root.tag.name).push list.element.tag.name) = true := by
      intro e member
      exact Element.isNested_of_mem list_nested e (mem_of_sortedEntries member)
    have new_nested : (sortedList cmp list).alone.isNested (TagStack.push [] d.root.tag.name) =
        true := Element.fill_isNested list_nested entries_nested
    refine stands.withRoot (Element.fill_tag _ _ _)
      (Element.fill_standsBefore stands.root (by simpa using new_stands) settled) ?_
    rw [Element.isNested_alone]
    exact Element.fill_isNested nested (by simpa using new_nested)

/-- The text of the sorted document is read as the sorted document, provided that no mark follows an
empty section in it. -/
theorem ofText?_sorted_iff {text : List Char} {cmp : Comparator} {d : Document}
    (read : Document.ofText? text = some d) :
    Document.ofText? (sortedDocument cmp d).source = some (sortedDocument cmp d) ↔
      (sortedDocument cmp d).root.isSettled d.trailing = true := by
  obtain ⟨rfl, stands⟩ := Document.ofText?_sound read
  constructor
  · intro again
    have root := (Document.ofText?_sound again).2.root
    rw [sortedDocument_trailing] at root
    exact root.settled
  · intro settled
    exact Document.ofText?_complete (stands_sorted stands settled)

theorem sorted_leaves (cmp : Comparator) (d : Document) :
    (sortedDocument cmp d).root.content.leaves ⊆ d.root.content.leaves := by
  cases found : container? d with
  | none =>
    rw [sortedDocument_of_none found]
    exact List.Subset.refl _
  | some list =>
    obtain ⟨front, back, at_list, -⟩ := container?_eq_some found
    have inList := Content.leaves_of_mem at_list.mem
    intro piece member
    rw [sortedDocument_of_some found] at member
    have inRoot : piece ∈ (d.root.content.fill listName [sortedList cmp list]).leaves := by
      rw [← Element.fill_content]
      exact member
    rcases Content.mem_leaves_fill inRoot with old | ⟨new, isList, inNew⟩
    · exact old
    · rw [List.mem_singleton.1 isList, sortedList, Element.fill_content] at inNew
      rcases Content.mem_leaves_fill inNew with old | ⟨e, inside, found⟩
      · exact inList old
      · exact inList (Content.leaves_of_mem (mem_of_sortedEntries inside) found)

/-- Without empty sections there is none to be unsettled. -/
theorem sorted_settled {d : Document} (free : ¬ emptySection.text <:+: d.source)
    (cmp : Comparator) (tail : List Char) :
    (sortedDocument cmp d).root.isSettled tail = true := by
  refine Element.isSettled_of_leaves (fun member => free ?_) tail
  have inside := Element.infix_of_mem_leaves (sorted_leaves cmp d member)
  rw [Document.source_eq]
  exact inside.trans ((List.prefix_append _ _).isInfix.trans (List.suffix_append _ _).isInfix)

end ManifestOrder.Dependency
