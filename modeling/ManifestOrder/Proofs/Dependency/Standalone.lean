import ManifestOrder.Proofs.Dependency.Order
import ManifestOrder.Proofs.Dependency.Extract

/-!
# Entries on their own

What stands around an entry has no say in what the entry is read as: its text can be cut out and
read on its own, with nothing before and nothing behind it, and says the same
(`extract?_standaloneIds`). So two entries with the same text have the same ids, in whichever
manifests they stand (`ids_of_text`).
-/

namespace ManifestOrder.Dependency

open Xml (Document Element)

/-- The ids of an entry whose text is all that there is. -/
def standaloneIds? (text : List Char) : Option (Option String × Option String) :=
  match Element.scan text with
  | some (e, []) => some (Record.ofEntry ⟨e, {}⟩).ids
  | _ => none

theorem standaloneIds?_source {e : Xml.Placed} (stands : e.element.StandsBefore []) :
    standaloneIds? e.source = some (Record.ofEntry e).ids := by
  have scanned : Element.scan e.source = some (e.element, []) := by
    have complete := Element.scan_complete stands
    rwa [List.append_nil] at complete
  have entry := ofEntry_entry (a := ⟨e.element, {}⟩) (b := e) rfl
  rw [standaloneIds?, scanned]
  exact congrArg some (congrArg Prod.snd entry)

/-- Cut out of the manifest and read on its own, an entry has the ids that it has in it. -/
theorem extract?_standaloneIds {text : List Char} {list : DependencyList}
    (read : extract? text = some list) :
    ∀ r ∈ list.records, standaloneIds? r.text = some r.ids := by
  obtain ⟨d, document, rfl⟩ := extract?_eq_some read
  intro r member
  obtain ⟨e, stands, rfl⟩ := exists_element (Document.ofText?_sound document).2 r member
  exact standaloneIds?_source stands

/-- The ids of an entry depend on its text alone. -/
theorem ids_of_text {text other : List Char} {list list' : DependencyList}
    (read : extract? text = some list) (read' : extract? other = some list') {p q : Record}
    (p_mem : p ∈ list.records) (q_mem : q ∈ list'.records) (same : p.text = q.text) :
    p.groupId = q.groupId ∧ p.artifactId = q.artifactId ∧
      standaloneIds? p.text = some (p.groupId, p.artifactId) := by
  have here : standaloneIds? p.text = some p.ids := extract?_standaloneIds read p p_mem
  have there : standaloneIds? q.text = some q.ids := extract?_standaloneIds read' q q_mem
  have ids : p.ids = q.ids := by
    rw [same, there] at here
    exact (Option.some.inj here).symm
  exact ⟨congrArg Prod.fst ids, congrArg Prod.snd ids, here⟩

/-! ### One entry in two manifests -/

/-- An entry with an empty section, an instruction, a comment and a child with children. -/
def mixedEntry : List Char :=
  ("<dependency><![CDATA[]]><?n x?>\n<!--<groupId/>--><groupId>a</groupId>" ++
    "<x><artifactId/></x></dependency>").toList

def bareManifest : List Char :=
  "<project><dependencies>".toList ++ mixedEntry ++ "</dependencies></project>".toList

/-- The same entry behind a mark and another entry, under other tags. -/
def crowdedManifest : List Char :=
  "<!--é-->\n<m:project><m:dependencies a='1'>]]><dependency/>".toList ++ mixedEntry ++
    "<x/></m:dependencies></m:project>".toList

theorem ids_of_text_moved : ∃ list list' p q,
    extract? bareManifest = some list ∧ extract? crowdedManifest = some list' ∧
    p ∈ list.records ∧ q ∈ list'.records ∧ p.text = q.text ∧ p.span ≠ q.span ∧
    p.groupId = q.groupId ∧ p.artifactId = q.artifactId ∧
    standaloneIds? mixedEntry = some (p.groupId, p.artifactId) := by
  have bare : (extract? bareManifest).map (fun list => list.records.map fun r => (r.span, r.text)) =
      some [(⟨23, 125⟩, mixedEntry)] := by
    decide +kernel
  have crowded : (extract? crowdedManifest).map
      (fun list => list.records.map fun r => (r.span, r.text)) =
        some [(⟨45, 58⟩, "<dependency/>".toList), (⟨58, 160⟩, mixedEntry)] := by
    decide +kernel
  obtain ⟨list, read, records⟩ := Option.map_eq_some_iff.1 bare
  obtain ⟨list', read', records'⟩ := Option.map_eq_some_iff.1 crowded
  obtain ⟨p, p_mem, here⟩ : ∃ p ∈ list.records, (p.span, p.text) = (⟨23, 125⟩, mixedEntry) :=
    List.mem_map.1 (records ▸ List.mem_cons_self)
  obtain ⟨q, q_mem, there⟩ : ∃ q ∈ list'.records, (q.span, q.text) = (⟨58, 160⟩, mixedEntry) :=
    List.mem_map.1 (records' ▸ List.mem_cons_of_mem _ List.mem_cons_self)
  obtain ⟨span, text⟩ := Prod.mk.inj here
  obtain ⟨span', text'⟩ := Prod.mk.inj there
  have same : p.text = q.text := text.trans text'.symm
  have differ : p.span ≠ q.span := by
    rw [span, span']
    decide
  obtain ⟨group, artifact, alone⟩ := ids_of_text read read' p_mem q_mem same
  exact ⟨list, list', p, q, read, read', p_mem, q_mem, same, differ, group, artifact,
    text ▸ alone⟩

end ManifestOrder.Dependency
