import ManifestOrder.Proofs.Xml.Content
import ManifestOrder.Proofs.Xml.Prolog
import ManifestOrder.Xml.Document

/-!
# Well-formed texts

A text is a document when its parts stand where they were read (`Document.ofText?_eq_some_iff`).
The root of a document may then be replaced by any element with the same opening tag whose tags fit
each other and which stands before the same text (`Document.Stands.withRoot`).
-/

namespace ManifestOrder.Xml

namespace Document

/-- What stands behind the root element. -/
def trailing (d : Document) : List Char :=
  d.after.flatMap Leaf.text

def withRoot (d : Document) (root : Element) : Document :=
  { d with root }

/-- The parts of a document are read from its text. -/
structure Stands (d : Document) : Prop where
  front : prolog d.source = (d.before, d.root.source ++ d.trailing)
  root : d.root.StandsBefore d.trailing
  nested : d.root.isNested = true
  after : miscs d.trailing = (d.after, [])

theorem source_eq (d : Document) :
    d.source = d.before.flatMap Leaf.text ++ (d.root.source ++ d.trailing) :=
  List.append_assoc _ _ _

theorem ofText?_sound {text : List Char} {d : Document} (read : ofText? text = some d) :
    text = d.source ∧ d.Stands := by
  rcases front : prolog text with ⟨before, s⟩
  simp only [ofText?, front] at read
  split at read
  · simp at read
  · rename_i root rest scanned
    split at read
    · rename_i whole
      obtain rfl := Option.some.inj read
      obtain ⟨rfl, stands⟩ := Element.scan_sound scanned
      simp only [Bool.and_eq_true, List.isEmpty_iff] at whole
      have trailing : (miscs rest).1.flatMap Leaf.text = rest := by
        simpa only [whole.1, List.append_nil] using miscs_source rest
      have same : text = source ⟨before, root, (miscs rest).1⟩ := by
        rw [source_eq, Document.trailing, trailing]
        exact (prolog_source front).symm
      refine ⟨same, ?_⟩
      rw [← trailing] at front stands
      exact ⟨same ▸ front, stands, whole.2, by
        rw [Document.trailing, trailing]
        exact Prod.ext rfl whole.1⟩
    · simp at read

theorem ofText?_complete {d : Document} (stands : d.Stands) : ofText? d.source = some d := by
  simp only [ofText?, stands.front, Element.scan_complete stands.root, stands.after,
    stands.nested, List.isEmpty_nil, Bool.and_self, if_true]

/-- A text is a document exactly when the parts of the document are read from it. -/
theorem ofText?_eq_some_iff {text : List Char} {d : Document} :
    ofText? text = some d ↔ text = d.source ∧ d.Stands := by
  constructor
  · exact ofText?_sound
  · rintro ⟨rfl, stands⟩
    exact ofText?_complete stands

/-- The prolog looks at the first tag of the root only, and that is the same. -/
theorem Stands.withRoot {d : Document} {root : Element} (stands : d.Stands)
    (tag : root.tag = d.root.tag) (before : root.StandsBefore d.trailing)
    (nested : root.isNested = true) : (d.withRoot root).Stands where
  front := by
    have front := stands.front
    rw [source_eq, d.root.source_eq, List.append_assoc, ← List.append_assoc] at front
    rw [source_eq]
    show prolog (d.before.flatMap Leaf.text ++ (root.source ++ d.trailing)) =
      (d.before, root.source ++ d.trailing)
    rw [root.source_eq, tag, List.append_assoc, ← List.append_assoc]
    exact prolog_elsewhere _ stands.root.tag_begins front
  root := before
  nested := nested
  after := stands.after

end Document

end ManifestOrder.Xml
