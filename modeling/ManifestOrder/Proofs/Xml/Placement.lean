import ManifestOrder.Proofs.Text.ByteOffset
import ManifestOrder.Proofs.Xml.Fill

/-!
# Where elements stand

An element is kept with the position of its first character. `Placed.LiesIn` says that this position
is the right one: the text of the element stands there, with some text before it and some behind it.

1. `Placed.child_lies`: where the element has the right position, its children have it too.
2. `Content.children_precede`: each child starts where an earlier one has ended, or later.
3. `Placed.child_inside`: a child lies between the tags of its parent.

The offset and the line of such an element are then counted in the text before it, in characters
(`LiesIn.cut`, `LiesIn.line`), and the bytes of that text lead to the same offset
(`LiesIn.start_bytes`, `LiesIn.stop_bytes`).
-/

namespace ManifestOrder.Xml

open Text

theorem Content.source_followedBy (e : Element) (rest : Content) :
    (e.followedBy rest).source = e.source ++ rest.source :=
  onto_followedBy e rest []

/-- The element stands where it is said to, in a text that starts at `p`. -/
def Placed.LiesIn (e : Placed) (p : Position) (text : List Char) : Prop :=
  ∃ before after, text = before ++ (e.source ++ after) ∧ e.start = p.after before

/-- The second element starts where the first one has ended, or later. -/
def Placed.Precedes (first second : Placed) : Prop :=
  ∃ between, second.start = first.stop.after between

namespace Placed.LiesIn

variable {e : Placed} {p : Position} {text : List Char}

theorem behind {front : List Char} (lies : e.LiesIn (p.after front) text) :
    e.LiesIn p (front ++ text) := by
  obtain ⟨before, after, rfl, start⟩ := lies
  refine ⟨front ++ before, after, (List.append_assoc _ _ _).symm, ?_⟩
  rw [start, Position.after_append]

theorem before (lies : e.LiesIn p text) (back : List Char) : e.LiesIn p (text ++ back) := by
  obtain ⟨front, after, rfl, start⟩ := lies
  exact ⟨front, after ++ back, by simp only [List.append_assoc], start⟩

end Placed.LiesIn

/-! ## Children -/

theorem Content.children_lie (c : Content) (p : Position) :
    ∀ e ∈ c.children p, e.LiesIn p c.source := by
  induction c using Content.piecewise generalizing p with
  | nil => simp [children]
  | leaf piece rest ih =>
    intro e member
    rw [source_leaf]
    exact (ih _ e member).behind
  | element first rest ih =>
    rw [children_followedBy, List.forall_mem_cons, source_followedBy]
    refine ⟨⟨[], rest.source, rfl, rfl⟩, ?_⟩
    intro e member
    exact (ih _ e member).behind

theorem Content.children_precede (c : Content) (p : Position) :
    (c.children p).Pairwise Placed.Precedes := by
  induction c using Content.piecewise generalizing p with
  | nil => exact .nil
  | leaf piece rest ih => exact ih _
  | element first rest ih =>
    rw [children_followedBy]
    refine .cons ?_ (ih _)
    intro e member
    obtain ⟨between, -, -, start⟩ := rest.children_lie _ e member
    exact ⟨between, start⟩

namespace Placed

variable {e child : Placed} {p : Position} {text next : List Char}

theorem children_lie (member : child ∈ e.children) :
    child.LiesIn (e.start.after e.element.tag.text) e.element.content.source :=
  Content.children_lie _ _ child member

theorem child_lies (lies : e.LiesIn p text) (member : child ∈ e.children) :
    child.LiesIn p text := by
  obtain ⟨before, after, rfl, start⟩ := lies
  have inside := children_lie member
  rw [start] at inside
  rw [source, Element.source_eq, Content.onto_eq]
  simpa only [List.append_assoc] using (inside.behind.behind.before e.element.ending).before after

/-- A child lies between the tags of its parent. -/
theorem child_inside (stands : e.element.StandsBefore next) (member : child ∈ e.children) :
    e.start.offset < child.start.offset ∧ child.stop.offset < e.stop.offset ∧
      e.start.line ≤ child.start.line := by
  obtain ⟨before, after, content, start⟩ := children_lie member
  have opening : 0 < e.element.tag.text.length := by
    obtain ⟨c, rest, begins, -⟩ := stands.tag_begins
    rw [begins]
    exact Nat.succ_pos _
  have ending : 0 < e.element.ending.length := by
    cases shape : e.element with
    | empty tag => simp [children, shape, Element.content, Content.children] at member
    | paired opening inner closing =>
      rw [shape] at stands
      exact List.length_pos_iff.2 (List.ne_nil_of_mem (stands.ending_ends.mem List.mem_cons_self))
  have whole : e.source.length = e.element.tag.text.length +
      (before.length + (child.source.length + after.length)) + e.element.ending.length := by
    rw [source, Element.source_eq, Content.onto_eq, content]
    simp only [List.length_append]
    omega
  simp only [stop, start, Position.after, whole]
  omega

end Placed

/-! ## Offsets, lines and bytes -/

namespace Placed.LiesIn

variable {e : Placed} {text : List Char}

/-- What stands before the element, and before the end of it, is counted by its position. -/
theorem counted (lies : e.LiesIn {} text) : ∃ before after,
    text = before ++ e.source ++ after ∧ e.start.offset = before.length ∧
      e.stop.offset = (before ++ e.source).length ∧ e.start.line = 1 + before.count '\n' := by
  obtain ⟨before, after, rfl, start⟩ := lies
  refine ⟨before, after, (List.append_assoc _ _ _).symm, ?_⟩
  simp [stop, start, Position.after]

theorem stop_le (lies : e.LiesIn {} text) : e.stop.offset ≤ text.length := by
  obtain ⟨before, after, rfl, -, last, -⟩ := lies.counted
  rw [last]
  exact (List.prefix_append _ after).length_le

/-- The text of the element is cut out of the whole one. -/
theorem cut (lies : e.LiesIn {} text) :
    e.source = (text.take e.stop.offset).drop e.start.offset := by
  obtain ⟨before, after, rfl, first, last, -⟩ := lies.counted
  rw [first, last, List.take_left, List.drop_left]

theorem line (lies : e.LiesIn {} text) :
    e.start.line = 1 + (text.take e.start.offset).count '\n' := by
  obtain ⟨before, after, rfl, first, -, line⟩ := lies.counted
  rw [line, first, List.append_assoc, List.take_left]

theorem start_bytes (lies : e.LiesIn {} text) :
    charOffset? text (utf8Length (text.take e.start.offset)) = some (e.start.offset : Int) := by
  obtain ⟨before, after, rfl, first, -⟩ := lies.counted
  rw [first, List.append_assoc, List.take_left, charOffset?_behind]

theorem stop_bytes (lies : e.LiesIn {} text) :
    charOffset? text (utf8Length (text.take e.stop.offset)) = some (e.stop.offset : Int) := by
  obtain ⟨before, after, rfl, -, last, -⟩ := lies.counted
  rw [last, List.take_left, charOffset?_behind]

end Placed.LiesIn

theorem Document.rootElement_lies (d : Document) : d.rootElement.LiesIn {} d.source :=
  ⟨d.before.flatMap Leaf.text, d.trailing, d.source_eq, rfl⟩

end ManifestOrder.Xml
