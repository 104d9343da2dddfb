import Mathlib.Data.List.Pairwise
import ManifestOrder.Proofs.Xml.Placement

/-!
# Two ways through the elements of a document

One way visits every node of a document and keeps the elements (`Document.nodesOf`). The other one
starts at the root element and goes on to the children of each element (`Placed.subtrees`), from
tag to tag, without a look at any other node.

1. `Document.elements_eq_subtrees`: both ways lead to the same elements in the same order.
2. `Placed.subtrees_related`: of two elements one lies in the other, between its tags, or they are
   apart.
3. `Placed.mem_children_iff`: the children of an element are the elements that lie in it and in no
   other element within it.

`Document.traversals_agree` says all this of the nodes that are found. The spans decide: an element
that lies within another one, by its offsets, is found below it (`Placed.mem_below_iff`).
-/

namespace ManifestOrder.Xml

open Text

/-! ## Nodes -/

/-- The nodes of one kind, wherever they are in the document. -/
def Document.nodesOf (d : Document) (kind : NodeKind) : List Node :=
  d.nodes.filter (·.kind == kind)

namespace Node

def stop (n : Node) : Position :=
  n.start.after n.text

/-- The node lies in the other one and touches neither end of it. -/
def Within (n outer : Node) : Prop :=
  outer.start.offset < n.start.offset ∧ n.stop.offset < outer.stop.offset

instance (n outer : Node) : Decidable (n.Within outer) :=
  inferInstanceAs (Decidable (_ ∧ _))

/-- One node ends before the other one starts, or where it starts. -/
def Apart (a b : Node) : Prop :=
  a.stop.offset ≤ b.start.offset ∨ b.stop.offset ≤ a.start.offset

/-- The node lies in the outer one, and no node of the list lies between the two. -/
def isDirectlyWithin (n : Node) (nodes : List Node) (outer : Node) : Bool :=
  decide (n.Within outer) && !nodes.any fun m => decide (m.Within outer) && decide (n.Within m)

theorem isDirectlyWithin_iff {nodes : List Node} {outer n : Node} :
    n.isDirectlyWithin nodes outer = true ↔
      n.Within outer ∧ ∀ m ∈ nodes, m.Within outer → ¬ n.Within m := by
  simp [isDirectlyWithin]

end Node

/-- The element as a node. -/
def Placed.node (e : Placed) : Node :=
  ⟨.element, e.start, e.source, some e.name⟩

/-! ## From an element to its children -/

theorem Content.sizeOf_pos (c : Content) : 0 < sizeOf c := by
  cases c with
  | nil => exact Nat.one_pos
  | leaf piece rest => rw [leaf.sizeOf_spec]; omega
  | empty tag rest => rw [empty.sizeOf_spec]; omega
  | element opening inner closing rest => rw [element.sizeOf_spec]; omega

theorem Content.sizeOf_children (c : Content) (p : Position) :
    ∀ child ∈ c.children p, sizeOf child.element < sizeOf c := by
  induction c generalizing p with
  | nil => simp [children]
  | leaf piece rest ih =>
    intro child member
    have := ih _ child member
    simp only [leaf.sizeOf_spec]
    omega
  | empty tag rest ih =>
    intro child member
    rcases List.mem_cons.1 member with rfl | later
    · simp only [empty.sizeOf_spec, Element.empty.sizeOf_spec]
      have := rest.sizeOf_pos
      omega
    · have := ih _ child later
      simp only [empty.sizeOf_spec]
      omega
  | element opening inner closing rest _ ih =>
    intro child member
    rcases List.mem_cons.1 member with rfl | later
    · simp only [element.sizeOf_spec, Element.paired.sizeOf_spec]
      have := rest.sizeOf_pos
      omega
    · have := ih _ child later
      simp only [element.sizeOf_spec]
      omega

namespace Placed

/-- An element with children has two tags, and the children lie in its content. -/
theorem paired_of_child {e child : Placed} (member : child ∈ e.children) :
    ∃ opening inner closing, e.element = .paired opening inner closing ∧
      child ∈ inner.children (e.start.after opening.text) := by
  obtain ⟨element, start⟩ := e
  cases element with
  | empty tag => simp [children, Element.content, Content.children] at member
  | paired opening inner closing => exact ⟨opening, inner, closing, rfl, member⟩

theorem sizeOf_child {e child : Placed} (member : child ∈ e.children) :
    sizeOf child.element < sizeOf e.element := by
  obtain ⟨opening, inner, closing, shape, inside⟩ := paired_of_child member
  have smaller := Content.sizeOf_children _ _ child inside
  rw [shape, Element.paired.sizeOf_spec]
  omega

/-- The element, and behind it each child with all that is found from there. -/
def subtrees (e : Placed) : List Placed :=
  e :: e.children.attach.flatMap fun child => child.val.subtrees
termination_by sizeOf e.element
decreasing_by exact sizeOf_child child.property

/-- The elements found from an element, itself left out. -/
def below (e : Placed) : List Placed :=
  e.children.flatMap subtrees

theorem subtrees_eq (e : Placed) : e.subtrees = e :: e.below := by
  rw [subtrees, below, List.flatMap_subtype]
  · rw [List.unattach_attach]
  · intros
    rfl

/-- What holds of an element whenever it holds of its children holds of every element. -/
theorem throughChildren {motive : Placed → Prop}
    (step : ∀ e, (∀ child ∈ e.children, motive child) → motive e) (e : Placed) : motive e := by
  induction e using subtrees.induct with
  | case1 e ih => exact step e fun child member => ih ⟨child, member⟩

theorem self_mem_subtrees (e : Placed) : e ∈ e.subtrees := by
  rw [subtrees_eq]
  exact List.mem_cons_self

theorem mem_subtrees_iff {e x : Placed} : x ∈ e.subtrees ↔ x = e ∨ x ∈ e.below := by
  rw [subtrees_eq, List.mem_cons]

theorem mem_below_iff_child {e x : Placed} :
    x ∈ e.below ↔ ∃ child ∈ e.children, x ∈ child.subtrees :=
  List.mem_flatMap

theorem child_mem_below {e child : Placed} (member : child ∈ e.children) : child ∈ e.below :=
  mem_below_iff_child.2 ⟨child, member, child.self_mem_subtrees⟩

/-- What every element hands on to its children is handed on to all that is found from there. -/
theorem handed_on {P : Placed → Prop} (pass : ∀ {e child}, child ∈ e.children → P e → P child)
    {e x : Placed} (holds : P e) (member : x ∈ e.subtrees) : P x := by
  induction e using throughChildren with
  | step e ih =>
    rcases mem_subtrees_iff.1 member with rfl | lower
    · exact holds
    · obtain ⟨child, inside, found⟩ := mem_below_iff_child.1 lower
      exact ih child inside (pass inside holds) found

theorem subtrees_trans {e x y : Placed} (outer : x ∈ e.subtrees) (inner : y ∈ x.subtrees) :
    y ∈ e.subtrees := by
  refine handed_on (P := fun z => z.subtrees ⊆ e.subtrees) ?_ (List.Subset.refl _) outer inner
  intro z child member known y found
  exact known (mem_subtrees_iff.2 (.inr (mem_below_iff_child.2 ⟨child, member, found⟩)))

end Placed

/-! ## Both ways lead to the same elements -/

theorem Content.nodes_followedBy (e : Element) (rest : Content) (p : Position) :
    (e.followedBy rest).nodes p = e.alone.nodes p ++ rest.nodes (p.after e.source) := by
  cases e with
  | empty tag => rfl
  | paired opening inner closing =>
    have stop : p.after (opening.text ++ inner.onto closing.text) =
        ((p.after opening.text).after inner.source).after closing.text := by
      rw [onto_eq, Position.after_append, Position.after_append]
    simp only [Element.followedBy, Element.alone, nodes, Element.source, stop, List.cons_append,
      List.append_assoc, List.nil_append]

/-- The nodes that come with an element of two tags: these, and the content between them. -/
def NodeKind.isFrame : NodeKind → Bool
  | .content | .openingTag | .closingTag => true
  | _ => false

theorem alone_nodes (opening closing : Tag) (inner : Content) (p : Position) :
    (Element.paired opening inner closing).alone.nodes p =
      Placed.node ⟨.paired opening inner closing, p⟩ :: ⟨.openingTag, p, opening.text, none⟩ ::
        (contentNode (p.after opening.text) inner (inner.nodes (p.after opening.text)) ++
          [⟨.closingTag, (p.after opening.text).after inner.source, closing.text, none⟩]) := by
  have text : opening.text ++ inner.source ++ closing.text =
      (Element.paired opening inner closing).source := by
    rw [Element.source, Content.onto_eq, List.append_assoc]
  simp only [Element.alone, Content.nodes, text]
  rfl

theorem contentNode_suffix (p : Position) (inner : Content) :
    inner.nodes p <:+ contentNode p inner (inner.nodes p) := by
  unfold contentNode
  split
  · rename_i empty
    rw [empty]
    exact List.nil_suffix
  · exact List.suffix_cons _ _

theorem inner_nodes_inside (opening closing : Tag) (inner : Content) (p : Position) :
    inner.nodes (p.after opening.text) <:+:
      (Element.paired opening inner closing).alone.nodes p := by
  rw [alone_nodes]
  exact ((contentNode_suffix _ inner).isInfix.trans (List.prefix_append _ _).isInfix).trans
    ((List.suffix_cons _ _).trans (List.suffix_cons _ _)).isInfix

/-- What is kept of the nodes of an element by itself, if nothing of its frame is kept. -/
theorem filter_alone {keep : Node → Bool} (frame : ∀ n : Node, n.kind.isFrame = true → keep n = false)
    (opening closing : Tag) (inner : Content) (p : Position) :
    ((Element.paired opening inner closing).alone.nodes p).filter keep =
      [Placed.node ⟨.paired opening inner closing, p⟩].filter keep ++
        (inner.nodes (p.after opening.text)).filter keep := by
  have skip (n : Node) (nodes : List Node) (isFrame : n.kind.isFrame = true) :
      (n :: nodes).filter keep = nodes.filter keep :=
    List.filter_cons_of_neg (by simp [frame n isFrame])
  have between : (contentNode (p.after opening.text) inner
      (inner.nodes (p.after opening.text))).filter keep =
        (inner.nodes (p.after opening.text)).filter keep := by
    unfold contentNode
    split
    · rename_i empty
      rw [empty]
      rfl
    · exact skip _ _ rfl
  rw [alone_nodes, List.filter_cons, skip ⟨.openingTag, _, _, _⟩ _ rfl, List.filter_append, between,
    skip ⟨.closingTag, _, _, _⟩ _ rfl, List.filter_nil, List.append_nil, List.filter_cons]
  split <;> rfl

theorem filter_leafNodes (p : Position) (leaves : List Leaf) :
    (leafNodes p leaves).filter (·.kind == .element) = [] := by
  induction leaves generalizing p with
  | nil => rfl
  | cons piece rest ih => exact ih _

namespace Content

/-- The elements among the nodes of a content, and those found from the elements directly in it. -/
theorem elements_eq_subtrees (c : Content) (p : Position) :
    (c.nodes p).filter (·.kind == .element) =
      ((c.children p).flatMap Placed.subtrees).map Placed.node := by
  induction c generalizing p with
  | nil => rfl
  | leaf piece rest ih => exact ih _
  | empty tag rest ih =>
    rw [children, List.flatMap_cons, Placed.subtrees_eq]
    exact congrArg _ (ih _)
  | element opening inner closing rest ihInner ih =>
    have split := nodes_followedBy (.paired opening inner closing) rest p
    rw [Element.followedBy] at split
    have frame : ∀ n : Node, n.kind.isFrame = true → (n.kind == .element) = false := by
      intro n isFrame
      cases kind : n.kind <;> simp_all [NodeKind.isFrame]
    rw [split, List.filter_append, filter_alone frame, ihInner, ih, children, List.flatMap_cons,
      Placed.subtrees_eq, List.map_append]
    rfl

end Content

/-- Visiting all nodes and going from element to element lead to the same elements. -/
theorem Document.elements_eq_subtrees (d : Document) :
    d.nodesOf .element = d.rootElement.subtrees.map Placed.node := by
  have root := Content.elements_eq_subtrees d.root.alone d.rootStart
  have only : d.root.alone.children d.rootStart = [d.rootElement] := by
    cases shape : d.root <;> simp [Element.alone, Content.children, rootElement, shape]
  rw [only, List.flatMap_singleton] at root
  rw [nodesOf, nodes, List.filter_append, List.filter_append, filter_leafNodes, filter_leafNodes,
    List.nil_append, List.append_nil, root]

/-! ## Nesting -/

/-- The element was read, somewhere. -/
def Placed.Stands (e : Placed) : Prop :=
  e.element.StandsBefore []

theorem Content.children_stand {c : Content} {tail : List Char} (stands : c.StandsBefore tail)
    (p : Position) : ∀ child ∈ c.children p, child.Stands := by
  induction c using piecewise generalizing p with
  | nil => simp [children]
  | leaf piece rest ih => exact ih stands.2 _
  | element e rest ih =>
    obtain ⟨first, others⟩ := standsBefore_followedBy.1 stands
    rw [children_followedBy, List.forall_mem_cons]
    exact ⟨first.alone, ih others _⟩

namespace Placed

variable {e child x y : Placed}

theorem Stands.of_child (stands : e.Stands) (member : child ∈ e.children) : child.Stands := by
  obtain ⟨opening, inner, closing, shape, inside⟩ := paired_of_child member
  rw [Stands, shape, Element.standsBefore_paired] at stands
  exact Content.children_stand stands.2.1 _ child inside

theorem Stands.subtrees (stands : e.Stands) (member : x ∈ e.subtrees) : x.Stands :=
  handed_on (fun inside outer => outer.of_child inside) stands member

/-- An element that was read has at least one character. -/
theorem Stands.start_lt_stop (stands : e.Stands) : e.start.offset < e.stop.offset := by
  obtain ⟨c, rest, begins, -⟩ := stands.begins
  simp only [stop, Position.after, source, begins, List.length_cons]
  omega

theorem Stands.child_within (stands : e.Stands) (member : child ∈ e.children) :
    child.node.Within e.node := by
  obtain ⟨start, stop, -⟩ := child_inside stands member
  exact ⟨start, stop⟩

theorem Stands.below_within (stands : e.Stands) (member : x ∈ e.below) :
    x.node.Within e.node := by
  obtain ⟨child, inside, found⟩ := mem_below_iff_child.1 member
  refine (handed_on (P := fun z => z.Stands ∧ z.node.Within e.node) ?_
    ⟨stands.of_child inside, stands.child_within inside⟩ found).2
  rintro z child member ⟨stands, outer⟩
  have inner := stands.child_within member
  exact ⟨stands.of_child member, Nat.lt_trans outer.1 inner.1, Nat.lt_trans inner.2 outer.2⟩

/-- What is found from an element lies between its two ends. -/
theorem Stands.subtrees_inside (stands : e.Stands) (member : x ∈ e.subtrees) :
    e.start.offset ≤ x.start.offset ∧ x.stop.offset ≤ e.stop.offset := by
  rcases mem_subtrees_iff.1 member with rfl | lower
  · exact ⟨Nat.le_refl _, Nat.le_refl _⟩
  · obtain ⟨start, stop⟩ := stands.below_within lower
    exact ⟨Nat.le_of_lt start, Nat.le_of_lt stop⟩

instance : Std.Symm fun a b : Placed => a.node.Apart b.node where
  symm _ _ apart := apart.symm

theorem Precedes.offset_le (before : x.Precedes y) : x.stop.offset ≤ y.start.offset := by
  obtain ⟨between, start⟩ := before
  rw [start]
  exact Nat.le_add_right _ _

/-- Of two elements in the order of the listing, the later one is found from the earlier one or
starts behind it. -/
theorem Stands.subtrees_ordered (stands : e.Stands) :
    e.subtrees.Pairwise fun a b => b ∈ a.below ∨ a.stop.offset ≤ b.start.offset := by
  induction e using throughChildren with
  | step e ih =>
    rw [subtrees_eq]
    refine .cons (fun x member => .inl member) ?_
    refine List.pairwise_flatMap.2 ⟨fun child member => ih child member (stands.of_child member), ?_⟩
    refine (Content.children_precede _ _).imp_of_mem ?_
    intro a b a_mem b_mem before x x_mem y y_mem
    -- `x` is found from the child `a`, and `y` from a later child `b`
    have first := ((stands.of_child a_mem).subtrees_inside x_mem).2
    have second := ((stands.of_child b_mem).subtrees_inside y_mem).1
    exact .inr (Nat.le_trans first (Nat.le_trans before.offset_le second))

/-- One element is found from the other one, or they are apart. -/
def Related (a b : Placed) : Prop :=
  b ∈ a.below ∨ a ∈ b.below ∨ a.node.Apart b.node

instance : Std.Symm Related where
  symm a b related := by
    rcases related with lower | upper | apart
    · exact .inr (.inl lower)
    · exact .inl upper
    · exact .inr (.inr apart.symm)

theorem Stands.subtrees_related (stands : e.Stands) (x_mem : x ∈ e.subtrees)
    (y_mem : y ∈ e.subtrees) (other : x ≠ y) : x.Related y := by
  refine List.Pairwise.forall (stands.subtrees_ordered.imp ?_) x_mem y_mem other
  rintro a b (lower | before)
  · exact .inl lower
  · exact .inr (.inr (.inl before))

/-- What lies within an element, by its offsets, is found from it. -/
theorem Stands.mem_below_iff {root : Placed} (stands : root.Stands) (e_mem : e ∈ root.subtrees)
    (x_mem : x ∈ root.subtrees) : x ∈ e.below ↔ x.node.Within e.node := by
  have e_stands := stands.subtrees e_mem
  have x_long := (stands.subtrees x_mem).start_lt_stop
  refine ⟨e_stands.below_within, ?_⟩
  rintro ⟨start, stop⟩
  change e.start.offset < x.start.offset at start
  change x.stop.offset < e.stop.offset at stop
  have other : e ≠ x := by
    rintro rfl
    omega
  rcases stands.subtrees_related e_mem x_mem other with lower | upper | before | behind
  · exact lower
  · -- `e` would lie in `x`, which lies in `e`
    have inner := ((stands.subtrees x_mem).below_within upper).1
    change x.start.offset < e.start.offset at inner
    omega
  · change e.stop.offset ≤ x.start.offset at before
    omega
  · change x.stop.offset ≤ e.start.offset at behind
    omega

/-! ## Children -/

theorem Stands.children_increase (stands : e.Stands) :
    e.children.Pairwise fun a b => a.start.offset < b.start.offset := by
  refine (Content.children_precede _ _).imp_of_mem ?_
  intro a b a_mem _ before
  exact Nat.lt_of_lt_of_le (stands.of_child a_mem).start_lt_stop before.offset_le

theorem Stands.subtrees_increase (stands : e.Stands) :
    e.subtrees.Pairwise fun a b => a.start.offset < b.start.offset := by
  refine stands.subtrees_ordered.imp_of_mem ?_
  intro a b a_mem _ ordered
  have a_stands := stands.subtrees a_mem
  rcases ordered with lower | before
  · exact (a_stands.below_within lower).1
  · exact Nat.lt_of_lt_of_le a_stands.start_lt_stop before

/-- No child lies in another one. -/
theorem Stands.children_apart (stands : e.Stands) (x_mem : x ∈ e.children)
    (child_mem : child ∈ e.children) : ¬ x.node.Within child.node := by
  rintro ⟨start, stop⟩
  change child.start.offset < x.start.offset at start
  change x.stop.offset < child.stop.offset at stop
  have other : x ≠ child := by
    rintro rfl
    omega
  have apart : e.children.Pairwise fun a b => a.node.Apart b.node :=
    (Content.children_precede _ _).imp fun before => .inl before.offset_le
  have x_long := (stands.of_child x_mem).start_lt_stop
  rcases apart.forall x_mem child_mem other with before | behind
  · change x.stop.offset ≤ child.start.offset at before
    omega
  · change child.stop.offset ≤ x.start.offset at behind
    omega

theorem Stands.mem_children_iff {root : Placed} (stands : root.Stands)
    (e_mem : e ∈ root.subtrees) : x ∈ e.children ↔ x ∈ root.subtrees ∧ x.node.Within e.node ∧
      ∀ m ∈ root.subtrees, m.node.Within e.node → ¬ x.node.Within m.node := by
  have e_stands := stands.subtrees e_mem
  have known {y : Placed} (lower : y ∈ e.below) : y ∈ root.subtrees :=
    subtrees_trans e_mem (mem_subtrees_iff.2 (.inr lower))
  constructor
  · intro member
    refine ⟨known (child_mem_below member), e_stands.child_within member, ?_⟩
    intro m m_mem inside between
    -- `m` is found from a child of `e`, and the child `x` would lie in that one
    obtain ⟨child, child_mem, found⟩ :=
      mem_below_iff_child.1 ((stands.mem_below_iff e_mem m_mem).2 inside)
    obtain ⟨start, stop⟩ := (e_stands.of_child child_mem).subtrees_inside found
    exact e_stands.children_apart member child_mem
      ⟨Nat.lt_of_le_of_lt start between.1, Nat.lt_of_lt_of_le between.2 stop⟩
  · rintro ⟨x_mem, inside, direct⟩
    obtain ⟨child, child_mem, found⟩ :=
      mem_below_iff_child.1 ((stands.mem_below_iff e_mem x_mem).2 inside)
    rcases mem_subtrees_iff.1 found with rfl | lower
    · exact child_mem
    · exact absurd ((e_stands.of_child child_mem).below_within lower)
        (direct child (known (child_mem_below child_mem)) (e_stands.child_within child_mem))

/-- The children of an element, in their order: what lies in it and in nothing between. -/
theorem Stands.children_eq {root : Placed} (stands : root.Stands) (e_mem : e ∈ root.subtrees) :
    e.children = root.subtrees.filter fun x =>
      x.node.isDirectlyWithin (root.subtrees.map node) e.node := by
  have increasing : ∀ a b : Placed, a.start.offset < b.start.offset → a ≠ b := by
    rintro a b less rfl
    exact Nat.lt_irrefl _ less
  have here := (stands.subtrees e_mem).children_increase
  have there := stands.subtrees_increase.filter fun x =>
    x.node.isDirectlyWithin (root.subtrees.map node) e.node
  -- Both lists increase, so it is enough that they have the same members.
  refine List.Perm.eq_of_pairwise ?_ here there
    ((List.perm_ext_iff_of_nodup (here.imp (increasing _ _)) (there.imp (increasing _ _))).2 ?_)
  · intro a b _ _ less more
    exact absurd (Nat.lt_trans less more) (Nat.lt_irrefl _)
  · intro x
    rw [stands.mem_children_iff e_mem, List.mem_filter, Node.isDirectlyWithin_iff,
      List.forall_mem_map]

theorem childrenNamed_nodes (e : Placed) (name : String) :
    (e.childrenNamed name).map node = (e.children.map node).filter (·.name == some name) := by
  rw [List.filter_map]
  rfl

end Placed

theorem Document.Stands.rootElement {d : Document} (stands : d.Stands) : d.rootElement.Stands :=
  stands.root.alone

/-- Both ways through the document see the same elements, properly nested. -/
structure Document.TraversalsAgree (d : Document) : Prop where
  same : d.nodesOf .element = d.rootElement.subtrees.map Placed.node
  increasing : (d.nodesOf .element).Pairwise fun a b => a.start.offset < b.start.offset
  nested : (d.nodesOf .element).Pairwise fun a b => a.Apart b ∨ a.Within b ∨ b.Within a
  children : ∀ e ∈ d.rootElement.subtrees, e.children.map Placed.node =
    (d.nodesOf .element).filter (·.isDirectlyWithin (d.nodesOf .element) e.node)
  named : ∀ e ∈ d.rootElement.subtrees, ∀ name, (e.childrenNamed name).map Placed.node =
    ((d.nodesOf .element).filter
      (·.isDirectlyWithin (d.nodesOf .element) e.node)).filter (·.name == some name)

/-- Visiting all nodes of a well-formed document and going from element to element lead to the same
elements in the same order. They start at increasing offsets, two of them are apart or one lies in
the other one, and the children of each are those that lie in it with no other element between. -/
theorem Document.traversals_agree {text : List Char} {d : Document}
    (read : Document.ofText? text = some d) : d.TraversalsAgree := by
  have stands := (Document.ofText?_sound read).2.rootElement
  have same := d.elements_eq_subtrees
  have children : ∀ e ∈ d.rootElement.subtrees, e.children.map Placed.node =
      (d.nodesOf .element).filter (·.isDirectlyWithin (d.nodesOf .element) e.node) := by
    intro e e_mem
    rw [same, stands.children_eq e_mem, List.filter_map]
    rfl
  refine ⟨same, ?_, ?_, children, fun e e_mem name => ?_⟩
  · rw [same]
    exact List.pairwise_map.2 stands.subtrees_increase
  · rw [same]
    refine List.pairwise_map.2 (stands.subtrees_ordered.imp_of_mem ?_)
    intro a b a_mem _ ordered
    rcases ordered with lower | before
    · exact .inr (.inr ((stands.subtrees a_mem).below_within lower))
    · exact .inl (.inl before)
  · rw [e.childrenNamed_nodes, children e e_mem]

/-- Elements of one name on three levels, with a leaf of each kind between them. -/
def mixedLevels : List Char :=
  "<!-- <b/> --><a>x<b><b y='1'/><!-- <c/> --></b>&amp;<c><![CDATA[<b/>]]><b></b></c></a>".toList

theorem traversals_agree_mixedLevels : ∃ d, Document.ofText? mixedLevels = some d ∧
    (d.nodesOf .element).map (fun n => (n.start.offset, n.stop.offset)) =
      [(13, 86), (17, 47), (20, 30), (52, 82), (71, 78)] ∧
    (d.rootElement.childrenNamed "b").map (fun e => e.start.offset) = [17] ∧
    d.TraversalsAgree := by
  have found : (Document.ofText? mixedLevels).map (fun d =>
      ((d.nodesOf .element).map (fun n => (n.start.offset, n.stop.offset)),
        (d.rootElement.childrenNamed "b").map (fun e => e.start.offset))) =
      some ([(13, 86), (17, 47), (20, 30), (52, 82), (71, 78)], [17]) := by
    decide +kernel
  obtain ⟨d, read, answers⟩ := Option.map_eq_some_iff.1 found
  simp only [Prod.mk.injEq] at answers
  exact ⟨d, read, answers.1, answers.2, Document.traversals_agree read⟩

end ManifestOrder.Xml
