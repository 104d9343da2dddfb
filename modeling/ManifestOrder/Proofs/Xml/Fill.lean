import ManifestOrder.Proofs.Xml.Document
import ManifestOrder.Proofs.Text.Weave
import ManifestOrder.Xml.Node

/-!
# Elements in the slots of others

The elements of one name in a content are slots; `Content.fill` puts other elements into them, in
order, and leaves everything else as it is. Filled with elements that are read somewhere, a content
is still read as it is (`Content.fill_standsBefore`), unless one of its empty sections comes to
stand in front of a mark.
-/

namespace ManifestOrder.Xml

open Text

/-- A content that begins with an element. -/
def Element.followedBy (e : Element) (rest : Content) : Content :=
  match e with
  | .empty tag => .empty tag rest
  | .paired opening inner closing => .element opening inner closing rest

def Element.isNamed (name : String) (e : Element) : Bool :=
  e.tag.localName == name

namespace Content

/-- A content is a list of leaves and elements. -/
theorem piecewise {motive : Content → Prop} (nil : motive .nil)
    (leaf : ∀ piece rest, motive rest → motive (.leaf piece rest))
    (element : ∀ (e : Element) rest, motive rest → motive (e.followedBy rest)) :
    ∀ c, motive c
  | .nil => nil
  | .leaf piece rest => leaf piece rest (piecewise nil leaf element rest)
  | .empty tag rest => element (.empty tag) rest (piecewise nil leaf element rest)
  | .element opening inner closing rest =>
    element (.paired opening inner closing) rest (piecewise nil leaf element rest)

/-- The elements directly in a content. -/
def elements : Content → List Element
  | .nil => []
  | .leaf _ rest => rest.elements
  | .empty tag rest => .empty tag :: rest.elements
  | .element opening inner closing rest => .paired opening inner closing :: rest.elements

def elementsNamed (name : String) (c : Content) : List Element :=
  c.elements.filter (·.isNamed name)

/-- The leaves of a content, those within its elements included. -/
def leaves : Content → List Leaf
  | .nil => []
  | .leaf piece rest => piece :: rest.leaves
  | .empty _ rest => rest.leaves
  | .element _ inner _ rest => inner.leaves ++ rest.leaves

/-- The next of the given elements in place of an old one of the name, and what is made of the
others behind it. -/
def fillSlot (name : String) (old : Element) (others : List Element → Content) :
    List Element → Content
  | [] => old.followedBy (others [])
  | e :: es =>
    if old.isNamed name then e.followedBy (others es) else old.followedBy (others (e :: es))

/-- Elements put in place of those of a name, as many as are given. -/
def fill (name : String) : Content → List Element → Content
  | .nil, _ => .nil
  | .leaf piece rest, es => .leaf piece (rest.fill name es)
  | .empty tag rest, es => fillSlot name (.empty tag) (rest.fill name) es
  | .element opening inner closing rest, es =>
    fillSlot name (.paired opening inner closing) (rest.fill name) es

/-- The texts around the elements of a name, `front` and `back` standing around the content. -/
def gaps (name : String) (back : List Char) : Content → List Char → List (List Char)
  | .nil, front => [front ++ back]
  | .leaf piece rest, front => rest.gaps name back (front ++ piece.text)
  | .empty tag rest, front =>
    if (Element.empty tag).isNamed name then front :: rest.gaps name back []
    else rest.gaps name back (front ++ tag.text)
  | .element opening inner closing rest, front =>
    let e := Element.paired opening inner closing
    if e.isNamed name then front :: rest.gaps name back []
    else rest.gaps name back (front ++ e.source)

/-! ## A content that begins with an element -/

section
variable (e : Element) (rest : Content)

@[simp] theorem onto_followedBy (tail : List Char) :
    (e.followedBy rest).onto tail = e.source ++ rest.onto tail := by
  cases e with
  | empty tag => rfl
  | paired opening inner closing =>
    show opening.text ++ inner.onto (closing.text ++ rest.onto tail) = _
    rw [onto_append, ← List.append_assoc]
    rfl

@[simp] theorem isNested_followedBy (stack : TagStack) :
    (e.followedBy rest).isNested stack = (e.alone.isNested stack && rest.isNested stack) := by
  cases e with
  | empty tag => rfl
  | paired opening inner closing =>
    show (_ && rest.isNested stack) = (_ && true && rest.isNested stack)
    rw [Bool.and_true]

@[simp] theorem isSettled_followedBy (tail : List Char) :
    (e.followedBy rest).isSettled tail =
      (e.isSettled (rest.onto tail) && rest.isSettled tail) := by
  cases e with
  | empty tag => rfl
  | paired opening inner closing =>
    show (_ && rest.isSettled tail) = (_ && true && rest.isSettled tail)
    rw [Bool.and_true]
    rfl

theorem standsBefore_followedBy {e : Element} {rest : Content} {tail : List Char} :
    (e.followedBy rest).StandsBefore tail ↔
      e.StandsBefore (rest.onto tail) ∧ rest.StandsBefore tail := by
  cases e with
  | empty tag => rw [Element.standsBefore_empty]; rfl
  | paired opening inner closing =>
    rw [Element.standsBefore_paired, and_assoc, and_assoc]
    rfl

@[simp] theorem children_followedBy (p : Position) :
    (e.followedBy rest).children p = ⟨e, p⟩ :: rest.children (p.after e.source) := by
  cases e <;> rfl

@[simp] theorem elements_followedBy : (e.followedBy rest).elements = e :: rest.elements := by
  cases e <;> rfl

@[simp] theorem leaves_followedBy :
    (e.followedBy rest).leaves = e.content.leaves ++ rest.leaves := by
  cases e <;> rfl

@[simp] theorem fill_followedBy (name : String) (es : List Element) :
    (e.followedBy rest).fill name es = fillSlot name e (rest.fill name) es := by
  cases e <;> rfl

theorem gaps_followedBy (name : String) (front back : List Char) :
    (e.followedBy rest).gaps name back front =
      if e.isNamed name then front :: rest.gaps name back []
      else rest.gaps name back (front ++ e.source) := by
  cases e <;> rfl

end

@[simp] theorem elementsNamed_nil (name : String) : Content.nil.elementsNamed name = [] := rfl

theorem elementsNamed_followedBy (name : String) (e : Element) (rest : Content) :
    (e.followedBy rest).elementsNamed name =
      if e.isNamed name then e :: rest.elementsNamed name else rest.elementsNamed name := by
  rw [elementsNamed, elements_followedBy, List.filter_cons]
  rfl

theorem fillSlot_nil (name : String) (old : Element) (others : List Element → Content) :
    fillSlot name old others [] = old.followedBy (others []) := rfl

theorem fillSlot_named {name : String} {old : Element} (named : old.isNamed name = true)
    (others : List Element → Content) (e : Element) (es : List Element) :
    fillSlot name old others (e :: es) = e.followedBy (others es) := by
  rw [fillSlot, if_pos named]

theorem fillSlot_other {name : String} {old : Element} (other : ¬ old.isNamed name = true)
    (others : List Element → Content) (es : List Element) :
    fillSlot name old others es = old.followedBy (others es) := by
  cases es with
  | nil => rfl
  | cons e es => rw [fillSlot, if_neg other]

/-- An element is kept or gives way to the first of the new ones. -/
theorem fillSlot_cases (name : String) (old : Element) (others : List Element → Content)
    (es : List Element) :
    fillSlot name old others es = old.followedBy (others es) ∨
      ∃ e es', es = e :: es' ∧ fillSlot name old others es = e.followedBy (others es') := by
  cases es with
  | nil => exact .inl rfl
  | cons e es =>
    by_cases slot : old.isNamed name = true
    · exact .inr ⟨e, es, rfl, fillSlot_named slot others e es⟩
    · exact .inl (fillSlot_other slot others (e :: es))

/-! ## What a filled content consists of -/

section
variable {name : String}

theorem elementsNamed_fill {c : Content} {es : List Element}
    (named : ∀ e ∈ es, e.isNamed name = true)
    (room : es.length ≤ (c.elementsNamed name).length) :
    (c.fill name es).elementsNamed name = es ++ (c.elementsNamed name).drop es.length := by
  induction c using piecewise generalizing es with
  | nil =>
    obtain rfl : es = [] := List.length_eq_zero_iff.1 (Nat.le_zero.1 room)
    rfl
  | leaf piece rest ih => exact ih named room
  | element e rest ih =>
    rw [fill_followedBy]
    by_cases slot : e.isNamed name = true
    · rw [elementsNamed_followedBy, if_pos slot] at room ⊢
      cases es with
      | nil =>
        rw [fillSlot_nil, elementsNamed_followedBy, if_pos slot, ih (by simp) (Nat.zero_le _)]
        rfl
      | cons new es =>
        rw [List.forall_mem_cons] at named
        rw [fillSlot_named slot, elementsNamed_followedBy, if_pos named.1,
          ih named.2 (Nat.le_of_succ_le_succ room)]
        rfl
    · rw [elementsNamed_followedBy, if_neg slot] at room ⊢
      rw [fillSlot_other slot, elementsNamed_followedBy, if_neg slot, ih named room]

theorem gaps_fill {c : Content} {es : List Element} (named : ∀ e ∈ es, e.isNamed name = true)
    (front back : List Char) :
    (c.fill name es).gaps name back front = c.gaps name back front := by
  induction c using piecewise generalizing es front with
  | nil => rfl
  | leaf piece rest ih => exact ih named (front ++ piece.text)
  | element e rest ih =>
    rw [fill_followedBy, gaps_followedBy]
    by_cases slot : e.isNamed name = true
    · rw [if_pos slot]
      cases es with
      | nil => rw [fillSlot_nil, gaps_followedBy, if_pos slot, ih (by simp)]
      | cons new es =>
        rw [List.forall_mem_cons] at named
        rw [fillSlot_named slot, gaps_followedBy, if_pos named.1, ih named.2]
    · rw [fillSlot_other slot, gaps_followedBy, if_neg slot, if_neg slot, ih named]

theorem gaps_length (c : Content) (front back : List Char) :
    (c.gaps name back front).length = (c.elementsNamed name).length + 1 := by
  induction c using piecewise generalizing front with
  | nil => rfl
  | leaf piece rest ih => exact ih (front ++ piece.text)
  | element e rest ih =>
    rw [gaps_followedBy, elementsNamed_followedBy]
    split
    · rw [List.length_cons, List.length_cons, ih]
    · exact ih (front ++ e.source)

/-- The gaps and the elements of the name make up the content and what stands around it. -/
theorem weave_gaps (c : Content) (front back : List Char) :
    weave (c.gaps name back front) ((c.elementsNamed name).map Element.source) =
      front ++ c.onto back := by
  induction c using piecewise generalizing front with
  | nil => exact weave_singleton (front ++ back)
  | leaf piece rest ih => exact (ih (front ++ piece.text)).trans (List.append_assoc _ _ _)
  | element e rest ih =>
    rw [gaps_followedBy, elementsNamed_followedBy, onto_followedBy]
    split
    · rw [List.map_cons, weave_cons, ih [], List.nil_append, List.append_assoc]
    · rw [ih (front ++ e.source), List.append_assoc]

theorem leaves_of_mem {c : Content} {e : Element} (member : e ∈ c.elementsNamed name) :
    e.content.leaves ⊆ c.leaves := by
  induction c using piecewise with
  | nil => simp at member
  | leaf piece rest ih => exact List.Subset.trans (ih member) (List.subset_cons_self _ _)
  | element e' rest ih =>
    rw [leaves_followedBy]
    have inside (later : e ∈ rest.elementsNamed name) :
        e.content.leaves ⊆ e'.content.leaves ++ rest.leaves :=
      List.Subset.trans (ih later) (List.subset_append_right _ _)
    rw [elementsNamed_followedBy] at member
    split at member
    · rcases List.mem_cons.1 member with rfl | later
      · exact List.subset_append_left _ _
      · exact inside later
    · exact inside member

theorem mem_leaves_fill {c : Content} {es : List Element} {piece : Leaf}
    (member : piece ∈ (c.fill name es).leaves) :
    piece ∈ c.leaves ∨ ∃ e ∈ es, piece ∈ e.content.leaves := by
  induction c using piecewise generalizing es with
  | nil => exact .inl member
  | leaf first rest ih =>
    rcases List.mem_cons.1 member with rfl | later
    · exact .inl List.mem_cons_self
    · exact (ih later).imp_left (List.mem_cons_of_mem first)
  | element e rest ih =>
    rw [fill_followedBy] at member
    rw [leaves_followedBy, List.mem_append]
    rcases fillSlot_cases name e (rest.fill name) es with kept | ⟨new, es, rfl, filled⟩
    · rw [kept, leaves_followedBy, List.mem_append] at member
      rcases member with here | later
      · exact .inl (.inl here)
      · exact (ih later).imp_left .inr
    · rw [filled, leaves_followedBy, List.mem_append] at member
      rcases member with here | later
      · exact .inr ⟨new, List.mem_cons_self, here⟩
      · rcases ih later with old | ⟨e, inside, found⟩
        · exact .inl (.inr old)
        · exact .inr ⟨e, List.mem_cons_of_mem new inside, found⟩

theorem infix_of_mem_leaves {c : Content} {piece : Leaf} (member : piece ∈ c.leaves) :
    piece.text <:+: c.source := by
  induction c with
  | nil => simp [leaves] at member
  | leaf first rest ih =>
    rw [source_leaf]
    rcases List.mem_cons.1 member with rfl | later
    · exact (List.prefix_append _ _).isInfix
    · exact (ih later).trans (List.suffix_append _ _).isInfix
  | empty tag rest ih =>
    rw [source_empty]
    exact (ih member).trans (List.suffix_append _ _).isInfix
  | element opening inner closing rest ihInner ih =>
    rw [source_element, List.append_assoc]
    rcases List.mem_append.1 member with inside | later
    · exact (ihInner inside).trans (List.infix_append opening.text inner.source _)
    · exact (ih later).trans
        ((List.suffix_append closing.text rest.source).trans (List.suffix_append _ _)).isInfix

/-- A content without empty sections stands the same wherever it is. -/
theorem isSettled_of_leaves {c : Content} (free : emptySection ∉ c.leaves) (tail : List Char) :
    c.isSettled tail = true := by
  induction c generalizing tail with
  | nil => rfl
  | leaf piece rest ih =>
    rw [leaves, List.mem_cons, not_or] at free
    exact isSettled_leaf.2 ⟨fun empty => absurd empty.symm free.1, ih free.2 tail⟩
  | empty tag rest ih => exact ih free tail
  | element opening inner closing rest ihInner ih =>
    rw [leaves, List.mem_append, not_or] at free
    exact isSettled_element.2 ⟨ihInner free.1 _, ih free.2 tail⟩

/-! ## Reading a filled content -/

theorem standsAlone_of_mem {c : Content} {tail : List Char} (stands : c.StandsBefore tail) :
    ∀ e ∈ c.elementsNamed name, e.StandsBefore [] := by
  induction c using piecewise with
  | nil => simp
  | leaf piece rest ih => exact ih stands.2
  | element e rest ih =>
    obtain ⟨first, others⟩ := standsBefore_followedBy.1 stands
    rw [elementsNamed_followedBy]
    split
    · exact List.forall_mem_cons.2 ⟨first.alone, ih others⟩
    · exact ih others

theorem isSettled_of_mem {c : Content} {tail : List Char} (settled : c.isSettled tail = true) :
    ∀ e ∈ c.elementsNamed name, e.isSettled [] = true := by
  induction c using piecewise with
  | nil => simp
  | leaf piece rest ih =>
    exact ih (isSettled_leaf.1 settled).2
  | element e rest ih =>
    rw [isSettled_followedBy, Bool.and_eq_true] at settled
    rw [elementsNamed_followedBy]
    split
    · exact List.forall_mem_cons.2 ⟨isSettled_of_append _ settled.1, ih settled.2⟩
    · exact ih settled.2

theorem isNested_of_mem {c : Content} {stack : TagStack} (nested : c.isNested stack = true) :
    ∀ e ∈ c.elementsNamed name, e.alone.isNested stack = true := by
  induction c using piecewise with
  | nil => simp
  | leaf piece rest ih => exact ih nested
  | element e rest ih =>
    rw [isNested_followedBy, Bool.and_eq_true] at nested
    rw [elementsNamed_followedBy]
    split
    · exact List.forall_mem_cons.2 ⟨nested.1, ih nested.2⟩
    · exact ih nested.2

theorem isNested_fill {c : Content} {stack : TagStack} {es : List Element}
    (nested : c.isNested stack = true) (each : ∀ e ∈ es, e.alone.isNested stack = true) :
    (c.fill name es).isNested stack = true := by
  induction c using piecewise generalizing es with
  | nil => rfl
  | leaf piece rest ih => exact ih nested each
  | element e rest ih =>
    rw [isNested_followedBy, Bool.and_eq_true] at nested
    rw [fill_followedBy]
    rcases fillSlot_cases name e (rest.fill name) es with kept | ⟨new, es, rfl, filled⟩
    · rw [kept, isNested_followedBy, Bool.and_eq_true]
      exact ⟨nested.1, ih nested.2 each⟩
    · rw [List.forall_mem_cons] at each
      rw [filled, isNested_followedBy, Bool.and_eq_true]
      exact ⟨each.1, ih nested.2 each.2⟩

/-- An old element and the new one in its place begin with the same character. -/
theorem sameLead_fill {c : Content} {es : List Element} {tail : List Char}
    (stands : c.StandsBefore tail) (markup : '<' ∈ tail)
    (each : ∀ e ∈ es, e.StandsBefore []) :
    SameLead (c.onto tail) ((c.fill name es).onto tail) := by
  induction c using piecewise generalizing es with
  | nil => exact .refl_of_mem markup
  | leaf piece rest ih => exact (ih stands.2 each).append piece.text
  | element e rest ih =>
    obtain ⟨first, others⟩ := standsBefore_followedBy.1 stands
    rw [fill_followedBy, onto_followedBy]
    rcases fillSlot_cases name e (rest.fill name) es with kept | ⟨new, es, rfl, filled⟩
    · rw [kept, onto_followedBy]
      exact (ih others each).append e.source
    · rw [List.forall_mem_cons] at each
      -- Here the texts part, right behind the `<` of the two elements.
      obtain ⟨c, old_tail, old_begins, -⟩ := first.begins
      obtain ⟨d, new_tail, new_begins, -⟩ := each.1.begins
      rw [filled, onto_followedBy, old_begins, new_begins]
      exact ⟨[], _, _, rfl, rfl⟩

theorem fill_standsBefore {c : Content} {es : List Element} {tail : List Char}
    (stands : c.StandsBefore tail) (markup : '<' ∈ tail)
    (each : ∀ e ∈ es, e.StandsBefore [])
    (settled : (c.fill name es).isSettled tail = true) : (c.fill name es).StandsBefore tail := by
  induction c using piecewise generalizing es with
  | nil => trivial
  | leaf piece rest ih =>
    obtain ⟨first, others⟩ := stands
    obtain ⟨free, settled⟩ := isSettled_leaf.1 settled
    -- A leaf sees no further than to the next `<`, unless it is an empty section.
    refine ⟨first.elsewhere (sameLead_fill others markup each) ?_,
      ih others each settled⟩
    intro empty
    exact free (Token.leaf.inj empty)
  | element e rest ih =>
    obtain ⟨first, others⟩ := standsBefore_followedBy.1 stands
    rw [fill_followedBy] at settled ⊢
    rcases fillSlot_cases name e (rest.fill name) es with kept | ⟨new, es, rfl, filled⟩
    · rw [kept, isSettled_followedBy, Bool.and_eq_true] at settled
      rw [kept, standsBefore_followedBy]
      exact ⟨first.elsewhere settled.1, ih others each settled.2⟩
    · rw [List.forall_mem_cons] at each
      rw [filled, isSettled_followedBy, Bool.and_eq_true] at settled
      rw [filled, standsBefore_followedBy]
      exact ⟨each.1.elsewhere settled.1, ih others each.2 settled.2⟩

end

end Content

/-! ## Elements -/

namespace Element

/-- The element with others put in place of its children of a name. -/
def fill (name : String) (e : Element) (es : List Element) : Element :=
  match e with
  | .empty tag => .empty tag
  | .paired opening inner closing => .paired opening (inner.fill name es) closing

section
variable (name : String) (e : Element) (es : List Element)

@[simp] theorem fill_tag : (e.fill name es).tag = e.tag := by
  cases e <;> rfl

@[simp] theorem fill_ending : (e.fill name es).ending = e.ending := by
  cases e <;> rfl

@[simp] theorem fill_content : (e.fill name es).content = e.content.fill name es := by
  cases e <;> rfl

end

variable {name : String} {e : Element} {es : List Element}

theorem isNested_alone (e : Element) : e.isNested = e.alone.isNested [] := by
  cases e <;> rfl

theorem standsAlone_of_mem {next : List Char} (stands : e.StandsBefore next) :
    ∀ child ∈ e.content.elementsNamed name, child.StandsBefore [] := by
  cases e with
  | empty tag => simp [content]
  | paired opening inner closing =>
    exact Content.standsAlone_of_mem (standsBefore_paired.1 stands).2.1

theorem isSettled_of_mem {next : List Char} (settled : e.isSettled next = true) :
    ∀ child ∈ e.content.elementsNamed name, child.isSettled [] = true := by
  cases e with
  | empty tag => simp [content]
  | paired opening inner closing =>
    rw [isSettled_paired] at settled
    exact Content.isSettled_of_mem settled

theorem infix_of_mem_leaves {piece : Leaf} (member : piece ∈ e.content.leaves) :
    piece.text <:+: e.source := by
  rw [source_eq, Content.onto_eq, ← List.append_assoc]
  exact (Content.infix_of_mem_leaves member).trans (List.infix_append _ _ _)

theorem isSettled_of_leaves (free : emptySection ∉ e.content.leaves) (next : List Char) :
    e.isSettled next = true := by
  cases e with
  | empty tag => rfl
  | paired opening inner closing =>
    rw [isSettled_paired]
    exact Content.isSettled_of_leaves free _

theorem fill_standsBefore {next : List Char} (stands : e.StandsBefore next)
    (each : ∀ child ∈ es, child.StandsBefore [])
    (settled : (e.fill name es).isSettled next = true) : (e.fill name es).StandsBefore next := by
  cases e with
  | empty tag => exact stands
  | paired opening inner closing =>
    obtain ⟨first, inside, closed⟩ := standsBefore_paired.1 stands
    obtain ⟨rest, begins⟩ := closed.begins_of_closing
    have markup : '<' ∈ closing.text ++ next := by simp [begins]
    rw [fill, isSettled_paired] at settled
    refine standsBefore_paired.2 ⟨first.of_tag rfl _, ?_, closed⟩
    exact Content.fill_standsBefore inside markup each settled

theorem isNested_of_mem {stack : TagStack} (nested : e.alone.isNested stack = true) :
    ∀ child ∈ e.content.elementsNamed name,
      child.alone.isNested (stack.push e.tag.name) = true := by
  cases e with
  | empty tag => simp [content]
  | paired opening inner closing =>
    simp only [alone, Content.isNested, Bool.and_eq_true] at nested
    exact Content.isNested_of_mem nested.1.1

theorem fill_isNested {stack : TagStack} (nested : e.alone.isNested stack = true)
    (each : ∀ child ∈ es, child.alone.isNested (stack.push e.tag.name) = true) :
    (e.fill name es).alone.isNested stack = true := by
  cases e with
  | empty tag => rfl
  | paired opening inner closing =>
    simp only [alone, fill, Content.isNested, Bool.and_eq_true] at nested ⊢
    exact ⟨⟨Content.isNested_fill nested.1.1 each, nested.1.2⟩, trivial⟩

end Element

/-! ## Places -/

/-- Elements in their place between gaps, the first gap starting at `p`. -/
def place (p : Position) : List (List Char) → List Element → List Placed
  | gap :: gaps, e :: es => ⟨e, p.after gap⟩ :: place ((p.after gap).after e.source) gaps es
  | _, _ => []

theorem place_elements {p : Position} {gaps : List (List Char)} {es : List Element}
    (count : es.length ≤ gaps.length) : (place p gaps es).map Placed.element = es := by
  induction es generalizing p gaps with
  | nil => cases gaps <;> rfl
  | cons e es ih =>
    cases gaps with
    | nil => simp at count
    | cons gap gaps => rw [place, List.map_cons, ih (Nat.le_of_succ_le_succ count)]

theorem Content.children_named (name : String) (p : Position) (c : Content)
    (front back : List Char) :
    (c.children (p.after front)).filter (·.name == name) =
      place p (c.gaps name back front) (c.elementsNamed name) := by
  induction c using piecewise generalizing p front with
  | nil => rfl
  | leaf piece rest ih =>
    show (rest.children ((p.after front).after piece.text)).filter _ = _
    rw [← Position.after_append]
    exact ih p (front ++ piece.text)
  | element e rest ih =>
    rw [children_followedBy, List.filter_cons, gaps_followedBy, elementsNamed_followedBy]
    by_cases slot : e.isNamed name = true
    · have here : (Placed.name ⟨e, p.after front⟩ == name) = true := slot
      rw [if_pos slot, if_pos slot, if_pos here, place, ← ih, Position.after_nil]
    · have other : ¬ (Placed.name ⟨e, p.after front⟩ == name) = true := slot
      rw [if_neg slot, if_neg slot, if_neg other, ← Position.after_append]
      exact ih p (front ++ e.source)

/-- The children of a name of an element that starts behind `front`, in their places. -/
theorem Placed.childrenNamed_eq (name : String) (e : Element) (front back : List Char) :
    (Placed.mk e (Position.after {} front)).childrenNamed name =
      place {} (e.content.gaps name back (front ++ e.tag.text)) (e.content.elementsNamed name) := by
  rw [← Content.children_named, Position.after_append]
  rfl

end ManifestOrder.Xml
