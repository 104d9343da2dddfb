import ManifestOrder.Proofs.Xml.Token
import ManifestOrder.Xml.Node

/-!
# Contents and the text behind them

A content *stands before* a text when each of its tokens stands before what follows it. That is all
there is to reading: the scanner finds a content and its closing tag exactly where they stand
(`Content.find_eq_some_iff`).

Main statements:
1. `Content.StandsBefore.elsewhere`: a content is read the same before any text with the same lead,
   if no empty section in it comes to stand in front of a mark.
2. `Element.StandsBefore.unique`: text that is the text of an element in two places is the same
   element in both.
-/

namespace ManifestOrder.Xml

open Text

namespace Content

/-- Each token of the content stands before what follows it, `tail` being what follows the
content. -/
def StandsBefore (tail : List Char) : Content → Prop
  | .nil => True
  | .leaf piece rest =>
    (Token.leaf piece).StandsBefore (rest.onto tail) ∧ rest.StandsBefore tail
  | .empty tag rest =>
    (Token.empty tag).StandsBefore (rest.onto tail) ∧ rest.StandsBefore tail
  | .element opening inner closing rest =>
    (Token.opening opening).StandsBefore (inner.onto (closing.text ++ rest.onto tail)) ∧
      inner.StandsBefore (closing.text ++ rest.onto tail) ∧
      (Token.closing closing).StandsBefore (rest.onto tail) ∧ rest.StandsBefore tail

/-- No mark follows an empty section of the content, `tail` being what follows the content. -/
def isSettled (tail : List Char) : Content → Bool
  | .nil => true
  | .leaf piece rest =>
    (piece != emptySection || !endsSection (rest.onto tail)) && rest.isSettled tail
  | .empty _ rest => rest.isSettled tail
  | .element _ inner closing rest =>
    inner.isSettled (closing.text ++ rest.onto tail) && rest.isSettled tail

theorem isSettled_leaf {piece : Leaf} {rest : Content} {tail : List Char} :
    (Content.leaf piece rest).isSettled tail = true ↔
      (piece = emptySection → endsSection (rest.onto tail) = false) ∧
        rest.isSettled tail = true := by
  rw [isSettled, Bool.and_eq_true, Bool.or_eq_true, bne_iff_ne, Bool.not_eq_true',
    ← Decidable.imp_iff_not_or]

theorem isSettled_element {opening closing : Tag} {inner rest : Content} {tail : List Char} :
    (Content.element opening inner closing rest).isSettled tail = true ↔
      inner.isSettled (closing.text ++ rest.onto tail) = true ∧ rest.isSettled tail = true := by
  rw [isSettled, Bool.and_eq_true]

theorem onto_append (c : Content) (tail more : List Char) :
    c.onto (tail ++ more) = c.onto tail ++ more := by
  rw [onto_eq, onto_eq c tail, List.append_assoc]

/-! ## Reading is standing -/

/-- The content at the front of a text, the closing tag after it, and what follows that tag. -/
def find (s : List Char) : Option (Content × Tag × List Char) :=
  (Content.scan s).map fun (c, closing, rest) => (c, closing, rest.val)

/-- What is found goes by the first token. -/
theorem find_eq (s : List Char) :
    find s = (Token.scan s).bind fun
      | (.closing closing, rest) => some (.nil, closing, rest)
      | (.leaf piece, rest) =>
        (find rest).map fun (c, closing, left) => (.leaf piece c, closing, left)
      | (.empty tag, rest) =>
        (find rest).map fun (c, closing, left) => (.empty tag c, closing, left)
      | (.opening tag, rest) =>
        (find rest).bind fun (inner, innerClosing, middle) =>
          (find middle).map fun (c, closing, left) =>
            (.element tag inner innerClosing c, closing, left) := by
  rw [find, Content.scan]
  split
  · rename_i front
    rw [front]
    rfl
  · rename_i token rest front
    conv => rhs; rw [front, Option.bind_some]
    cases token with
    | closing closing => rfl
    | leaf piece =>
      simp only [find]
      cases Content.scan rest <;> rfl
    | empty tag =>
      simp only [find]
      cases Content.scan rest <;> rfl
    | opening tag =>
      simp only [find]
      cases Content.scan rest with
      | none => rfl
      | some found =>
        obtain ⟨inner, innerClosing, middle, less⟩ := found
        simp only [Option.map_some, Option.bind_some]
        cases Content.scan middle <;> rfl

section
variable {s rest : List Char}

theorem find_of_none (front : Token.scan s = none) : find s = none := by
  rw [find_eq, front, Option.bind_none]

theorem find_of_closing {closing : Tag} (front : Token.scan s = some (.closing closing, rest)) :
    find s = some (.nil, closing, rest) := by
  rw [find_eq, front, Option.bind_some]

theorem find_of_leaf {piece : Leaf} (front : Token.scan s = some (.leaf piece, rest)) :
    find s = (find rest).map fun (c, closing, left) => (.leaf piece c, closing, left) := by
  rw [find_eq, front, Option.bind_some]

theorem find_of_empty {tag : Tag} (front : Token.scan s = some (.empty tag, rest)) :
    find s = (find rest).map fun (c, closing, left) => (.empty tag c, closing, left) := by
  rw [find_eq, front, Option.bind_some]

theorem find_of_opening {tag : Tag} (front : Token.scan s = some (.opening tag, rest)) :
    find s = (find rest).bind fun (inner, innerClosing, middle) =>
      (find middle).map fun (c, closing, left) =>
        (.element tag inner innerClosing c, closing, left) := by
  rw [find_eq, front, Option.bind_some]

end

/-- The token at the front of a text stands before what the scanner leaves. -/
theorem stands_of_scan {token : Token} {s rest : List Char}
    (read : Token.scan s = some (token, rest)) : token.StandsBefore rest := by
  rw [Token.StandsBefore, Token.scan_text read]
  exact read

theorem find_sound {s rest : List Char} {c : Content} {closing : Tag}
    (read : find s = some (c, closing, rest)) :
    s = c.onto (closing.text ++ rest) ∧ c.StandsBefore (closing.text ++ rest) ∧
      (Token.closing closing).StandsBefore rest := by
  cases front : Token.scan s with
  | none => simp [find_of_none front] at read
  | some found =>
    obtain ⟨token, next⟩ := found
    have shorter := (Token.scan_rest front).length_lt
    have text := Token.scan_text front
    have stands := stands_of_scan front
    cases token with
    | closing tag =>
      rw [find_of_closing front] at read
      simp only [Option.some.injEq, Prod.mk.injEq] at read
      obtain ⟨rfl, rfl, rfl⟩ := read
      exact ⟨text.symm, trivial, stands⟩
    | leaf piece =>
      rw [find_of_leaf front] at read
      obtain ⟨⟨c, closing, left⟩, inner, same⟩ := Option.map_eq_some_iff.1 read
      simp only [Prod.mk.injEq] at same
      obtain ⟨rfl, rfl, rfl⟩ := same
      obtain ⟨rfl, rest_stands, closed⟩ := find_sound inner
      exact ⟨text.symm, ⟨stands, rest_stands⟩, closed⟩
    | empty tag =>
      rw [find_of_empty front] at read
      obtain ⟨⟨c, closing, left⟩, inner, same⟩ := Option.map_eq_some_iff.1 read
      simp only [Prod.mk.injEq] at same
      obtain ⟨rfl, rfl, rfl⟩ := same
      obtain ⟨rfl, rest_stands, closed⟩ := find_sound inner
      exact ⟨text.symm, ⟨stands, rest_stands⟩, closed⟩
    | opening tag =>
      rw [find_of_opening front] at read
      obtain ⟨⟨content, innerClosing, middle⟩, inner, behind⟩ := Option.bind_eq_some_iff.1 read
      obtain ⟨⟨c, closing, left⟩, outer, same⟩ := Option.map_eq_some_iff.1 behind
      simp only [Prod.mk.injEq] at same
      obtain ⟨rfl, rfl, rfl⟩ := same
      obtain ⟨whole, inner_stands, inner_closed⟩ := find_sound inner
      -- for the termination of the second call, which starts where the first one has ended
      have : middle.length ≤ next.length := by
        rw [whole, onto_eq]
        simp only [List.length_append]
        omega
      obtain ⟨rfl, rest_stands, closed⟩ := find_sound outer
      rw [whole] at text stands
      exact ⟨text.symm, ⟨stands, inner_stands, inner_closed, rest_stands⟩, closed⟩
termination_by s.length

theorem find_complete {c : Content} {closing : Tag} {rest : List Char}
    (stands : c.StandsBefore (closing.text ++ rest))
    (closed : (Token.closing closing).StandsBefore rest) :
    find (c.onto (closing.text ++ rest)) = some (c, closing, rest) := by
  induction c generalizing closing rest with
  | nil => exact find_of_closing closed
  | leaf piece tail ih =>
    obtain ⟨first, others⟩ := stands
    show find ((Token.leaf piece).text ++ tail.onto (closing.text ++ rest)) = _
    rw [find_of_leaf first, ih others closed, Option.map_some]
  | empty tag tail ih =>
    obtain ⟨first, others⟩ := stands
    show find ((Token.empty tag).text ++ tail.onto (closing.text ++ rest)) = _
    rw [find_of_empty first, ih others closed, Option.map_some]
  | element opening inner innerClosing tail ihInner ih =>
    obtain ⟨first, inside, inner_closed, others⟩ := stands
    show find ((Token.opening opening).text ++
      inner.onto (innerClosing.text ++ tail.onto (closing.text ++ rest))) = _
    rw [find_of_opening first, ihInner inside inner_closed, Option.bind_some]
    simp only [ih others closed, Option.map_some]

/-- The scanner finds a content exactly where it stands. -/
theorem find_eq_some_iff {s rest : List Char} {c : Content} {closing : Tag} :
    find s = some (c, closing, rest) ↔ s = c.onto (closing.text ++ rest) ∧
      c.StandsBefore (closing.text ++ rest) ∧ (Token.closing closing).StandsBefore rest := by
  constructor
  · exact find_sound
  · rintro ⟨rfl, stands, closed⟩
    exact find_complete stands closed

/-! ## The text behind a content -/

theorem sameLead_onto {x y : List Char} (c : Content) (same : SameLead x y) :
    SameLead (c.onto x) (c.onto y) := by
  rw [onto_eq, onto_eq c y]
  exact same.append c.source

theorem sameLead_closing {closing : Tag} {x : List Char}
    (closed : (Token.closing closing).StandsBefore x) (y : List Char) :
    SameLead (closing.text ++ x) (closing.text ++ y) := by
  obtain ⟨rest, begins⟩ := closed.begins_of_closing
  exact .of_mem (by simp [begins]) x y

namespace StandsBefore

variable {c : Content} {x : List Char}

theorem elsewhere {y : List Char} (stands : c.StandsBefore x) (same : SameLead x y)
    (settled : c.isSettled y = true) : c.StandsBefore y := by
  induction c generalizing x y with
  | nil => trivial
  | leaf piece rest ih =>
    obtain ⟨first, others⟩ := stands
    obtain ⟨free, settled⟩ := isSettled_leaf.1 settled
    refine ⟨first.elsewhere (sameLead_onto rest same) ?_, ih others same settled⟩
    intro empty
    exact free (Token.leaf.inj empty)
  | empty tag rest ih =>
    obtain ⟨first, others⟩ := stands
    exact ⟨first.of_tag rfl _, ih others same settled⟩
  | element opening inner closing rest ihInner ih =>
    obtain ⟨first, inside, closed, others⟩ := stands
    obtain ⟨inner_settled, settled⟩ := isSettled_element.1 settled
    refine ⟨first.of_tag rfl _, ?_, closed.of_tag rfl _, ih others same settled⟩
    -- the closing tag is the lead of all that the inner content sees
    exact ihInner inside (sameLead_closing closed _) inner_settled

theorem settled (stands : c.StandsBefore x) : c.isSettled x = true := by
  induction c generalizing x with
  | nil => rfl
  | leaf piece rest ih =>
    obtain ⟨first, others⟩ := stands
    refine isSettled_leaf.2 ⟨?_, ih others⟩
    rintro rfl
    exact first.settled
  | empty tag rest ih => exact ih stands.2
  | element opening inner closing rest ihInner ih =>
    obtain ⟨-, inside, -, others⟩ := stands
    exact isSettled_element.2 ⟨ihInner inside, ih others⟩

end StandsBefore

/-- What stands further behind can only unsettle a content. -/
theorem isSettled_of_append {c : Content} {x : List Char} (y : List Char)
    (settled : c.isSettled (x ++ y) = true) : c.isSettled x = true := by
  induction c generalizing x with
  | nil => rfl
  | leaf piece rest ih =>
    obtain ⟨free, settled⟩ := isSettled_leaf.1 settled
    refine isSettled_leaf.2 ⟨?_, ih settled⟩
    intro empty
    have unmarked := free empty
    rw [onto_append] at unmarked
    cases ends : endsSection (rest.onto x) with
    | false => rfl
    | true => rwa [endsSection_append ends y] at unmarked
  | empty tag rest ih => exact ih settled
  | element opening inner closing rest ihInner ih =>
    rw [isSettled_element, onto_append, ← List.append_assoc] at settled
    exact isSettled_element.2 ⟨ihInner settled.1, ih settled.2⟩

/-! ## One text, one content -/

/-- The first token of a content with its closing tag, and what follows that token, `tail` being
what follows the closing tag. -/
def firstToken (closing : Tag) (tail : List Char) : Content → Token × List Char
  | .nil => (.closing closing, tail)
  | .leaf piece rest => (.leaf piece, rest.onto (closing.text ++ tail))
  | .empty tag rest => (.empty tag, rest.onto (closing.text ++ tail))
  | .element opening inner innerClosing rest =>
    (.opening opening, inner.onto (innerClosing.text ++ rest.onto (closing.text ++ tail)))

theorem firstToken_text (c : Content) (closing : Tag) (tail : List Char) :
    (c.firstToken closing tail).1.text ++ (c.firstToken closing tail).2 =
      c.onto (closing.text ++ tail) := by
  cases c <;> rfl

theorem firstToken_stands {c : Content} {closing : Tag} {v x : List Char}
    (stands : c.StandsBefore (closing.text ++ (v ++ x)))
    (closed : (Token.closing closing).StandsBefore (v ++ x)) :
    (c.firstToken closing v).1.StandsBefore ((c.firstToken closing v).2 ++ x) := by
  rw [← List.append_assoc] at stands
  cases c with
  | nil => exact closed
  | leaf piece rest =>
    simp only [firstToken, ← onto_append]
    exact stands.1
  | empty tag rest =>
    simp only [firstToken, ← onto_append]
    exact stands.1
  | element opening inner innerClosing rest =>
    simp only [firstToken, ← onto_append, List.append_assoc]
    simpa only [List.append_assoc] using stands.1

theorem firstToken_lead {c : Content} {closing : Tag} {v x : List Char}
    (closed : (Token.closing closing).StandsBefore x) :
    (c.firstToken closing v).1.isTag = true ∨ '<' ∈ (c.firstToken closing v).2 := by
  obtain ⟨rest, begins⟩ := closed.begins_of_closing
  cases c with
  | leaf piece rest =>
    refine .inr ?_
    rw [firstToken, onto_eq]
    simp [begins]
  | _ => exact .inl rfl

theorem firstToken_unique {c c' : Content} {closing closing' : Tag} {v u x y : List Char}
    (here : c.StandsBefore (closing.text ++ (v ++ x)))
    (closed : (Token.closing closing).StandsBefore (v ++ x))
    (there : c'.StandsBefore (closing'.text ++ (u ++ y)))
    (closed' : (Token.closing closing').StandsBefore (u ++ y))
    (same : c.onto (closing.text ++ v) = c'.onto (closing'.text ++ u)) :
    c.firstToken closing v = c'.firstToken closing' u := by
  -- Both texts begin with a token that stands there, so with the same one.
  rw [← firstToken_text, ← firstToken_text] at same
  obtain ⟨token_eq, behind_eq⟩ :=
    (firstToken_stands here closed).unique (firstToken_stands there closed')
      (firstToken_lead closed) (firstToken_lead closed') same
  exact Prod.ext token_eq behind_eq

/-- A content and its closing tag are determined by their text, wherever they are read. -/
theorem StandsBefore.unique {c c' : Content} {closing closing' : Tag} {v u x y : List Char}
    (here : c.StandsBefore (closing.text ++ (v ++ x)))
    (closed : (Token.closing closing).StandsBefore (v ++ x))
    (there : c'.StandsBefore (closing'.text ++ (u ++ y)))
    (closed' : (Token.closing closing').StandsBefore (u ++ y))
    (same : c.onto (closing.text ++ v) = c'.onto (closing'.text ++ u)) :
    c = c' ∧ closing = closing' ∧ v = u := by
  induction c generalizing c' closing closing' v u with
  | nil =>
    have first := firstToken_unique here closed there closed' same
    cases c' with
    | nil =>
      simp only [firstToken, Prod.mk.injEq, Token.closing.injEq] at first
      exact ⟨rfl, first⟩
    | _ => simp [firstToken] at first
  | leaf piece rest ih =>
    have first := firstToken_unique here closed there closed' same
    cases c' with
    | leaf piece' rest' =>
      simp only [firstToken, Prod.mk.injEq, Token.leaf.injEq] at first
      obtain ⟨rfl, behind⟩ := first
      obtain ⟨rfl, others⟩ := ih here.2 closed there.2 closed' behind
      exact ⟨rfl, others⟩
    | _ => simp [firstToken] at first
  | empty tag rest ih =>
    have first := firstToken_unique here closed there closed' same
    cases c' with
    | empty tag' rest' =>
      simp only [firstToken, Prod.mk.injEq, Token.empty.injEq] at first
      obtain ⟨rfl, behind⟩ := first
      obtain ⟨rfl, others⟩ := ih here.2 closed there.2 closed' behind
      exact ⟨rfl, others⟩
    | _ => simp [firstToken] at first
  | element opening inner innerClosing rest ihInner ih =>
    have first := firstToken_unique here closed there closed' same
    cases c' with
    | element opening' inner' innerClosing' rest' =>
      simp only [firstToken, Prod.mk.injEq, Token.opening.injEq] at first
      obtain ⟨rfl, behind⟩ := first
      obtain ⟨-, inside, inner_closed, others⟩ := here
      obtain ⟨-, inside', inner_closed', others'⟩ := there
      -- the inner contents by their closing tags, then what follows those
      rw [← List.append_assoc, onto_append] at inside inner_closed inside' inner_closed'
      obtain ⟨rfl, rfl, behind'⟩ := ihInner inside inner_closed inside' inner_closed' behind
      obtain ⟨rfl, closings⟩ := ih others closed others' closed' behind'
      exact ⟨rfl, closings⟩
    | _ => simp [firstToken] at first

end Content

/-! ## Elements -/

namespace Element

/-- The closing tag; nothing when the element is a single tag. -/
def ending : Element → List Char
  | .empty _ => []
  | .paired _ _ closing => closing.text

/-- The element is what is found at the front of its own text, when `next` is behind it. -/
def StandsBefore (e : Element) (next : List Char) : Prop :=
  e.alone.StandsBefore next

/-- No mark follows an empty section of the element, `next` being behind it. -/
def isSettled (e : Element) (next : List Char) : Bool :=
  e.alone.isSettled next

theorem source_eq (e : Element) : e.source = e.tag.text ++ e.content.onto e.ending := by
  cases e with
  | empty tag => exact (List.append_nil tag.text).symm
  | paired opening inner closing => rfl

theorem standsBefore_empty {tag : Tag} {next : List Char} :
    (Element.empty tag).StandsBefore next ↔ (Token.empty tag).StandsBefore next :=
  and_iff_left trivial

theorem standsBefore_paired {opening closing : Tag} {inner : Content} {next : List Char} :
    (Element.paired opening inner closing).StandsBefore next ↔
      (Token.opening opening).StandsBefore (inner.onto (closing.text ++ next)) ∧
      inner.StandsBefore (closing.text ++ next) ∧ (Token.closing closing).StandsBefore next := by
  show _ ∧ _ ∧ _ ∧ True ↔ _
  rw [and_true]
  rfl

@[simp] theorem isSettled_paired (opening closing : Tag) (inner : Content) (next : List Char) :
    (Element.paired opening inner closing).isSettled next =
      inner.isSettled (closing.text ++ next) :=
  Bool.and_true _

theorem scan_of_opening {s next : List Char} {tag : Tag}
    (front : Token.scan s = some (.opening tag, next)) :
    Element.scan s = (Content.find next).map fun (inner, closing, left) =>
      (.paired tag inner closing, left) := by
  rw [Element.scan, front, Content.find, Option.map_map]
  rfl

theorem scan_sound {s rest : List Char} {e : Element} (read : Element.scan s = some (e, rest)) :
    s = e.source ++ rest ∧ e.StandsBefore rest := by
  cases front : Token.scan s with
  | none => simp [Element.scan, front] at read
  | some found =>
    obtain ⟨token, next⟩ := found
    have text := Token.scan_text front
    have first := Content.stands_of_scan front
    cases token with
    | empty tag =>
      simp only [Element.scan, front, Option.some.injEq, Prod.mk.injEq] at read
      obtain ⟨rfl, rfl⟩ := read
      exact ⟨text.symm, standsBefore_empty.2 first⟩
    | opening tag =>
      rw [scan_of_opening front] at read
      obtain ⟨⟨inner, closing, left⟩, found, same⟩ := Option.map_eq_some_iff.1 read
      simp only [Prod.mk.injEq] at same
      obtain ⟨rfl, rfl⟩ := same
      obtain ⟨rfl, stands, closed⟩ := Content.find_sound found
      refine ⟨?_, standsBefore_paired.2 ⟨first, stands, closed⟩⟩
      rw [← text, source, List.append_assoc, ← Content.onto_append]
      rfl
    | _ => simp [Element.scan, front] at read

theorem scan_complete {rest : List Char} {e : Element} (stands : e.StandsBefore rest) :
    Element.scan (e.source ++ rest) = some (e, rest) := by
  cases e with
  | empty tag =>
    have front : Token.scan (tag.text ++ rest) = some (.empty tag, rest) :=
      standsBefore_empty.1 stands
    rw [source, Element.scan, front]
  | paired opening inner closing =>
    obtain ⟨first, inside, closed⟩ := standsBefore_paired.1 stands
    have front : Token.scan (opening.text ++ inner.onto (closing.text ++ rest)) =
        some (.opening opening, inner.onto (closing.text ++ rest)) := first
    rw [source, List.append_assoc, ← Content.onto_append, scan_of_opening front,
      Content.find_complete inside closed, Option.map_some]

namespace StandsBefore

variable {e : Element} {x : List Char}

theorem tag_begins (stands : e.StandsBefore x) : BeginsTag e.tag.text := by
  cases e with
  | empty tag => exact (standsBefore_empty.1 stands).begins_of_empty
  | paired opening inner closing => exact (standsBefore_paired.1 stands).1.begins_of_opening

theorem begins (stands : e.StandsBefore x) : BeginsTag e.source := by
  rw [source_eq]
  exact stands.tag_begins.append _

/-- An element that is not a single tag ends with a tag of its own. -/
theorem ending_ends {opening closing : Tag} {inner : Content}
    (stands : (Element.paired opening inner closing).StandsBefore x) : ['>'] <:+ closing.text :=
  (standsBefore_paired.1 stands).2.2.ends_of_tag rfl

theorem ends (stands : e.StandsBefore x) : ['>'] <:+ e.source := by
  cases e with
  | empty tag => exact (standsBefore_empty.1 stands).ends_of_tag rfl
  | paired opening inner closing =>
    rw [source, Content.onto_eq, ← List.append_assoc]
    exact stands.ending_ends.trans (List.suffix_append _ _)

/-- An element ends with a tag, so only the empty sections in it look at the text behind it. -/
theorem elsewhere {y : List Char} (stands : e.StandsBefore x) (settled : e.isSettled y = true) :
    e.StandsBefore y := by
  cases e with
  | empty tag => exact standsBefore_empty.2 ((standsBefore_empty.1 stands).of_tag rfl y)
  | paired opening inner closing =>
    obtain ⟨first, inside, closed⟩ := standsBefore_paired.1 stands
    rw [isSettled_paired] at settled
    refine standsBefore_paired.2 ⟨first.of_tag rfl _, ?_, closed.of_tag rfl y⟩
    exact inside.elsewhere (Content.sameLead_closing closed _) settled

theorem settled (stands : e.StandsBefore x) : e.isSettled x = true :=
  Content.StandsBefore.settled stands

/-- An element that is read somewhere is also read where nothing follows. -/
theorem alone (stands : e.StandsBefore x) : e.StandsBefore [] :=
  stands.elsewhere (Content.isSettled_of_append x stands.settled)

theorem unique_of_paired {opening closing : Tag} {inner : Content} {e' : Element} {y : List Char}
    (here : (Element.paired opening inner closing).StandsBefore x) (there : e'.StandsBefore y)
    (same : (Element.paired opening inner closing).source = e'.source) :
    Element.paired opening inner closing = e' := by
  obtain ⟨first, inside, closed⟩ := standsBefore_paired.1 here
  have front := first
  rw [Content.onto_append] at front
  cases e' with
  | empty tag =>
    have other := standsBefore_empty.1 there
    have tokens := front.unique (u := []) other (.inl rfl) (.inl rfl)
      (same.trans (List.append_nil tag.text).symm)
    simp at tokens
  | paired opening' inner' closing' =>
    obtain ⟨first', inside', closed'⟩ := standsBefore_paired.1 there
    have front' := first'
    rw [Content.onto_append] at front'
    obtain ⟨tokens, behind⟩ := front.unique front' (.inl rfl) (.inl rfl) same
    have contents := Content.StandsBefore.unique (v := []) (u := []) inside closed inside' closed'
      (by simpa only [List.append_nil] using behind)
    rw [Token.opening.inj tokens, contents.1, contents.2.1]

/-- An element is determined by its text, wherever it is read. -/
theorem unique {e' : Element} {y : List Char} (here : e.StandsBefore x)
    (there : e'.StandsBefore y) (same : e.source = e'.source) : e = e' := by
  cases e with
  | paired opening inner closing => exact unique_of_paired here there same
  | empty tag =>
    cases e' with
    | paired opening inner closing => exact (unique_of_paired there here same.symm).symm
    | empty tag' =>
      have tokens := (standsBefore_empty.1 here).unique (v := []) (u := [])
        (standsBefore_empty.1 there) (.inl rfl) (.inl rfl) (congrArg (· ++ []) same)
      rw [Token.empty.inj tokens.1]

/-- An element that stands before any text begins no other one: the text of the other one would be
read as this one and something behind it. -/
theorem eq_of_prefix {e' : Element} {y : List Char} (here : e.StandsBefore x)
    (settled : ∀ next, e.isSettled next = true) (there : e'.StandsBefore y)
    (begins : e.source <+: e'.source) : e = e' := by
  obtain ⟨tail, same⟩ := begins
  have first := scan_complete (here.elsewhere (settled (tail ++ y)))
  rw [← List.append_assoc, same, scan_complete there, Option.some.injEq, Prod.mk.injEq] at first
  exact first.1.symm

end StandsBefore

end Element

end ManifestOrder.Xml
