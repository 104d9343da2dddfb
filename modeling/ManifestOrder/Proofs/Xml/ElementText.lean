import ManifestOrder.Proofs.Xml.Markup
import ManifestOrder.Proofs.Xml.Traversal

/-!
# The text of an element and its comments

The text of an element is made by taking out what looks like a comment, up to the nearest arrow
(`withoutComments`). The tree of the document knows the comments as nodes. In an element without
sections and instructions, and without the mark that ends a section, both are the same
(`Placed.text_eq_uncovered`): every comment found in the raw text is a comment node below the
element, whatever its depth, and the other way round.

The content of the element is taken as the list of its tokens (`Content.tokens`). A token is either a
comment, which is gone whatever follows it (`Gone`), or stays as it is (`Kept`).
-/

namespace ManifestOrder.Xml

open Text

/-! ## What is taken out of a text -/

theorem withoutComments_of_comment {s rest : List Char} (read : looseComment? s = some rest) :
    withoutComments s = withoutComments rest := by
  rw [withoutComments]
  split
  · rename_i rest' read'
    rw [read] at read'
    rw [Option.some.inj read']
  · rename_i none
    rw [read] at none
    simp at none

theorem withoutComments_cons {c : Char} {s : List Char} (none : looseComment? (c :: s) = none) :
    withoutComments (c :: s) = c :: withoutComments s := by
  rw [withoutComments]
  split
  · rename_i rest read
    rw [none] at read
    simp at read
  · rfl

@[simp] theorem withoutComments_nil : withoutComments [] = [] := by
  rw [withoutComments]
  rfl

/-- A comment opens with `<!`. -/
theorem looseComment?_of_other {c : Char} {s : List Char}
    (other : c = '<' → s.head? ≠ some '!') : looseComment? (c :: s) = none := by
  have closed : word? "<!--" (c :: s) = none := by
    rw [Option.eq_none_iff_forall_ne_some]
    intro rest mark
    have whole : c :: s = '<' :: '!' :: '-' :: '-' :: rest := word?_eq_some_iff.1 mark
    rw [List.cons.injEq] at whole
    exact other whole.1 (by rw [whole.2, List.head?_cons])
  rw [looseComment?, closed, Option.bind_none]

/-- The first arrow behind the opening of a comment is the end of the comment. -/
theorem afterArrow?_of_afterComment? {s rest : List Char} (read : afterComment? s = some rest) :
    afterArrow? s = some rest := by
  fun_induction afterComment? s with
  | case1 s =>
    obtain rfl : s = '>' :: rest := word?_eq_some_iff.1 read
    rfl
  | case2 c s other ih =>
    rw [afterArrow?]
    · exact ih read
    · intro tail first second
      exact other ('>' :: tail) first second
  | case3 => simp at read

theorem looseComment?_of_comment? {s rest : List Char} (read : comment? s = some rest) :
    looseComment? s = some rest := by
  obtain ⟨body, mark, ending⟩ := Option.bind_eq_some_iff.1 read
  rw [looseComment?, mark, Option.bind_some, afterArrow?_of_afterComment? ending]

/-- The text stays, whatever follows it. -/
def Kept (w : List Char) : Prop :=
  ∀ y, withoutComments (w ++ y) = w ++ withoutComments y

/-- The text is taken out, whatever follows it. -/
def Gone (w : List Char) : Prop :=
  ∀ y, withoutComments (w ++ y) = withoutComments y

theorem kept_of_unmarked {w : List Char} (free : '<' ∉ w) : Kept w := by
  intro y
  induction w with
  | nil => rfl
  | cons c w ih =>
    rw [List.mem_cons, not_or] at free
    have opens : looseComment? (c :: (w ++ y)) = none :=
      looseComment?_of_other fun markup => absurd markup.symm free.1
    rw [List.cons_append, withoutComments_cons opens, ih free.2, List.cons_append]

theorem kept_of_markup {c : Char} {w : List Char} (other : c ≠ '!') (free : '<' ∉ c :: w) :
    Kept ('<' :: c :: w) := by
  intro y
  have opens : looseComment? ('<' :: (c :: w ++ y)) = none :=
    looseComment?_of_other fun _ => by simpa using other
  rw [List.cons_append, withoutComments_cons opens, kept_of_unmarked free y]
  rfl

theorem gone_of_comment? {w x : List Char} (read : comment? (w ++ x) = some x) : Gone w := by
  intro y
  exact withoutComments_of_comment
    (looseComment?_of_comment? (comment?_sealed.elsewhere (v := []) y read))

/-! ## Tokens of a content -/

namespace Content

/-- The tokens the content was read from, those within its elements included. -/
def tokens : Content → List Token
  | .nil => []
  | .leaf piece rest => .leaf piece :: rest.tokens
  | .empty tag rest => .empty tag :: rest.tokens
  | .element opening inner closing rest =>
    .opening opening :: (inner.tokens ++ .closing closing :: rest.tokens)

theorem source_eq_tokens (c : Content) : c.source = c.tokens.flatMap Token.text := by
  induction c with
  | nil => rfl
  | leaf piece rest ih => rw [source_leaf, tokens, List.flatMap_cons, ih]; rfl
  | empty tag rest ih => rw [source_empty, tokens, List.flatMap_cons, ih]; rfl
  | element opening inner closing rest ihInner ih =>
    rw [source_element, tokens, List.flatMap_cons, List.flatMap_append, List.flatMap_cons, ihInner,
      ih]
    simp only [List.append_assoc]
    rfl

theorem tokens_stand {c : Content} {tail : List Char} (stands : c.StandsBefore tail) :
    ∀ token ∈ c.tokens, ∃ next, token.StandsBefore next := by
  induction c generalizing tail with
  | nil => simp [tokens]
  | leaf piece rest ih => exact List.forall_mem_cons.2 ⟨⟨_, stands.1⟩, ih stands.2⟩
  | empty tag rest ih => exact List.forall_mem_cons.2 ⟨⟨_, stands.1⟩, ih stands.2⟩
  | element opening inner closing rest ihInner ih =>
    obtain ⟨first, inside, closed, others⟩ := stands
    refine List.forall_mem_cons.2 ⟨⟨_, first⟩, List.forall_mem_append.2 ⟨ihInner inside, ?_⟩⟩
    exact List.forall_mem_cons.2 ⟨⟨_, closed⟩, ih others⟩

end Content

def Token.isComment : Token → Bool
  | .leaf piece => piece.kind == .comment
  | _ => false

/-- A comment is gone, and everything else is kept. -/
structure Token.Taken (token : Token) : Prop where
  comment : token.isComment = true → Gone token.text
  other : token.isComment = false → Kept token.text

theorem Token.StandsBefore.taken {token : Token} {next : List Char}
    (stands : token.StandsBefore next) (free : ¬ "]]>".toList <:+: token.text)
    (simple : ∀ piece, token = .leaf piece → piece.kind ≠ .cdata ∧ piece.kind ≠ .instruction) :
    token.Taken := by
  have tag (isTag : token.isTag = true) : Kept token.text := by
    obtain ⟨c, front, text, other, free⟩ := stands.tag_markup isTag
    rw [text]
    exact kept_of_markup other free
  cases token with
  | leaf piece =>
    obtain ⟨cdata, instruction⟩ := simple piece rfl
    refine ⟨fun comment => ?_, fun other => ?_⟩
    · exact gone_of_comment? (stands.leaf_comment (beq_iff_eq.1 comment) free)
    · exact kept_of_unmarked
        (stands.leaf_unmarked (beq_eq_false_iff_ne.1 other) cdata instruction free)
  | opening _ => exact ⟨by simp [isComment], fun _ => tag rfl⟩
  | empty _ => exact ⟨by simp [isComment], fun _ => tag rfl⟩
  | closing _ => exact ⟨by simp [isComment], fun _ => tag rfl⟩

theorem withoutComments_tokens {tokens : List Token} (taken : ∀ token ∈ tokens, token.Taken) :
    withoutComments (tokens.flatMap Token.text) =
      (tokens.filter (!·.isComment)).flatMap Token.text := by
  induction tokens with
  | nil => exact withoutComments_nil
  | cons token tokens ih =>
    obtain ⟨first, others⟩ := List.forall_mem_cons.1 taken
    rw [List.flatMap_cons, List.filter_cons]
    cases comment : token.isComment with
    | true => rw [first.comment comment, ih others]; rfl
    | false => rw [first.other comment, ih others]; rfl

/-! ## Nodes of a list of tokens -/

/-- The leaves among the tokens as nodes, the first token being at `p`. -/
def leafNodesOf (p : Position) : List Token → List Node
  | [] => []
  | .leaf piece :: rest =>
    ⟨.leaf piece.kind, p, piece.text, none⟩ :: leafNodesOf (p.after piece.text) rest
  | token :: rest => leafNodesOf (p.after token.text) rest

theorem leafNodesOf_append (p : Position) (first second : List Token) :
    leafNodesOf p (first ++ second) =
      leafNodesOf p first ++ leafNodesOf (p.after (first.flatMap Token.text)) second := by
  induction first generalizing p with
  | nil => rfl
  | cons token first ih =>
    rw [List.flatMap_cons, Position.after_append]
    cases token <;> simp only [List.cons_append, leafNodesOf, ih, Token.text]

theorem mem_leafNodesOf {tokens : List Token} {piece : Leaf} (member : .leaf piece ∈ tokens)
    (p : Position) : ∃ n ∈ leafNodesOf p tokens, n.kind = .leaf piece.kind := by
  obtain ⟨before, after, rfl⟩ := List.append_of_mem member
  rw [leafNodesOf_append]
  exact ⟨_, List.mem_append_right _ List.mem_cons_self, rfl⟩

theorem leafNodesOf_start (p : Position) (tokens : List Token) :
    ∀ n ∈ leafNodesOf p tokens, p.offset ≤ n.start.offset := by
  induction tokens generalizing p with
  | nil => simp [leafNodesOf]
  | cons token tokens ih =>
    have behind : ∀ n ∈ leafNodesOf (p.after token.text) tokens, p.offset ≤ n.start.offset :=
      fun n member => Nat.le_trans (Nat.le_add_right _ _) (ih _ n member)
    cases token with
    | leaf piece => exact List.forall_mem_cons.2 ⟨Nat.le_refl _, behind⟩
    | _ => exact behind

def NodeKind.isLeaf : NodeKind → Bool
  | .leaf _ => true
  | _ => false

theorem Content.leafNodes_eq (c : Content) (p : Position) :
    (c.nodes p).filter (·.kind.isLeaf) = leafNodesOf p c.tokens := by
  induction c generalizing p with
  | nil => rfl
  | leaf piece rest ih => exact congrArg _ (ih _)
  | empty tag rest ih => exact ih _
  | element opening inner closing rest ihInner ih =>
    have split := nodes_followedBy (.paired opening inner closing) rest p
    rw [Element.followedBy] at split
    have frame : ∀ n : Node, n.kind.isFrame = true → n.kind.isLeaf = false := by
      intro n isFrame
      cases kind : n.kind <;> simp_all [NodeKind.isFrame, NodeKind.isLeaf]
    have source : (Element.paired opening inner closing).source =
        opening.text ++ (inner.tokens.flatMap Token.text ++ closing.text) := by
      rw [Element.source, onto_eq, source_eq_tokens]
    rw [split, List.filter_append, filter_alone frame, ihInner, ih, tokens, leafNodesOf,
      leafNodesOf_append, leafNodesOf, source, Position.after_append, Position.after_append]
    · rfl
    all_goals simp

/-! ## What the nodes cover -/

def Node.covers (n : Node) (offset : Nat) : Bool :=
  decide (n.start.offset ≤ offset) && decide (offset < n.stop.offset)

/-- The characters of a text that none of the nodes covers, the first character being at the offset
`first`. -/
def uncovered (nodes : List Node) (first : Nat) (text : List Char) : List Char :=
  ((text.zipIdx first).filter fun entry => !nodes.any (·.covers entry.2)).map Prod.fst

section
variable {nodes : List Node} {first : Nat}

theorem uncovered_append (front back : List Char) :
    uncovered nodes first (front ++ back) =
      uncovered nodes first front ++ uncovered nodes (first + front.length) back := by
  rw [uncovered, List.zipIdx_append, List.filter_append, List.map_append]
  rfl

theorem uncovered_eq_self {text : List Char}
    (behind : ∀ n ∈ nodes, first + text.length ≤ n.start.offset) :
    uncovered nodes first text = text := by
  rw [uncovered, List.filter_eq_self.2, List.zipIdx_map_fst]
  intro entry member
  have := List.snd_lt_add_of_mem_zipIdx member
  simp only [Bool.not_eq_true', List.any_eq_false, Node.covers, Bool.and_eq_true,
    decide_eq_true_eq, not_and]
  intro n inside _
  have := behind n inside
  omega

theorem uncovered_eq_nil {text : List Char} {n : Node} (member : n ∈ nodes)
    (start : n.start.offset ≤ first) (stop : first + text.length ≤ n.stop.offset) :
    uncovered nodes first text = [] := by
  rw [uncovered, List.filter_eq_nil_iff.2, List.map_nil]
  intro entry inside
  have := List.snd_lt_add_of_mem_zipIdx inside
  have := List.le_snd_of_mem_zipIdx inside
  have covered : n.covers entry.2 = true := by
    simp only [Node.covers, Bool.and_eq_true, decide_eq_true_eq]
    omega
  simp only [Bool.not_eq_true', Bool.not_eq_false, List.any_eq_true]
  exact ⟨n, member, covered⟩

/-- A node in front of the text covers nothing of it. -/
theorem uncovered_cons {text : List Char} {n : Node} (before : n.stop.offset ≤ first) :
    uncovered (n :: nodes) first text = uncovered nodes first text := by
  rw [uncovered, uncovered, List.filter_congr]
  intro entry inside
  have := List.le_snd_of_mem_zipIdx inside
  have outside : n.covers entry.2 = false := by
    simp only [Node.covers, Bool.and_eq_false_iff, decide_eq_false_iff_not]
    omega
  rw [List.any_cons, outside, Bool.false_or]

end

/-- The comments among the tokens cover their own texts, and nothing else. -/
theorem uncovered_tokens (p : Position) (tokens : List Token) :
    uncovered ((leafNodesOf p tokens).filter (·.kind == .leaf .comment)) p.offset
        (tokens.flatMap Token.text) =
      (tokens.filter (!·.isComment)).flatMap Token.text := by
  induction tokens generalizing p with
  | nil => rfl
  | cons token tokens ih =>
    rw [List.flatMap_cons, uncovered_append, List.filter_cons]
    cases comment : token.isComment with
    | true =>
      obtain ⟨piece, rfl, kind⟩ : ∃ piece, token = .leaf piece ∧ piece.kind = .comment := by
        cases token <;> simp_all [Token.isComment]
      let n : Node := ⟨.leaf piece.kind, p, piece.text, none⟩
      have nodes : (leafNodesOf p (.leaf piece :: tokens)).filter (·.kind == .leaf .comment) =
          n :: (leafNodesOf (p.after piece.text) tokens).filter (·.kind == .leaf .comment) :=
        List.filter_cons_of_pos (by simp [kind])
      have stop : n.stop.offset = p.offset + piece.text.length := rfl
      rw [nodes, Token.text, uncovered_eq_nil List.mem_cons_self (Nat.le_refl _)
        (Nat.le_of_eq stop.symm), uncovered_cons (Nat.le_of_eq stop)]
      exact ih _
    | false =>
      have nodes : (leafNodesOf p (token :: tokens)).filter (·.kind == .leaf .comment) =
          (leafNodesOf (p.after token.text) tokens).filter (·.kind == .leaf .comment) := by
        cases token with
        | leaf piece => exact List.filter_cons_of_neg (by simpa [Token.isComment] using comment)
        | _ => rfl
      have later : ∀ n ∈ (leafNodesOf (p.after token.text) tokens).filter
          (·.kind == .leaf .comment), p.offset + token.text.length ≤ n.start.offset :=
        fun n member => leafNodesOf_start _ _ n (List.mem_filter.1 member).1
      rw [nodes, uncovered_eq_self later]
      exact congrArg _ (ih _)

/-! ## Nodes below an element -/

namespace Placed

/-- The element and all nodes below it, listed as those of a document are. -/
def nodes (e : Placed) : List Node :=
  e.element.alone.nodes e.start

def nodesOf (e : Placed) (kind : NodeKind) : List Node :=
  e.nodes.filter (·.kind == kind)

/-- The part of a text that stands between the tags of the element. -/
def between (e : Placed) (text : List Char) : List Char :=
  (text.take (e.stop.offset - e.element.ending.length)).drop
    (e.start.offset + e.element.tag.text.length)

end Placed

theorem Content.child_nodes (c : Content) (p : Position) :
    ∀ child ∈ c.children p, child.nodes <:+: c.nodes p := by
  induction c using piecewise generalizing p with
  | nil => simp [children]
  | leaf piece rest ih =>
    intro child member
    exact (ih _ child member).trans (List.suffix_cons _ _).isInfix
  | element e rest ih =>
    rw [children_followedBy, List.forall_mem_cons, nodes_followedBy]
    refine ⟨(List.prefix_append _ _).isInfix, ?_⟩
    intro child member
    exact (ih _ child member).trans (List.suffix_append _ _).isInfix

namespace Placed

variable {e child x : Placed}

theorem child_nodes (member : child ∈ e.children) : child.nodes <:+: e.nodes := by
  obtain ⟨opening, inner, closing, shape, inside⟩ := paired_of_child member
  rw [nodes, nodes, shape]
  exact (Content.child_nodes inner _ child inside).trans
    (inner_nodes_inside opening closing inner e.start)

/-- The nodes below an element stand together in the listing of an element around it. -/
theorem nodes_inside (member : x ∈ e.subtrees) : x.nodes <:+: e.nodes :=
  handed_on (P := fun z => z.nodes <:+: e.nodes)
    (fun inside outer => (child_nodes inside).trans outer) (List.infix_refl _) member

theorem LiesIn.between_eq {text : List Char} (lies : e.LiesIn {} text) :
    e.between text = e.element.content.source := by
  obtain ⟨before, after, rfl, start⟩ := lies
  have first : e.start.offset + e.element.tag.text.length =
      (before ++ e.element.tag.text).length := by
    simp [start, Position.after]
  have last : e.stop.offset - e.element.ending.length =
      (before ++ e.element.tag.text ++ e.element.content.source).length := by
    simp only [stop, Position.after, start, source, Element.source_eq, Content.onto_eq,
      List.length_append]
    omega
  have whole : before ++ (e.source ++ after) = before ++ e.element.tag.text ++
      e.element.content.source ++ (e.element.ending ++ after) := by
    rw [source, Element.source_eq, Content.onto_eq]
    simp only [List.append_assoc]
  rw [between, first, last, whole, List.take_left, List.drop_left]

theorem lies_of_subtrees {p : Position} {text : List Char} (lies : e.LiesIn p text)
    (member : x ∈ e.subtrees) : x.LiesIn p text :=
  handed_on (P := fun z => z.LiesIn p text) (fun inside outer => child_lies outer inside) lies member

end Placed

theorem Content.infix_of_token {c : Content} {token : Token} (member : token ∈ c.tokens) :
    token.text <:+: c.source := by
  rw [source_eq_tokens, List.flatMap_def]
  exact List.infix_of_mem_flatten (List.mem_map_of_mem member)

theorem Content.comments_eq (c : Content) (p : Position) :
    (c.nodes p).filter (·.kind == .leaf .comment) =
      (leafNodesOf p c.tokens).filter (·.kind == .leaf .comment) := by
  rw [← leafNodes_eq, List.filter_filter]
  refine List.filter_congr fun n _ => ?_
  cases n.kind <;> simp [NodeKind.isLeaf]

/-- Every token of a content without sections, instructions and the mark is kept, or is a comment
and gone. -/
theorem Content.tokens_taken {c : Content} {tail : List Char} (stands : c.StandsBefore tail)
    (p : Position) (simple : ∀ n ∈ c.nodes p, n.kind ≠ .leaf .cdata ∧ n.kind ≠ .leaf .instruction)
    (free : ¬ "]]>".toList <:+: c.source) : ∀ token ∈ c.tokens, token.Taken := by
  intro token member
  obtain ⟨next, token_stands⟩ := tokens_stand stands token member
  refine token_stands.taken (fun marked => free (marked.trans (infix_of_token member))) ?_
  rintro piece rfl
  obtain ⟨n, n_mem, kind⟩ := mem_leafNodesOf member p
  rw [← leafNodes_eq] at n_mem
  simpa [kind] using simple n (List.mem_filter.1 n_mem).1

/-- The text of an element, whatever its shape. -/
theorem Element.text_eq (e : Element) :
    e.text = Text.trim (withoutComments e.content.source) := by
  cases e with
  | empty tag =>
    rw [content, Content.source_nil, withoutComments_nil]
    rfl
  | paired opening inner closing => rfl

/-- The comments below an element cover what is taken out of its content. -/
theorem Placed.Stands.withoutComments_content {e : Placed} (stands : e.Stands)
    (simple : ∀ n ∈ e.nodes, n.kind ≠ .leaf .cdata ∧ n.kind ≠ .leaf .instruction)
    (free : ¬ "]]>".toList <:+: e.element.content.source) :
    withoutComments e.element.content.source = uncovered (e.nodesOf (.leaf .comment))
      (e.start.offset + e.element.tag.text.length) e.element.content.source := by
  obtain ⟨element, start⟩ := e
  cases element with
  | empty tag => exact withoutComments_nil
  | paired opening inner closing =>
    have inside := (Element.standsBefore_paired.1 stands).2.1
    have taken := Content.tokens_taken inside (start.after opening.text)
      (fun n member => simple n ((inner_nodes_inside opening closing inner start).subset member)) free
    have frame : ∀ n : Node, n.kind.isFrame = true → (n.kind == .leaf .comment) = false := by
      intro n isFrame
      cases kind : n.kind <;> simp_all [NodeKind.isFrame]
    have comments : ((Element.paired opening inner closing).alone.nodes start).filter
        (·.kind == .leaf .comment) =
        (leafNodesOf (start.after opening.text) inner.tokens).filter (·.kind == .leaf .comment) := by
      rw [filter_alone frame, Content.comments_eq]
      rfl
    have covered := uncovered_tokens (start.after opening.text) inner.tokens
    rw [← withoutComments_tokens taken, ← comments, ← inner.source_eq_tokens] at covered
    exact covered.symm

/-- In an element without sections and instructions, and without the mark that ends a section, the
text is what stands between the tags, less the comment nodes below the element, and less the blanks
around. -/
theorem Placed.text_eq_uncovered {text : List Char} {d : Document}
    (read : Document.ofText? text = some d) {e : Placed} (member : e ∈ d.rootElement.subtrees)
    (simple : ∀ n ∈ e.nodes, n.kind ≠ .leaf .cdata ∧ n.kind ≠ .leaf .instruction)
    (free : ¬ "]]>".toList <:+: e.between text) :
    e.nodes <:+: d.nodes ∧
      e.element.text = Text.trim (uncovered (e.nodesOf (.leaf .comment))
        (e.start.offset + e.element.tag.text.length) (e.between text)) := by
  obtain ⟨rfl, stands⟩ := Document.ofText?_sound read
  have lies := lies_of_subtrees d.rootElement_lies member
  rw [lies.between_eq] at free ⊢
  constructor
  · exact (nodes_inside member).trans ((List.suffix_append _ _).isInfix.trans
      (List.prefix_append _ _).isInfix)
  · rw [Element.text_eq,
      (stands.rootElement.subtrees member).withoutComments_content simple free]

/-- Comments on two levels, the shortest one among them, and arrows that end no comment. -/
def commented : List Char :=
  "<a> <!-- é -->x<b y='-->'><!----><c/><!-->-->&amp;</b> --> </a>".toList

theorem text_eq_uncovered_commented : ∃ d, Document.ofText? commented = some d ∧
    (∀ n ∈ d.rootElement.nodes, n.kind ≠ .leaf .cdata ∧ n.kind ≠ .leaf .instruction) ∧
    ¬ "]]>".toList <:+: d.rootElement.between commented ∧
    (d.rootElement.nodesOf (.leaf .comment)).map (fun n => (n.start.offset, n.stop.offset)) =
      [(4, 14), (26, 33), (37, 45)] ∧
    d.rootElement.element.text = "x<b y='-->'><c/>&amp;</b> -->".toList ∧
    d.rootElement.element.text = Text.trim (uncovered (d.rootElement.nodesOf (.leaf .comment))
      (d.rootElement.start.offset + d.rootElement.element.tag.text.length)
      (d.rootElement.between commented)) := by
  have found : (Document.ofText? commented).map (fun d =>
      (decide (∀ n ∈ d.rootElement.nodes,
          n.kind ≠ .leaf .cdata ∧ n.kind ≠ .leaf .instruction),
        decide ("]]>".toList <:+: d.rootElement.between commented),
        (d.rootElement.nodesOf (.leaf .comment)).map fun n => (n.start.offset, n.stop.offset),
        d.rootElement.element.text)) =
      some (true, false, [(4, 14), (26, 33), (37, 45)],
        "x<b y='-->'><c/>&amp;</b> -->".toList) := by
    decide +kernel
  obtain ⟨d, read, answers⟩ := Option.map_eq_some_iff.1 found
  simp only [Prod.mk.injEq, decide_eq_true_eq, decide_eq_false_iff_not] at answers
  obtain ⟨simple, free, comments, text⟩ := answers
  exact ⟨d, read, simple, free, comments, text,
    (Placed.text_eq_uncovered read d.rootElement.self_mem_subtrees simple free).2⟩

end ManifestOrder.Xml
