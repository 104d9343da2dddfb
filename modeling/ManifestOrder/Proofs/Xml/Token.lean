import ManifestOrder.Proofs.Xml.Instruction
import ManifestOrder.Xml.Token

/-!
# Tokens and the text behind them

A token *stands before* a text when it is what the scanner finds at the front of the two put
together. A tag stands before any text (`Token.StandsBefore.of_tag`). A leaf that stands before one
text stands before every other that has the same characters up to the next `<`
(`Token.StandsBefore.elsewhere`), with one exception. A section without content, `<![CDATA[]]>`, is
a token only where the mark `]]>` does not occur behind it; elsewhere it swallows all up to that
mark.

Text that is read as tokens of its own in two places is read as the same tokens
(`Token.StandsBefore.unique`).
-/

namespace ManifestOrder.Xml

open Text

/-- The token is what is found at the front of its own text, when `next` is behind it. -/
def Token.StandsBefore (token : Token) (next : List Char) : Prop :=
  Token.scan (token.text ++ next) = some (token, next)

def Token.isTag : Token → Bool
  | .leaf _ => false
  | _ => true

/-- Two texts with the same characters up to a `<`, the first of each or a later one. -/
def SameLead (x y : List Char) : Prop :=
  ∃ lead x' y', x = lead ++ '<' :: x' ∧ y = lead ++ '<' :: y'

/-- A section that opens and closes at once. -/
def emptySection : Leaf :=
  ⟨.cdata, "<![CDATA[]]>".toList⟩

/-- The mark that ends a section occurs in the text behind the opening of one. -/
def endsSection (s : List Char) : Bool :=
  (scanCdata ⟨true, .none⟩ s).isSome

/-! ## Leads -/

namespace SameLead

theorem refl_of_mem {x : List Char} (markup : '<' ∈ x) : SameLead x x := by
  obtain ⟨lead, rest, rfl⟩ := List.append_of_mem markup
  exact ⟨lead, rest, rest, rfl, rfl⟩

theorem symm {x y : List Char} (same : SameLead x y) : SameLead y x := by
  obtain ⟨lead, x', y', rfl, rfl⟩ := same
  exact ⟨lead, y', x', rfl, rfl⟩

theorem append {x y : List Char} (front : List Char) (same : SameLead x y) :
    SameLead (front ++ x) (front ++ y) := by
  obtain ⟨lead, x', y', rfl, rfl⟩ := same
  exact ⟨front ++ lead, x', y', by simp, by simp⟩

theorem of_mem {v : List Char} (markup : '<' ∈ v) (x y : List Char) :
    SameLead (v ++ x) (v ++ y) := by
  obtain ⟨lead, rest, rfl⟩ := List.append_of_mem markup
  exact ⟨lead, rest ++ x, rest ++ y, by simp, by simp⟩

theorem lineEnds_eq {x y : List Char} (same : SameLead x y) : lineEnds x = lineEnds y := by
  obtain ⟨lead, x', y', rfl, rfl⟩ := same
  exact lineEnds_append (by decide) x' y'

/-- Texts with the same lead begin with the same character. -/
theorem head {x y : List Char} (same : SameLead x y) :
    ∃ c x' y', x = c :: x' ∧ y = c :: y' := by
  obtain ⟨lead, x', y', rfl, rfl⟩ := same
  cases lead with
  | nil => exact ⟨'<', x', y', rfl, rfl⟩
  | cons c lead => exact ⟨c, lead ++ '<' :: x', lead ++ '<' :: y', rfl, rfl⟩

end SameLead

/-! ## Tags -/

@[simp] theorem readOf_append_left (w x : List Char) : readOf (w ++ x) x = w := by
  simp [readOf]

/-- The text that is read stands in front of what is left. -/
theorem readOf_elsewhere {w v : List Char} (left : v <:+ w) (x y : List Char) :
    readOf (w ++ x) (v ++ x) = readOf (w ++ y) (v ++ y) := by
  obtain ⟨front, rfl⟩ := left
  simp only [List.append_assoc, readOf_append_left]

theorem tagEnd_sealed : Sealed fun s => word? ">" (skipAttributes s) :=
  attributesThen_sealed '>' [] rfl (by decide)

theorem emptyTagEnd_sealed : Sealed fun s => word? "/>" (skipAttributes s) :=
  attributesThen_sealed '/' ['>'] rfl (by decide)

/-- The mark and the name of a tag are the same in front of any text, if something of the tag is
left behind the name. -/
theorem tagFront_elsewhere {mark : String} {w v x inner : List Char} (y : List Char)
    (letters : mark.toList ≠ []) (nonempty : v ≠ []) (marked : word? mark (w ++ x) = some inner)
    (named : tagName? inner = some (v ++ x)) :
    ∃ inner', word? mark (w ++ y) = some inner' ∧ tagName? inner' = some (v ++ y) ∧
      inner'.takeWhile isTagNameChar = inner.takeWhile isTagNameChar := by
  obtain ⟨front, rfl⟩ := (run?_rest named).suffix
  rw [← List.append_assoc] at marked named ⊢
  exact ⟨front ++ v ++ y, (word?_sealed letters).elsewhere y marked,
    tagName?_bounded.elsewhere y nonempty named,
    takeWhile_elsewhere y nonempty (dropWhile_of_run? named)⟩

theorem closingTag?_elsewhere {token : Token} {w x : List Char} (y : List Char)
    (read : closingTag? (w ++ x) = some (token, x)) : closingTag? (w ++ y) = some (token, y) := by
  obtain ⟨inner, mark, read⟩ := Option.bind_eq_some_iff.1 read
  obtain ⟨rest, ending, pair⟩ := Option.map_eq_some_iff.1 read
  simp only [Prod.mk.injEq] at pair
  obtain ⟨rfl, rfl⟩ := pair
  obtain ⟨spaced, name, close⟩ := Option.bind_eq_some_iff.1 ending
  obtain ⟨named, letters, rfl⟩ := Option.map_eq_some_iff.1 name
  have gap : Sealed fun s => word? ">" (skipSpace s) := spacedWord_sealed (by decide)
  obtain ⟨v, nonempty, rfl⟩ := gap.rest close
  have close' := gap.elsewhere (w := v) (v := []) y close
  obtain ⟨inner', mark', letters', name'⟩ := tagFront_elsewhere y (by decide) nonempty mark letters
  unfold closingTag?
  rw [mark', Option.bind_some, letters', Option.map_some, Option.bind_some, close', name']
  simp only [Option.map_some, List.nil_append, readOf_append_left]

/-- The end of an opening tag: what kind of tag it is, and what follows it. -/
theorem openingTag?_elsewhere {token : Token} {w x : List Char} (y : List Char)
    (read : openingTag? (w ++ x) = some (token, x)) : openingTag? (w ++ y) = some (token, y) := by
  obtain ⟨inner, mark, read⟩ := Option.bind_eq_some_iff.1 read
  obtain ⟨ending, name, read⟩ := Option.bind_eq_some_iff.1 read
  obtain ⟨named, letters, rfl⟩ := Option.map_eq_some_iff.1 name
  simp only at read
  split at read
  · rename_i rest close
    simp only [Option.some.injEq, Prod.mk.injEq] at read
    obtain ⟨rfl, rfl⟩ := read
    obtain ⟨v, nonempty, rfl⟩ := tagEnd_sealed.rest close
    have close' := tagEnd_sealed.elsewhere (w := v) (v := []) y close
    obtain ⟨inner', mark', letters', name'⟩ :=
      tagFront_elsewhere y (by decide) nonempty mark letters
    unfold openingTag?
    rw [mark', Option.bind_some, letters', Option.map_some, Option.bind_some, close', name']
    simp only [List.nil_append, readOf_append_left]
  · obtain ⟨rest, close, pair⟩ := Option.map_eq_some_iff.1 read
    simp only [Prod.mk.injEq] at pair
    obtain ⟨rfl, rfl⟩ := pair
    obtain ⟨v, nonempty, rfl⟩ := emptyTagEnd_sealed.rest close
    have close' := emptyTagEnd_sealed.elsewhere (w := v) (v := []) y close
    -- where a slash stands the tag is not seen to end without one
    have open' : word? ">" (skipAttributes (v ++ y)) = none := by
      rw [word?_eq_some_iff.1 close']
      rfl
    obtain ⟨inner', mark', letters', name'⟩ :=
      tagFront_elsewhere y (by decide) nonempty mark letters
    unfold openingTag?
    rw [mark', Option.bind_some, letters', Option.map_some, Option.bind_some, open', close', name']
    simp only [Option.map_some, List.nil_append, readOf_append_left]

/-- A text that begins with an opening tag. -/
def BeginsTag (s : List Char) : Prop :=
  ∃ c rest, s = '<' :: c :: rest ∧ isTagNameChar c = true

theorem BeginsTag.append {s : List Char} (begins : BeginsTag s) (x : List Char) :
    BeginsTag (s ++ x) := by
  obtain ⟨c, rest, rfl, name⟩ := begins
  exact ⟨c, rest ++ x, rfl, name⟩

theorem BeginsTag.mem {s : List Char} (begins : BeginsTag s) : '<' ∈ s := by
  obtain ⟨c, rest, rfl, -⟩ := begins
  exact List.mem_cons_self

theorem openingTag?_begins {s : List Char} {found : Token × List Char}
    (read : openingTag? s = some found) : BeginsTag s := by
  obtain ⟨inner, mark, name⟩ := Option.bind_eq_some_iff.1 read
  obtain ⟨ending, name, -⟩ := Option.bind_eq_some_iff.1 name
  obtain ⟨named, letters, -⟩ := Option.map_eq_some_iff.1 name
  obtain rfl := word?_eq_some_iff.1 mark
  cases inner with
  | nil => simp [tagName?, run?] at letters
  | cons c inner =>
    rw [tagName?, run?] at letters
    split at letters
    · rename_i first
      exact ⟨c, inner, rfl, first⟩
    · simp at letters

/-! ## The front of a text -/

namespace Construct

theorem of_comment (s : List Char) : Construct.of ("<!--".toList ++ s) = .comment := rfl

theorem of_cdata (s : List Char) : Construct.of ("<![CDATA[".toList ++ s) = .cdata := rfl

theorem of_instruction (s : List Char) : Construct.of ("<?".toList ++ s) = .instruction := rfl

theorem of_closing (s : List Char) : Construct.of ("</".toList ++ s) = .closing := rfl

theorem of_opening {c : Char} (name : isTagNameChar c = true) (s : List Char) :
    Construct.of ('<' :: c :: s) = .opening := by
  have bang : c ≠ '!' := by rintro rfl; exact absurd name (by decide)
  have question : c ≠ '?' := by rintro rfl; exact absurd name (by decide)
  have slash : c ≠ '/' := by rintro rfl; exact absurd name (by decide)
  simp [Construct.of, Option.isSome_iff_exists, word?_eq_some_iff, bang, question, slash]

theorem of_reference (s : List Char) : Construct.of ('&' :: s) = .reference := rfl

theorem of_text {c : Char} (plain : isTextChar c = true) (s : List Char) :
    Construct.of (c :: s) = .text := by
  simp only [isTextChar, Bool.and_eq_true, bne_iff_ne] at plain
  simp [Construct.of, Option.isSome_iff_exists, word?_eq_some_iff, plain.1, plain.2]

/-- A reader that looks for a mark first finds what the mark announces. -/
theorem of_read {α : Type} {mark : String} {k : Construct} {s : List Char}
    {reader : List Char → Option α} {found : α}
    (announced : ∀ t, Construct.of (mark.toList ++ t) = k)
    (read : (word? mark s).bind reader = some found) : Construct.of s = k := by
  obtain ⟨body, marked, -⟩ := Option.bind_eq_some_iff.1 read
  rw [word?_eq_some_iff.1 marked, announced]

end Construct

theorem scan_of_comment {s rest : List Char} (read : comment? s = some rest) :
    Token.scan s = some (Token.ofLeaf .comment s rest) := by
  rw [Token.scan, Construct.of_read Construct.of_comment read]
  simp only [read, Option.map_some]

theorem scan_of_cdata {s rest : List Char} (read : cdata? s = some rest) :
    Token.scan s = some (Token.ofLeaf .cdata s rest) := by
  rw [Token.scan, Construct.of_read Construct.of_cdata read]
  simp only [read, Option.map_some]

theorem scan_of_instruction {s rest : List Char} (read : instruction? .content s = some rest) :
    Token.scan s = some (Token.ofLeaf .instruction s rest) := by
  rw [Token.scan, Construct.of_read Construct.of_instruction read]
  simp only [read, Option.map_some]

theorem scan_of_closing {s : List Char} {found : Token × List Char}
    (read : closingTag? s = some found) : Token.scan s = some found := by
  rw [Token.scan, Construct.of_read Construct.of_closing read]
  exact read

theorem scan_of_opening {s : List Char} {found : Token × List Char}
    (read : openingTag? s = some found) : Token.scan s = some found := by
  obtain ⟨c, rest, rfl, name⟩ := openingTag?_begins read
  rw [Token.scan, Construct.of_opening name]
  exact read

theorem scan_of_reference {s rest : List Char} (read : reference? s = some rest) :
    Token.scan s = some (Token.ofLeaf .reference s rest) := by
  have front : Construct.of s = .reference := by
    cases s with
    | nil => simp [reference?] at read
    | cons c s =>
      by_cases ampersand : c = '&'
      · rw [ampersand, Construct.of_reference]
      · simp [reference?, ampersand] at read
  rw [Token.scan, front]
  simp only [read, Option.map_some]

theorem scan_of_textRun {s rest : List Char} {isComment : Bool}
    (read : textRun? s = some (isComment, rest)) :
    Token.scan s =
      some (Token.ofLeaf (if isComment then .comment else .charData) s rest) := by
  have front : Construct.of s = .text := by
    cases s with
    | nil => simp [textRun?] at read
    | cons c s =>
      by_cases plain : isTextChar c = true
      · exact Construct.of_text plain s
      · simp [textRun?, plain] at read
  rw [Token.scan, front]
  simp only [read, Option.map_some]

/-! ## Text runs and empty sections -/

theorem textRun?_elsewhere {w x y : List Char} {isComment : Bool} (same : SameLead x y)
    (read : textRun? (w ++ x) = some (isComment, x)) :
    textRun? (w ++ y) = some (isComment, y) := by
  obtain ⟨c, w, rfl⟩ : ∃ c tail, w = c :: tail := by
    cases w with
    | nil => exact absurd (textRun?_rest read).length_lt (Nat.lt_irrefl _)
    | cons c w => exact ⟨c, w, rfl⟩
  simp only [List.cons_append, textRun?] at read ⊢
  split at read
  · simp at read
  · rename_i plain
    rw [if_neg plain]
    split at read
    · rename_i rest scanned
      simp only [Option.some.injEq, Prod.mk.injEq] at read
      obtain ⟨rfl, rfl⟩ := read
      -- The run ends at the first character behind it, and that is the same in both texts.
      obtain ⟨d, x', y', rfl, rfl⟩ := same.head
      rw [← List.cons_append] at scanned ⊢
      rw [scanText_whole_elsewhere y' scanned]
    · rename_i rest scanned
      obtain ⟨left, closing, pair⟩ := Option.map_eq_some_iff.1 read
      simp only [Prod.mk.injEq] at pair
      obtain ⟨rfl, rfl⟩ := pair
      obtain ⟨v, -, rfl⟩ := comment?_rest closing
      rw [← List.cons_append] at scanned ⊢
      rw [scanText_broken_elsewhere y scanned]
      simp only [comment?_sealed.elsewhere (w := v) (v := []) y closing, Option.map_some,
        List.nil_append]

theorem scanCdata_of_empty (s : List Char) :
    scanCdata {} ("]]>".toList ++ s) = scanCdata ⟨true, .none⟩ s := rfl

theorem endsSection_append {x : List Char} (ends : endsSection x = true) (y : List Char) :
    endsSection (x ++ y) = true := by
  obtain ⟨rest, scanned⟩ := Option.isSome_iff_exists.1 ends
  have moved := (scanCdata_sealed ⟨true, .none⟩).elsewhere (w := x) (v := rest) (x := []) y
    (by simpa using scanned)
  rw [endsSection, moved, Option.isSome_some]

/-- A section that opens and closes at once is read as empty exactly where no mark follows. -/
theorem cdata?_empty_iff (y : List Char) :
    cdata? (emptySection.text ++ y) = some y ↔ endsSection y = false := by
  have opened : word? "<![CDATA[" (emptySection.text ++ y) = some ("]]>".toList ++ y) := rfl
  unfold cdata? endsSection
  rw [opened, Option.bind_some, scanCdata_of_empty]
  cases scanned : scanCdata ⟨true, .none⟩ y with
  | none => simp [word?_eq_some_iff]
  | some rest =>
    simp only [Option.some.injEq, Option.isSome_some, Bool.true_eq_false, iff_false]
    rintro rfl
    exact absurd (scanCdata_rest scanned).length_lt (Nat.lt_irrefl _)

theorem cdata?_elsewhere {w x y : List Char}
    (settled : w = emptySection.text → endsSection y = false)
    (read : cdata? (w ++ x) = some x) : cdata? (w ++ y) = some y := by
  obtain ⟨body, mark, ending⟩ := Option.bind_eq_some_iff.1 read
  split at ending
  · rename_i rest scanned
    obtain rfl := Option.some.inj ending
    obtain ⟨v, -, rfl⟩ := scanCdata_rest scanned
    unfold cdata?
    rw [(word?_sealed (by decide)).elsewhere y mark, Option.bind_some,
      (scanCdata_sealed _).elsewhere (w := v) (v := []) y scanned, List.nil_append]
  · -- No mark has been found: this is the empty section, which asks for a look at what follows.
    have whole := word?_eq_some_iff.1 mark
    rw [word?_eq_some_iff.1 ending, ← List.append_assoc] at whole
    obtain rfl : w = emptySection.text := List.append_cancel_right whole
    exact (cdata?_empty_iff y).2 (settled rfl)

/-! ## Tokens -/

theorem ofLeaf_eq_iff {kind : LeafKind} {w x : List Char} {token : Token} :
    Token.ofLeaf kind (w ++ x) x = (token, x) ↔ token = .leaf ⟨kind, w⟩ := by
  simp [Token.ofLeaf, eq_comm]

theorem Token.scan_elsewhere {token : Token} {w x y : List Char}
    (lead : token.isTag = true ∨ SameLead x y)
    (settled : token = .leaf emptySection → endsSection y = false)
    (read : Token.scan (w ++ x) = some (token, x)) : Token.scan (w ++ y) = some (token, y) := by
  have leaf {kind : LeafKind} (same : token = .leaf ⟨kind, w⟩) : SameLead x y :=
    lead.resolve_left (by simp [same, Token.isTag])
  unfold Token.scan at read
  -- one case for each construct; a tag and a closed piece need nothing of `lead`
  split at read
  · obtain ⟨rest, found, pair⟩ := Option.map_eq_some_iff.1 read
    obtain rfl : rest = x := congrArg Prod.snd pair
    rw [scan_of_comment (comment?_sealed.elsewhere (v := []) y found), List.nil_append,
      ofLeaf_eq_iff.2 (ofLeaf_eq_iff.1 pair)]
  · obtain ⟨rest, found, pair⟩ := Option.map_eq_some_iff.1 read
    obtain rfl : rest = x := congrArg Prod.snd pair
    have same := ofLeaf_eq_iff.1 pair
    have found' := cdata?_elsewhere (fun empty => settled (by rw [same, empty]; rfl)) found
    rw [scan_of_cdata found', ofLeaf_eq_iff.2 same]
  · obtain ⟨rest, found, pair⟩ := Option.map_eq_some_iff.1 read
    obtain rfl : rest = x := congrArg Prod.snd pair
    have same := ofLeaf_eq_iff.1 pair
    have line : lineEnds ([] ++ rest) = true → lineEnds ([] ++ y) = true := fun ends =>
      (leaf same).lineEnds_eq ▸ ends
    rw [scan_of_instruction (instruction?_elsewhere line found), List.nil_append,
      ofLeaf_eq_iff.2 same]
  · exact scan_of_closing (closingTag?_elsewhere y read)
  · exact scan_of_opening (openingTag?_elsewhere y read)
  · obtain ⟨rest, found, pair⟩ := Option.map_eq_some_iff.1 read
    obtain rfl : rest = x := congrArg Prod.snd pair
    rw [scan_of_reference (reference?_sealed.elsewhere (v := []) y found), List.nil_append,
      ofLeaf_eq_iff.2 (ofLeaf_eq_iff.1 pair)]
  · obtain ⟨⟨isComment, rest⟩, found, pair⟩ := Option.map_eq_some_iff.1 read
    obtain rfl : rest = x := congrArg Prod.snd pair
    have same := ofLeaf_eq_iff.1 pair
    rw [scan_of_textRun (textRun?_elsewhere (leaf same) found), ofLeaf_eq_iff.2 same]

theorem closingTag?_token {s rest : List Char} {token : Token}
    (read : closingTag? s = some (token, rest)) : ∃ tag, token = .closing tag := by
  obtain ⟨inner, mark, read⟩ := Option.bind_eq_some_iff.1 read
  obtain ⟨left, ending, pair⟩ := Option.map_eq_some_iff.1 read
  exact ⟨_, (congrArg Prod.fst pair).symm⟩

theorem openingTag?_token {s rest : List Char} {token : Token}
    (read : openingTag? s = some (token, rest)) :
    (∃ tag, token = .opening tag) ∨ ∃ tag, token = .empty tag := by
  obtain ⟨inner, mark, read⟩ := Option.bind_eq_some_iff.1 read
  obtain ⟨ending, name, read⟩ := Option.bind_eq_some_iff.1 read
  simp only at read
  split at read
  · exact .inl ⟨_, (congrArg Prod.fst (Option.some.inj read)).symm⟩
  · obtain ⟨left, close, pair⟩ := Option.map_eq_some_iff.1 read
    exact .inr ⟨_, (congrArg Prod.fst pair).symm⟩

/-- Which reader has found a tag. -/
theorem Token.scan_tag {token : Token} {s rest : List Char} (tag : token.isTag = true)
    (read : Token.scan s = some (token, rest)) :
    closingTag? s = some (token, rest) ∨ openingTag? s = some (token, rest) := by
  have no_leaf {kind : LeafKind} {left : List Char}
      (pair : Token.ofLeaf kind s left = (token, rest)) : False := by
    simp only [Token.ofLeaf, Prod.mk.injEq] at pair
    simp [← pair.1, Token.isTag] at tag
  unfold Token.scan at read
  split at read
  case h_4 => exact .inl read
  case h_5 => exact .inr read
  all_goals
    obtain ⟨_, _, pair⟩ := Option.map_eq_some_iff.1 read
    exact (no_leaf pair).elim

namespace Token.StandsBefore

variable {token : Token} {x : List Char}

theorem elsewhere {y : List Char} (stands : token.StandsBefore x) (same : SameLead x y)
    (settled : token = .leaf emptySection → endsSection y = false) : token.StandsBefore y :=
  Token.scan_elsewhere (.inr same) settled stands

theorem of_tag (stands : token.StandsBefore x) (tag : token.isTag = true) (y : List Char) :
    token.StandsBefore y := by
  refine Token.scan_elsewhere (.inl tag) ?_ stands
  rintro rfl
  simp [Token.isTag] at tag

/-- Where an empty section is a token, no mark follows it. -/
theorem settled (stands : (Token.leaf emptySection).StandsBefore x) : endsSection x = false := by
  unfold Token.StandsBefore Token.scan at stands
  have front : Construct.of ((Token.leaf emptySection).text ++ x) = .cdata := rfl
  rw [front] at stands
  obtain ⟨rest, found, pair⟩ := Option.map_eq_some_iff.1 stands
  obtain rfl : rest = x := congrArg Prod.snd pair
  exact (cdata?_empty_iff rest).1 found

theorem unique_of_ne {token' : Token} {v u y : List Char} (here : token.StandsBefore (v ++ x))
    (there : token'.StandsBefore (u ++ y)) (lead : token.isTag = true ∨ '<' ∈ v)
    (same : token.text ++ v = token'.text ++ u) (full : token ≠ .leaf emptySection) :
    token = token' ∧ v = u := by
  have moved : token.StandsBefore (v ++ y) :=
    Token.scan_elsewhere (lead.imp_right fun markup => .of_mem markup x y)
      (fun empty => absurd empty full) here
  unfold Token.StandsBefore at moved there
  rw [← List.append_assoc, same, List.append_assoc, there] at moved
  simp only [Option.some.injEq, Prod.mk.injEq] at moved
  exact ⟨moved.1.symm, (List.append_cancel_right moved.2).symm⟩

/-- Two tokens at the front of one text, each read with a text of its own behind, are the same. -/
theorem unique {token' : Token} {v u y : List Char} (here : token.StandsBefore (v ++ x))
    (there : token'.StandsBefore (u ++ y)) (lead : token.isTag = true ∨ '<' ∈ v)
    (lead' : token'.isTag = true ∨ '<' ∈ u) (same : token.text ++ v = token'.text ++ u) :
    token = token' ∧ v = u := by
  by_cases full : token = .leaf emptySection
  · by_cases full' : token' = .leaf emptySection
    · subst full full'
      exact ⟨rfl, List.append_cancel_left same⟩
    · -- An empty section cannot be moved, so the other token is moved in front of its text.
      obtain ⟨token_eq, rest_eq⟩ := unique_of_ne there here lead' same.symm full'
      exact ⟨token_eq.symm, rest_eq.symm⟩
  · exact unique_of_ne here there lead same full

/-! ## How tags begin -/

theorem begins_of_closing {tag : Tag} (stands : (Token.closing tag).StandsBefore x) :
    ∃ rest, tag.text = '<' :: '/' :: rest := by
  have alone := stands.of_tag rfl []
  rw [Token.StandsBefore, List.append_nil] at alone
  rcases Token.scan_tag rfl alone with read | read
  · obtain ⟨inner, mark, -⟩ := Option.bind_eq_some_iff.1 read
    exact ⟨inner, word?_eq_some_iff.1 mark⟩
  · obtain ⟨found, same⟩ | ⟨found, same⟩ := openingTag?_token read
    · simp at same
    · simp at same

/-- A tag that closes nothing is an opening tag or a tag of its own. -/
theorem begins_of_tag (stands : token.StandsBefore x) (tag : token.isTag = true)
    (other : ∀ closing, token ≠ .closing closing) : BeginsTag token.text := by
  have alone := stands.of_tag tag []
  rw [Token.StandsBefore, List.append_nil] at alone
  rcases Token.scan_tag tag alone with read | read
  · obtain ⟨closing, same⟩ := closingTag?_token read
    exact absurd same (other closing)
  · exact openingTag?_begins read

theorem begins_of_opening {tag : Tag} (stands : (Token.opening tag).StandsBefore x) :
    BeginsTag tag.text :=
  stands.begins_of_tag rfl (by simp)

theorem begins_of_empty {tag : Tag} (stands : (Token.empty tag).StandsBefore x) :
    BeginsTag tag.text :=
  stands.begins_of_tag rfl (by simp)

end Token.StandsBefore

/-! ## How tags end -/

/-- What is read up to the end of a word ends with that word. -/
theorem readOf_ends {word : String} {s ending rest : List Char} (left : ending <:+ s)
    (close : word? word ending = some rest) : word.toList <:+ readOf s rest := by
  obtain ⟨front, rfl⟩ := left
  obtain rfl := word?_eq_some_iff.1 close
  have suffix : rest <:+ front ++ (word.toList ++ rest) :=
    (List.suffix_append _ _).trans (List.suffix_append _ _)
  refine ⟨front, (List.append_left_inj rest).1 ?_⟩
  rw [readOf_append suffix, List.append_assoc]

theorem closingTag?_ends {s rest : List Char} {token : Token}
    (read : closingTag? s = some (token, rest)) : ['>'] <:+ token.text := by
  obtain ⟨inner, mark, read⟩ := Option.bind_eq_some_iff.1 read
  obtain ⟨left, ending, pair⟩ := Option.map_eq_some_iff.1 read
  obtain ⟨middle, name, close⟩ := Option.bind_eq_some_iff.1 ending
  obtain ⟨after, letters, rfl⟩ := Option.map_eq_some_iff.1 name
  simp only [Prod.mk.injEq] at pair
  obtain ⟨rfl, rfl⟩ := pair
  exact readOf_ends (((skipSpace_suffix after).trans (run?_rest letters).suffix).trans
    (word?_suffix mark)) close

theorem openingTag?_ends {s rest : List Char} {token : Token}
    (read : openingTag? s = some (token, rest)) : ['>'] <:+ token.text := by
  obtain ⟨inner, mark, read⟩ := Option.bind_eq_some_iff.1 read
  obtain ⟨ending, name, read⟩ := Option.bind_eq_some_iff.1 read
  obtain ⟨after, letters, rfl⟩ := Option.map_eq_some_iff.1 name
  have left : skipAttributes after <:+ s :=
    ((skipAttributes_suffix after).trans (run?_rest letters).suffix).trans (word?_suffix mark)
  simp only at read
  split at read
  · rename_i close
    simp only [Option.some.injEq, Prod.mk.injEq] at read
    obtain ⟨rfl, rfl⟩ := read
    exact readOf_ends left close
  · obtain ⟨behind, close, pair⟩ := Option.map_eq_some_iff.1 read
    simp only [Prod.mk.injEq] at pair
    obtain ⟨rfl, rfl⟩ := pair
    exact (List.suffix_append ['/'] ['>']).trans (readOf_ends left close)

theorem Token.StandsBefore.ends_of_tag {token : Token} {x : List Char}
    (stands : token.StandsBefore x) (tag : token.isTag = true) : ['>'] <:+ token.text := by
  rcases Token.scan_tag tag (stands.of_tag tag []) with read | read
  · exact closingTag?_ends read
  · exact openingTag?_ends read

end ManifestOrder.Xml
