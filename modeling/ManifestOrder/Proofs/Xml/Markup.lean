import ManifestOrder.Proofs.Xml.Token

/-!
# Where markup opens within a token

A `<` opens markup. A tag has one at its front and no other one (`Token.StandsBefore.tag_markup`);
references and text runs have none (`Token.StandsBefore.leaf_unmarked`). So in content without
sections and instructions every other `<` belongs to a comment, and a leaf that counts as a comment
is one, unless the mark that ends a section stands in it (`Token.StandsBefore.leaf_comment`).
-/

namespace ManifestOrder.Xml

open Text

/-! ## Readers that take no markup -/

/-- What the reader takes holds no `<`. -/
def Unmarked (reader : List Char → Option (List Char)) : Prop :=
  ∀ s rest, reader s = some rest → ∃ front, s = front ++ rest ∧ '<' ∉ front

section
variable {first second : List Char → Option (List Char)}

theorem Unmarked.bind (before : Unmarked first) (after : Unmarked second) :
    Unmarked fun s => (first s).bind second := by
  intro s rest read
  obtain ⟨middle, front, back⟩ := Option.bind_eq_some_iff.1 read
  obtain ⟨taken, rfl, free⟩ := before s middle front
  obtain ⟨more, rfl, free'⟩ := after middle rest back
  exact ⟨taken ++ more, (List.append_assoc _ _ _).symm, by simp [free, free']⟩

theorem Unmarked.map {skip : List Char → List Char} (before : Unmarked first)
    (after : Unmarked fun s => some (skip s)) : Unmarked fun s => (first s).map skip := by
  have both := before.bind after
  simp only [Option.map_eq_bind]
  exact both

end

theorem word?_unmarked {word : String} (free : '<' ∉ word.toList) : Unmarked (word? word) :=
  fun _ _ read => ⟨word.toList, word?_eq_some_iff.1 read, free⟩

theorem dropWhile_unmarked {p : Char → Bool} (excluded : p '<' = false) :
    Unmarked fun s => some (s.dropWhile p) := by
  intro s rest read
  obtain rfl := Option.some.inj read
  refine ⟨s.takeWhile p, List.takeWhile_append_dropWhile.symm, ?_⟩
  intro inside
  have taken := List.all_eq_true.1 List.all_takeWhile _ inside
  rw [excluded] at taken
  simp at taken

theorem run?_unmarked {first next : Char → Bool} (excluded : first '<' = false)
    (excluded' : next '<' = false) : Unmarked (run? first next) := by
  intro s rest read
  cases s with
  | nil => simp [run?] at read
  | cons c s =>
    rw [run?] at read
    split at read
    · rename_i allowed
      obtain ⟨front, rfl, free⟩ := dropWhile_unmarked excluded' s rest read
      have other : '<' ≠ c := by
        rintro rfl
        rw [excluded] at allowed
        simp at allowed
      exact ⟨c :: front, rfl, by simp [other, free]⟩
    · simp at read

theorem skipSpace_unmarked : Unmarked fun s => some (skipSpace s) :=
  dropWhile_unmarked (by decide)

theorem name?_unmarked : Unmarked name? :=
  run?_unmarked (by decide) (by decide)

theorem tagName?_unmarked : Unmarked tagName? :=
  run?_unmarked (by decide) (by decide)

theorem equals?_unmarked : Unmarked equals? :=
  (skipSpace_unmarked.bind (word?_unmarked (by decide))).map skipSpace_unmarked

/-- A value in quotes has no `<` if it must not hold one. -/
theorem quoted?_unmarked {allowed : List Char → Bool}
    (free : ∀ value, allowed value = true → '<' ∉ value) : Unmarked (quoted? allowed) := by
  intro s rest read
  cases s with
  | nil => simp [quoted?] at read
  | cons quote s =>
    rw [quoted?] at read
    split at read
    · rename_i opened
      split at read
      · rename_i closing left dropped
        split at read
        · rename_i good
          obtain rfl := Option.some.inj read
          have whole := List.takeWhile_append_dropWhile (p := (· != quote)) (l := s)
          have stops := List.head?_dropWhile_not (· != quote) s
          rw [dropped] at whole stops
          have closed : closing = quote := by simpa using stops
          have other : '<' ≠ quote := by
            rintro rfl
            exact absurd opened (by decide)
          refine ⟨quote :: s.takeWhile (· != quote) ++ [closing], ?_, ?_⟩
          · simp only [List.cons_append, List.append_assoc, List.nil_append, whole]
          · simp [closed, other, free _ good]
        · simp at read
      · simp at read
    · simp at read

theorem attribute?_unmarked : Unmarked attribute? := by
  refine (name?_unmarked.bind equals?_unmarked).bind (quoted?_unmarked ?_)
  intro value good inside
  rw [isValue, Bool.and_eq_true, List.all_eq_true] at good
  exact absurd (good.1 _ inside) (by decide)

theorem skipAttributes_unmarked : Unmarked fun s => some (skipAttributes s) := by
  intro s rest read
  obtain rfl := Option.some.inj read
  fun_induction skipAttributes s with
  | case1 s _ => exact ⟨[], rfl, by simp⟩
  | case2 s inner blanks _ => exact run?_unmarked (by decide) (by decide) s inner blanks
  | case3 s inner blanks rest value ih =>
    obtain ⟨gap, rfl, free⟩ := run?_unmarked (by decide) (by decide) s inner blanks
    obtain ⟨taken, rfl, free'⟩ := attribute?_unmarked inner rest value
    obtain ⟨others, whole, free''⟩ := ih rfl
    refine ⟨gap ++ (taken ++ others), ?_, by simp [free, free', free'']⟩
    simp only [List.append_assoc, ← whole]

theorem reference?_unmarked : Unmarked reference? := by
  intro s rest read
  have semicolon : Unmarked (word? ";") := word?_unmarked (by decide)
  unfold reference? at read
  split at read
  case h_4 => simp at read
  · rename_i digits
    obtain ⟨front, rfl, free⟩ :=
      ((run?_unmarked (by decide) (by decide)).bind semicolon) digits rest read
    exact ⟨'&' :: '#' :: 'x' :: front, rfl, by simp [free]⟩
  · rename_i digits _
    obtain ⟨front, rfl, free⟩ :=
      ((run?_unmarked (by decide) (by decide)).bind semicolon) digits rest read
    exact ⟨'&' :: '#' :: front, rfl, by simp [free]⟩
  · rename_i name _ _
    obtain ⟨front, rfl, free⟩ := (name?_unmarked.bind semicolon) name rest read
    exact ⟨'&' :: front, rfl, by simp [free]⟩

/-! ## Text runs -/

/-- The brackets just read that may begin the mark. -/
def Mark.pending : Mark → List Char
  | .none => []
  | .bracket => "]".toList
  | .brackets => "]]".toList
  | .passed => []

theorem Progress.pending_next (p : Progress) (c : Char) :
    (p.next c).mark.pending <:+ p.mark.pending ++ [c] := by
  obtain ⟨started, mark⟩ := p
  by_cases bracket : c = ']'
  · subst bracket
    cases mark
    · exact List.suffix_refl _
    · exact List.suffix_refl _
    · exact List.nil_suffix
    · exact List.nil_suffix
  · cases mark <;> simp [next, bracket, Mark.pending]

theorem scanText_whole_unmarked {p : Progress} {s rest : List Char}
    (scanned : scanText p s = .whole rest) : ∃ front, s = front ++ rest ∧ '<' ∉ front := by
  induction s generalizing p with
  | nil =>
    simp only [scanText, TextEnd.whole.injEq] at scanned
    exact ⟨[], scanned, by simp⟩
  | cons c s ih =>
    rw [scanText] at scanned
    split at scanned
    · injection scanned with same
      exact ⟨[], same, by simp⟩
    · rename_i plain
      have other : '<' ≠ c := by
        rintro rfl
        exact plain rfl
      have step {q : Progress} (behind : scanText q s = .whole rest) :
          ∃ front, c :: s = front ++ rest ∧ '<' ∉ front := by
        obtain ⟨front, rfl, free⟩ := ih behind
        exact ⟨c :: front, rfl, by simp [other, free]⟩
      split at scanned
      · split at scanned
        · simp at scanned
        · exact step scanned
      · exact step scanned

/-- A run is broken off behind the mark that ends a section. -/
theorem scanText_broken_marked {p : Progress} {s rest : List Char}
    (scanned : scanText p s = .broken rest) :
    ∃ front, s = front ++ rest ∧ "]]>".toList <:+: p.mark.pending ++ front := by
  induction s generalizing p with
  | nil => simp [scanText] at scanned
  | cons c s ih =>
    rw [scanText] at scanned
    split at scanned
    · simp at scanned
    · split at scanned
      · rename_i closing
        simp only [Progress.closes, Bool.and_eq_true, decide_eq_true_eq] at closing
        obtain ⟨brackets, rfl⟩ := closing
        split at scanned
        · injection scanned with same
          subst same
          refine ⟨['>'], rfl, ?_⟩
          rw [brackets]
          exact List.infix_refl _
        · obtain ⟨front, rfl, marked⟩ := ih scanned
          exact ⟨'>' :: front, rfl,
            marked.trans ((List.suffix_cons _ front).trans (List.suffix_append _ _)).isInfix⟩
      · obtain ⟨front, rfl, marked⟩ := ih scanned
        -- what is pending behind `c` was pending in front of it, or is `c` itself
        obtain ⟨before, pending⟩ := p.pending_next c
        refine ⟨c :: front, rfl, marked.trans ⟨before, [], ?_⟩⟩
        rw [List.append_nil, ← List.append_assoc, pending, List.append_assoc]
        rfl

/-! ## Tokens -/

theorem closingTag?_markup {s rest : List Char} {token : Token}
    (read : closingTag? s = some (token, rest)) :
    ∃ front, token.text = '<' :: '/' :: front ∧ '<' ∉ front := by
  obtain ⟨inner, mark, read⟩ := Option.bind_eq_some_iff.1 read
  obtain ⟨left, ending, pair⟩ := Option.map_eq_some_iff.1 read
  simp only [Prod.mk.injEq] at pair
  obtain ⟨rfl, rfl⟩ := pair
  obtain ⟨front, rfl, free⟩ :=
    ((tagName?_unmarked.map skipSpace_unmarked).bind (word?_unmarked (by decide))) _ _ ending
  refine ⟨front, ?_, free⟩
  rw [Token.text, word?_eq_some_iff.1 mark, ← List.append_assoc, readOf_append_left]
  rfl

theorem openingTag?_markup {s rest : List Char} {token : Token}
    (read : openingTag? s = some (token, rest)) :
    ∃ front, token.text = '<' :: front ∧ '<' ∉ front := by
  have whole := (openingTag?_text_and_rest read).1
  obtain ⟨inner, mark, read⟩ := Option.bind_eq_some_iff.1 read
  obtain ⟨ending, name, read⟩ := Option.bind_eq_some_iff.1 read
  obtain ⟨front, rfl, free⟩ := (tagName?_unmarked.map skipAttributes_unmarked) _ _ name
  -- the tag ends with one of two words
  have close : ∃ word : String, '<' ∉ word.toList ∧ word? word ending = some rest := by
    simp only at read
    split at read
    · rename_i close
      simp only [Option.some.injEq, Prod.mk.injEq] at read
      exact ⟨">", by decide, read.2 ▸ close⟩
    · obtain ⟨left, close, pair⟩ := Option.map_eq_some_iff.1 read
      simp only [Prod.mk.injEq] at pair
      exact ⟨"/>", by decide, pair.2 ▸ close⟩
  obtain ⟨word, free', close⟩ := close
  refine ⟨front ++ word.toList, ?_, by simp [free, free']⟩
  rw [whole, word?_eq_some_iff.1 mark, word?_eq_some_iff.1 close, ← List.append_assoc,
    ← List.append_assoc, readOf_append_left]
  rfl

/-- Which reader has found a leaf. -/
theorem Token.scan_leaf {piece : Leaf} {s rest : List Char}
    (read : Token.scan s = some (.leaf piece, rest)) :
    piece.kind = .comment ∧ comment? s = some rest ∨ piece.kind = .cdata ∨
      piece.kind = .instruction ∨ piece.kind = .reference ∧ reference? s = some rest ∨
      ∃ isComment, piece.kind = (if isComment then .comment else .charData) ∧
        textRun? s = some (isComment, rest) := by
  have leaf {kind : LeafKind} {reader : Option (List Char)}
      (found : reader.map (ofLeaf kind s) = some (.leaf piece, rest)) :
      piece.kind = kind ∧ reader = some rest := by
    obtain ⟨left, taken, pair⟩ := Option.map_eq_some_iff.1 found
    simp only [ofLeaf, Prod.mk.injEq, Token.leaf.injEq] at pair
    exact ⟨pair.1 ▸ rfl, pair.2 ▸ taken⟩
  unfold Token.scan at read
  split at read
  · exact .inl (leaf read)
  · exact .inr (.inl (leaf read).1)
  · exact .inr (.inr (.inl (leaf read).1))
  · obtain ⟨tag, same⟩ := closingTag?_token read
    simp at same
  · obtain ⟨tag, same⟩ | ⟨tag, same⟩ := openingTag?_token read <;> simp at same
  · exact .inr (.inr (.inr (.inl (leaf read))))
  · obtain ⟨⟨isComment, left⟩, taken, pair⟩ := Option.map_eq_some_iff.1 read
    simp only [ofLeaf, Prod.mk.injEq, Token.leaf.injEq] at pair
    obtain ⟨rfl, rfl⟩ := pair
    exact .inr (.inr (.inr (.inr ⟨isComment, rfl, taken⟩)))

namespace Token.StandsBefore

variable {x : List Char}

/-- A tag opens with something other than a comment does, and holds no further markup. -/
theorem tag_markup {token : Token} (stands : token.StandsBefore x) (tag : token.isTag = true) :
    ∃ c front, token.text = '<' :: c :: front ∧ c ≠ '!' ∧ '<' ∉ c :: front := by
  have alone := stands.of_tag tag []
  rw [Token.StandsBefore, List.append_nil] at alone
  rcases Token.scan_tag tag alone with read | read
  · obtain ⟨front, text, free⟩ := closingTag?_markup read
    exact ⟨'/', front, text, by decide, by simp [free]⟩
  · obtain ⟨front, text, free⟩ := openingTag?_markup read
    obtain ⟨c, rest, text', name⟩ := openingTag?_begins read
    rw [text, List.cons.injEq] at text'
    obtain ⟨-, rfl⟩ := text'
    refine ⟨c, rest, text, ?_, free⟩
    rintro rfl
    exact absurd name (by decide)

/-- A text run without the mark that ends a section runs up to the next markup. -/
theorem textRun_whole {w : List Char} {isComment : Bool}
    (read : textRun? (w ++ x) = some (isComment, x)) (free : ¬ "]]>".toList <:+: w) :
    isComment = false ∧ '<' ∉ w := by
  cases whole : w ++ x with
  | nil => simp [whole, textRun?] at read
  | cons c s =>
    rw [whole, textRun?] at read
    split at read
    · simp at read
    · split at read
      · rename_i rest scanned
        simp only [Option.some.injEq, Prod.mk.injEq] at read
        obtain ⟨rfl, rfl⟩ := read
        obtain ⟨front, same, unmarked⟩ := scanText_whole_unmarked scanned
        rw [← whole] at same
        exact ⟨rfl, List.append_cancel_right same ▸ unmarked⟩
      · rename_i rest scanned
        obtain ⟨left, closing, pair⟩ := Option.map_eq_some_iff.1 read
        obtain rfl : left = x := congrArg Prod.snd pair
        obtain ⟨front, same, marked⟩ := scanText_broken_marked scanned
        obtain ⟨comment, -, rfl⟩ := comment?_rest closing
        rw [← whole, ← List.append_assoc] at same
        rw [List.append_cancel_right same] at free
        exact absurd (marked.trans (List.prefix_append _ _).isInfix) free

/-- A leaf that counts as a comment is one, unless it holds the mark that ends a section. -/
theorem leaf_comment {piece : Leaf} (stands : (Token.leaf piece).StandsBefore x)
    (kind : piece.kind = .comment) (free : ¬ "]]>".toList <:+: piece.text) :
    comment? (piece.text ++ x) = some x := by
  rcases Token.scan_leaf stands with found | other | other | other | ⟨isComment, shown, read⟩
  · exact found.2
  · simp [other] at kind
  · simp [other] at kind
  · simp [other.1] at kind
  · obtain ⟨rfl, -⟩ := textRun_whole read free
    simp [shown] at kind

/-- A leaf that is no comment, section or instruction holds no markup. -/
theorem leaf_unmarked {piece : Leaf} (stands : (Token.leaf piece).StandsBefore x)
    (comment : piece.kind ≠ .comment) (cdata : piece.kind ≠ .cdata)
    (instruction : piece.kind ≠ .instruction) (free : ¬ "]]>".toList <:+: piece.text) :
    '<' ∉ piece.text := by
  rcases Token.scan_leaf stands with found | other | other | found | ⟨isComment, shown, read⟩
  · exact absurd found.1 comment
  · exact absurd other cdata
  · exact absurd other instruction
  · obtain ⟨front, same, unmarked⟩ := reference?_unmarked _ _ found.2
    obtain rfl : front = piece.text := (List.append_cancel_right same).symm
    exact unmarked
  · exact (textRun_whole read free).2

end Token.StandsBefore

end ManifestOrder.Xml
