import ManifestOrder.Proofs.Xml.Misc

/-!
# The document type and the text behind it

A document type ends with `>`, so it is the same in front of any text (`doctype?_elsewhere`). Within
it, the head must stop at the bracket that opens the declarations or at the end mark.
-/

namespace ManifestOrder.Xml

open Text

theorem entity?_front {s rest : List Char} (read : entity? s = some rest) :
    ∃ tail, s = "<!ENTITY".toList ++ tail := by
  obtain ⟨_, front, -⟩ := Option.bind_eq_some_iff.1 read
  obtain ⟨_, front, -⟩ := Option.bind_eq_some_iff.1 front
  obtain ⟨_, front, -⟩ := Option.bind_eq_some_iff.1 front
  obtain ⟨tail, mark, -⟩ := Option.bind_eq_some_iff.1 front
  exact ⟨tail, word?_eq_some_iff.1 mark⟩

theorem doctype?_front {s : List Char} {found : List Leaf × List Char}
    (read : doctype? s = some found) : ∃ tail, s = "<!DOCTYPE".toList ++ tail := by
  obtain ⟨_, head, -⟩ := Option.bind_eq_some_iff.1 read
  obtain ⟨_, head, -⟩ := Option.map_eq_some_iff.1 head
  obtain ⟨_, head, -⟩ := Option.bind_eq_some_iff.1 head
  obtain ⟨tail, mark, -⟩ := Option.bind_eq_some_iff.1 head
  exact ⟨tail, word?_eq_some_iff.1 mark⟩

theorem misc?_of_doctype (tail : List Char) : misc? ("<!DOCTYPE".toList ++ tail) = none := rfl

theorem doctype?_of_tag {s : List Char} (begins : BeginsTag s) : doctype? s = none := by
  obtain ⟨c, tail, rfl, name⟩ := begins
  refine Option.eq_none_iff_forall_ne_some.2 ?_
  intro rest read
  obtain ⟨body, same⟩ := doctype?_front read
  simp only [List.cons.injEq, String.reduceToList, List.cons_append] at same
  exact absurd (same.2.1 ▸ name) (by decide)

/-! ## The declarations -/

theorem entity?_sealed : Sealed entity? :=
  (((word?_sealed (by decide)).bounded.bind space?_bounded).bind name?_bounded |>.bind
    space?_bounded).seal ((quoted?_sealed _).bind (spacedWord_sealed (by decide)))

theorem subsetItem?_of_comment {s rest : List Char} (read : comment? s = some rest) :
    subsetItem? s = some (.comment, rest) := by
  rw [subsetItem?, read]

theorem subsetItem?_of_entity {s rest : List Char} (read : entity? s = some rest) :
    subsetItem? s = some (.doctype, rest) := by
  obtain ⟨tail, rfl⟩ := entity?_front read
  have other : comment? ("<!ENTITY".toList ++ tail) = none := rfl
  rw [subsetItem?, other, read]

theorem subsetItem?_of_instruction {s rest : List Char}
    (read : instruction? .content s = some rest) :
    subsetItem? s = some (.instruction, rest) := by
  obtain ⟨tail, rfl⟩ := instruction?_front read
  have other : comment? ("<?".toList ++ tail) = none := rfl
  have another : entity? ("<?".toList ++ tail) = none := rfl
  rw [subsetItem?, other, another, read, Option.map_some]

theorem subsetItem?_elsewhere {c : Char} {w v x : List Char} {kind : LeafKind} (y : List Char)
    (other : c ≠ ' ') (mark : c ∈ v) (read : subsetItem? (w ++ x) = some (kind, v ++ x)) :
    subsetItem? (w ++ y) = some (kind, v ++ y) := by
  unfold subsetItem? at read
  split at read
  · rename_i left comment
    simp only [Option.some.injEq, Prod.mk.injEq] at read
    obtain ⟨rfl, rfl⟩ := read
    exact subsetItem?_of_comment (comment?_sealed.elsewhere y comment)
  · split at read
    · rename_i left entity
      simp only [Option.some.injEq, Prod.mk.injEq] at read
      obtain ⟨rfl, rfl⟩ := read
      exact subsetItem?_of_entity (entity?_sealed.elsewhere y entity)
    · obtain ⟨left, instruction, pair⟩ := Option.map_eq_some_iff.1 read
      simp only [Prod.mk.injEq] at pair
      obtain ⟨rfl, rfl⟩ := pair
      refine subsetItem?_of_instruction (instruction?_elsewhere ?_ instruction)
      intro ends
      rw [← ends]
      exact lineEnds_of_mem other mark y x

theorem subset_of_none {s : List Char} (stops : subsetItem? s = none) : subset s = ([], s) := by
  rw [subset]
  split
  · rfl
  · simp_all

theorem subset_of_no_space {s middle : List Char} {kind : LeafKind}
    (item : subsetItem? s = some (kind, middle)) (blanks : space? middle = none) :
    subset s = ([], s) := by
  rw [subset]
  split
  · rfl
  · rename_i found
    rw [item, Option.some.injEq, Prod.mk.injEq] at found
    obtain ⟨rfl, rfl⟩ := found
    split
    · rfl
    · simp_all

theorem subset_of_some {s middle rest : List Char} {kind : LeafKind}
    (item : subsetItem? s = some (kind, middle)) (blanks : space? middle = some rest) :
    subset s = (⟨kind, readOf s middle⟩ :: ⟨.space, readOf middle rest⟩ :: (subset rest).1,
      (subset rest).2) := by
  rw [subset]
  split
  · simp_all
  · rename_i found
    rw [item, Option.some.injEq, Prod.mk.injEq] at found
    obtain ⟨rfl, rfl⟩ := found
    split
    · simp_all
    · rename_i found
      rw [blanks, Option.some.injEq] at found
      subst found
      rfl

theorem subset_suffix (s : List Char) : (subset s).2 <:+ s := by
  induction s using subset.induct with
  | case1 s stops =>
    simpa only [subset_of_none stops] using List.suffix_refl s
  | case2 s kind middle item blanks =>
    simpa only [subset_of_no_space item blanks] using List.suffix_refl s
  | case3 s kind middle item rest blanks _ _ _ _ ih =>
    rw [subset_of_some item blanks]
    exact ih.trans ((run?_rest blanks).trans (subsetItem?_rest item)).suffix

theorem subset_source (s : List Char) : (subset s).1.flatMap Leaf.text ++ (subset s).2 = s := by
  induction s using subset.induct with
  | case1 s stops =>
    rw [subset_of_none stops]
    rfl
  | case2 s kind middle item blanks =>
    rw [subset_of_no_space item blanks]
    rfl
  | case3 s kind middle item rest blanks _ _ _ _ ih =>
    rw [subset_of_some item blanks, List.flatMap_cons, List.flatMap_cons, List.append_assoc,
      List.append_assoc, ih, readOf_append (run?_rest blanks).suffix]
    exact readOf_append (subsetItem?_rest item).suffix

theorem subset_of_bracket (s : List Char) : subset (']' :: s) = ([], ']' :: s) :=
  subset_of_none rfl

theorem subset_elsewhere {w v x : List Char} {leaves : List Leaf} (y : List Char)
    (read : subset (w ++ x) = (leaves, ']' :: v ++ x)) :
    subset (w ++ y) = (leaves, ']' :: v ++ y) := by
  generalize whole : w ++ x = s at read
  induction s using subset.induct generalizing w leaves with
  | case1 s stops =>
    rw [subset_of_none stops, Prod.mk.injEq] at read
    obtain ⟨rfl, same⟩ := read
    rw [List.append_cancel_right (whole.trans same)]
    exact subset_of_bracket (v ++ y)
  | case2 s kind middle item blanks =>
    rw [subset_of_no_space item blanks, Prod.mk.injEq] at read
    obtain ⟨rfl, same⟩ := read
    rw [List.append_cancel_right (whole.trans same)]
    exact subset_of_bracket (v ++ y)
  | case3 s kind middle item rest blanks _ _ _ _ ih =>
    rw [subset_of_some item blanks, Prod.mk.injEq] at read
    obtain ⟨rfl, left⟩ := read
    obtain ⟨front, rfl⟩ := left ▸ subset_suffix rest
    obtain ⟨gap, -, rfl⟩ := run?_rest blanks
    subst whole
    simp only [← List.append_assoc] at item blanks left ⊢
    simp only [← List.append_assoc] at ih
    have others := ih rfl (Prod.ext rfl left)
    have item' := subsetItem?_elsewhere (c := ']') y (by decide) (by simp) item
    have blanks' := space?_bounded.elsewhere y (by simp) blanks
    rw [subset_of_some item' blanks', others,
      readOf_elsewhere (suffix_of_append (run?_rest blanks).suffix) y x,
      readOf_elsewhere (suffix_of_append (subsetItem?_rest item).suffix) y x]

/-! ## The head -/

theorem external?_sealed : Sealed external? := by
  have published : Sealed fun s =>
      ((((word? "PUBLIC" s).bind space?).bind (quoted? (·.all isPublicChar))).bind space?).bind
        (quoted? isLiteral) :=
    ((((word?_sealed (by decide)).bounded.bind space?_bounded).seal
      (quoted?_sealed _)).bounded.bind space?_bounded).seal (quoted?_sealed _)
  have kept : Sealed fun s => (space? s).bind (quoted? isLiteral) :=
    space?_bounded.seal (quoted?_sealed _)
  refine space?_bounded.seal ⟨?_, ?_⟩
  · intro s rest read
    split at read
    · rename_i system
      exact (kept.rest read).trans (word?_rest (by decide) system)
    · exact published.rest read
  · intro w v x y read
    split at read
    · rename_i inner system
      obtain ⟨front, -, rfl⟩ := kept.rest read
      rw [← List.append_assoc] at system read
      simp only [(word?_sealed (by decide)).elsewhere y system]
      exact kept.elsewhere y read
    · -- A public identifier stands there as well, so not the word of the other kind.
      have moved := published.elsewhere y read
      obtain ⟨_, front, -⟩ := Option.bind_eq_some_iff.1 moved
      obtain ⟨_, front, -⟩ := Option.bind_eq_some_iff.1 front
      obtain ⟨_, front, -⟩ := Option.bind_eq_some_iff.1 front
      obtain ⟨tail, spelled, -⟩ := Option.bind_eq_some_iff.1 front
      have other : word? "SYSTEM" (w ++ y) = none := by
        rw [word?_eq_some_iff.1 spelled]
        rfl
      simp only [other]
      exact moved

/-- What can follow the head of a document type begins no external identifier. -/
theorem external?_eq_none {c : Char} {s tail : List Char} (behind : skipSpace s = c :: tail)
    (mark : c = '[' ∨ c = '>') : external? s = none := by
  refine Option.eq_none_iff_forall_ne_some.2 ?_
  intro rest read
  obtain ⟨inner, blanks, read⟩ := Option.bind_eq_some_iff.1 read
  rw [← skipSpace_of_space? blanks, behind] at read
  rcases mark with rfl | rfl
  · have system : word? "SYSTEM" ('[' :: tail) = none := rfl
    have published : word? "PUBLIC" ('[' :: tail) = none := rfl
    simp [system, published] at read
  · have system : word? "SYSTEM" ('>' :: tail) = none := rfl
    have published : word? "PUBLIC" ('>' :: tail) = none := rfl
    simp [system, published] at read

theorem doctypeName_bounded :
    Bounded fun s => ((word? "<!DOCTYPE" s).bind space?).bind name? :=
  ((word?_sealed (by decide)).bounded.bind space?_bounded).bind name?_bounded

theorem doctypeHead?_elsewhere {c : Char} {w v x : List Char} (y : List Char)
    (mark : c = '[' ∨ c = '>') (read : doctypeHead? (w ++ x) = some (c :: v ++ x)) :
    doctypeHead? (w ++ y) = some (c :: v ++ y) := by
  obtain ⟨inner, head, rest⟩ := Option.map_eq_some_iff.1 read
  generalize outside : (external? inner).getD inner = late at rest
  have ending : c :: v ++ x <:+ late := rest ▸ skipSpace_suffix late
  obtain ⟨b, rfl⟩ := ending
  have inside : b ++ (c :: v ++ x) <:+ inner := outside ▸ optional_suffix external?_sealed inner
  obtain ⟨a, rfl⟩ := inside
  simp only [← List.append_assoc] at head outside rest
  have skipped : skipSpace (b ++ c :: v ++ y) = c :: v ++ y :=
    dropWhile_elsewhere y (by simp) rest
  have missing : external? (b ++ c :: v ++ y) = none := external?_eq_none skipped mark
  unfold doctypeHead?
  rw [doctypeName_bounded.elsewhere y (by simp) head, Option.map_some,
    optional_elsewhere external?_sealed missing outside, skipped]

theorem doctypeHead?_suffix {s rest : List Char} (read : doctypeHead? s = some rest) :
    rest <:+ s := by
  obtain ⟨inner, head, rfl⟩ := Option.map_eq_some_iff.1 read
  exact ((skipSpace_suffix _).trans (optional_suffix external?_sealed inner)).trans
    (doctypeName_bounded.suffix head)

/-! ## The whole -/

theorem doctype?_of_closed {s afterHead rest : List Char} (head : doctypeHead? s = some afterHead)
    (closed : word? ">" afterHead = some rest) :
    doctype? s = some ([⟨.doctype, readOf s rest⟩], rest) := by
  have other : word? "[" afterHead = none := by
    rw [word?_eq_some_iff.1 closed]
    rfl
  simp only [doctype?, head, Option.bind_some, other, closed, Option.map_some]

theorem doctype?_of_subset {s afterHead inner body afterItems rest : List Char}
    {blanks items : List Leaf} (head : doctypeHead? s = some afterHead)
    (opened : word? "[" afterHead = some inner)
    (gap : optionalLeaf .space space? inner = (blanks, body))
    (declared : subset body = (items, afterItems))
    (closed : ((word? "]" afterItems).bind fun s => word? ">" (skipSpace s)) = some rest) :
    doctype? s =
      some (⟨.doctype, readOf s inner⟩ :: blanks ++ items ++ [⟨.doctype, readOf afterItems rest⟩],
        rest) := by
  simp only [doctype?, head, Option.bind_some, opened, gap, declared, closed, Option.map_some]

theorem doctype?_cases {s rest : List Char} {leaves : List Leaf}
    (read : doctype? s = some (leaves, rest)) :
    (∃ afterHead, doctypeHead? s = some afterHead ∧ word? ">" afterHead = some rest ∧
      leaves = [⟨.doctype, readOf s rest⟩]) ∨
    (∃ afterHead inner, doctypeHead? s = some afterHead ∧ word? "[" afterHead = some inner ∧
      ∃ blanks body items afterItems, optionalLeaf .space space? inner = (blanks, body) ∧
        subset body = (items, afterItems) ∧
        ((word? "]" afterItems).bind fun s => word? ">" (skipSpace s)) = some rest ∧
        leaves = ⟨.doctype, readOf s inner⟩ :: blanks ++ items ++
          [⟨.doctype, readOf afterItems rest⟩]) := by
  obtain ⟨afterHead, head, read⟩ := Option.bind_eq_some_iff.1 read
  split at read
  · obtain ⟨left, closed, pair⟩ := Option.map_eq_some_iff.1 read
    simp only [Prod.mk.injEq] at pair
    obtain ⟨rfl, rfl⟩ := pair
    exact .inl ⟨afterHead, head, closed, rfl⟩
  · rename_i inner opened
    obtain ⟨left, closed, pair⟩ := Option.map_eq_some_iff.1 read
    simp only [Prod.mk.injEq] at pair
    obtain ⟨rfl, rfl⟩ := pair
    exact .inr ⟨afterHead, inner, head, opened, _, _, _, _, rfl, rfl, closed, rfl⟩

/-- The end of a document type with declarations. -/
theorem subsetEnd_sealed :
    Sealed fun s => (word? "]" s).bind fun s => word? ">" (skipSpace s) :=
  (word?_sealed (by decide)).bind (spacedWord_sealed (by decide))

theorem doctype?_elsewhere {w v x : List Char} {leaves : List Leaf} (y : List Char)
    (read : doctype? (w ++ x) = some (leaves, v ++ x)) :
    doctype? (w ++ y) = some (leaves, v ++ y) := by
  rcases doctype?_cases read with ⟨afterHead, head, closed, rfl⟩ |
    ⟨afterHead, inner, head, opened, blanks, body, items, afterItems, gap, declared, closed, rfl⟩
  · obtain rfl := word?_eq_some_iff.1 closed
    have left : v <:+ w := suffix_of_append
      ((List.suffix_append ">".toList (v ++ x)).trans (doctypeHead?_suffix head))
    have head' : doctypeHead? (w ++ y) = some ('>' :: (v ++ y)) :=
      doctypeHead?_elsewhere y (.inr rfl) head
    have closed' : word? ">" ('>' :: (v ++ y)) = some (v ++ y) := word?_eq_some_iff.2 rfl
    rw [doctype?_of_closed head' closed', readOf_elsewhere left y x]
  · obtain ⟨afterMark, mark, ending⟩ := Option.bind_eq_some_iff.1 closed
    obtain ⟨front, -, rfl⟩ := (spacedWord_sealed (by decide)).rest ending
    obtain rfl := word?_eq_some_iff.1 mark
    obtain ⟨b, rfl⟩ := declared ▸ subset_suffix body
    obtain ⟨a, rfl⟩ := gap ▸ optionalLeaf_suffix .space space?_bounded inner
    obtain rfl := word?_eq_some_iff.1 opened
    -- every piece as a text that does not depend on `x`, with `x` behind it
    have closed' := subsetEnd_sealed.elsewhere (w := ']' :: (front ++ v)) (v := v) (x := x) y
      (by simpa using closed)
    have declared' := subset_elsewhere (w := b ++ ']' :: (front ++ v)) (v := front ++ v) (x := x) y
      (by simpa using declared)
    have gap' : optionalLeaf .space space? (a ++ (b ++ ']' :: (front ++ v)) ++ y) =
        (blanks, b ++ ']' :: (front ++ v) ++ y) :=
      optionalLeaf_elsewhere (x := x) space?_bounded (by simp) (space?_stays (by simp))
        (by simpa using gap)
    have head' := doctypeHead?_elsewhere (c := '[') (v := a ++ (b ++ ']' :: (front ++ v))) (x := x)
      y (.inl rfl) (by simpa using head)
    have opened' : word? "[" ('[' :: (a ++ (b ++ ']' :: (front ++ v))) ++ y) =
        some (a ++ (b ++ ']' :: (front ++ v)) ++ y) := word?_eq_some_iff.2 rfl
    have left : a ++ (b ++ ']' :: (front ++ v)) <:+ w := by
      have inside := (List.suffix_append "[".toList _).trans (doctypeHead?_suffix head)
      exact suffix_of_append (x := x) (by simpa using inside)
    have ended : readOf (']' :: (front ++ v) ++ y) (v ++ y) =
        readOf (']' :: (front ++ v) ++ x) (v ++ x) :=
      readOf_elsewhere (List.suffix_append (']' :: front) v) y x
    rw [doctype?_of_subset head' opened' gap' declared' closed', readOf_elsewhere left y x, ended]
    simp

theorem doctype?_suffix {s rest : List Char} {leaves : List Leaf}
    (read : doctype? s = some (leaves, rest)) : rest <:+ s := by
  rcases doctype?_cases read with ⟨afterHead, head, closed, -⟩ |
    ⟨afterHead, inner, head, opened, blanks, body, items, afterItems, gap, declared, closed, -⟩
  · exact (word?_suffix closed).trans (doctypeHead?_suffix head)
  · have behind := declared ▸ subset_suffix body
    have inside := gap ▸ optionalLeaf_suffix .space space?_bounded inner
    exact ((((subsetEnd_sealed.rest closed).suffix.trans behind).trans inside).trans
      (word?_suffix opened)).trans (doctypeHead?_suffix head)

theorem doctype?_source {s rest : List Char} {leaves : List Leaf}
    (read : doctype? s = some (leaves, rest)) : leaves.flatMap Leaf.text ++ rest = s := by
  have whole := doctype?_suffix read
  rcases doctype?_cases read with ⟨afterHead, head, closed, rfl⟩ |
    ⟨afterHead, inner, head, opened, blanks, body, items, afterItems, gap, declared, closed, rfl⟩
  · rw [List.flatMap_singleton]
    exact readOf_append whole
  · have ending := (subsetEnd_sealed.rest closed).suffix
    have middle := declared ▸ subset_source body
    have front := gap ▸ optionalLeaf_source .space space?_bounded inner
    have start := readOf_append ((word?_suffix opened).trans (doctypeHead?_suffix head))
    simp only [List.cons_append, List.flatMap_cons, List.flatMap_append, List.flatMap_nil,
      List.append_nil, List.append_assoc] at *
    rw [readOf_append ending, middle, front, start]

end ManifestOrder.Xml
