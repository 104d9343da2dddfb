import ManifestOrder.Proofs.Xml.Declaration
import ManifestOrder.Proofs.Xml.Doctype

/-!
# The prolog and the text behind it

What is read in front of a root element does not depend on the element, beyond its first two
characters (`prolog_elsewhere`). Each piece that is read is read again in front of another element.
A piece that is missing must be shown to stay missing: what follows it in the prolog, or the tag of
the root, begins in a way in which that piece does not begin.
-/

namespace ManifestOrder.Xml

open Text

/-! ## The byte order mark -/

theorem byteOrderMark?_rest {s rest : List Char} (read : byteOrderMark? s = some rest) :
    IsRestOf rest s := by
  cases s with
  | nil => simp [byteOrderMark?] at read
  | cons c s =>
    rw [byteOrderMark?] at read
    split at read
    · exact Option.some.inj read ▸ IsRestOf.cons c (List.suffix_refl s)
    · simp at read

theorem byteOrderMark?_sealed : Sealed byteOrderMark? where
  rest := byteOrderMark?_rest
  elsewhere {w v x} y read := by
    cases w with
    | nil => exact absurd (byteOrderMark?_rest read).length_lt_append (Nat.not_lt_zero _)
    | cons c w =>
      rw [List.cons_append, byteOrderMark?] at read ⊢
      split at read
      · rename_i mark
        rw [if_pos mark, List.append_cancel_right (Option.some.inj read)]
      · simp at read

theorem byteOrderMark?_stays {v x y : List Char} (nonempty : v ≠ [])
    (missing : byteOrderMark? (v ++ x) = none) : byteOrderMark? (v ++ y) = none := by
  cases v with
  | nil => exact absurd rfl nonempty
  | cons c v =>
    rw [List.cons_append, byteOrderMark?] at missing ⊢
    split at missing
    · simp at missing
    · rename_i other
      rw [if_neg other]

/-- A document type, if there is one. -/
def optionalDoctype (s : List Char) : List Leaf × List Char :=
  (doctype? s).getD ([], s)

/-- What is read behind a declaration. -/
def afterDeclaration (s : List Char) : List Leaf × List Char :=
  let (first, s) := miscs s
  let (typed, s) := optionalDoctype s
  let (second, s) := miscs s
  (first ++ typed ++ second, s)

theorem optionalDoctype_of_some {s : List Char} {found : List Leaf × List Char}
    (read : doctype? s = some found) : optionalDoctype s = found := by
  rw [optionalDoctype, read, Option.getD_some]

theorem optionalDoctype_of_none {s : List Char} (missing : doctype? s = none) :
    optionalDoctype s = ([], s) := by
  rw [optionalDoctype, missing, Option.getD_none]

theorem optionalDoctype_suffix (s : List Char) : (optionalDoctype s).2 <:+ s := by
  cases read : doctype? s with
  | none =>
    simpa only [optionalDoctype_of_none read] using List.suffix_refl s
  | some found =>
    rw [optionalDoctype_of_some read]
    exact doctype?_suffix read

theorem optionalDoctype_source (s : List Char) :
    (optionalDoctype s).1.flatMap Leaf.text ++ (optionalDoctype s).2 = s := by
  cases read : doctype? s with
  | none =>
    rw [optionalDoctype_of_none read]
    rfl
  | some found =>
    rw [optionalDoctype_of_some read]
    exact doctype?_source read

theorem afterDeclaration_eq {s after : List Char} {leaves : List Leaf}
    (read : afterDeclaration s = (leaves, after)) :
    ∃ first s' typed s'' second, miscs s = (first, s') ∧ optionalDoctype s' = (typed, s'') ∧
      miscs s'' = (second, after) ∧ leaves = first ++ typed ++ second := by
  simp only [afterDeclaration, Prod.mk.injEq] at read
  exact ⟨_, _, _, _, _, rfl, rfl, Prod.ext rfl read.2, read.1.symm⟩

theorem afterDeclaration_of_none {s : List Char} (stops : misc? s = none)
    (missing : doctype? s = none) : afterDeclaration s = ([], s) := by
  simp only [afterDeclaration, miscs_of_none stops, optionalDoctype_of_none missing,
    List.append_nil]

theorem afterDeclaration_elsewhere {w v x : List Char} {leaves : List Leaf} (y : List Char)
    (begins : BeginsTag v) (read : afterDeclaration (w ++ x) = (leaves, v ++ x)) :
    afterDeclaration (w ++ y) = (leaves, v ++ y) := by
  obtain ⟨first, s', typed, s'', second, firstRead, typeRead, secondRead, rfl⟩ :=
    afterDeclaration_eq read
  obtain ⟨b, rfl⟩ := secondRead ▸ miscs_suffix s''
  obtain ⟨a, rfl⟩ := typeRead ▸ optionalDoctype_suffix s'
  simp only [← List.append_assoc] at firstRead typeRead secondRead
  have second' := miscs_elsewhere begins.mem (misc?_of_tag (begins.append y)) secondRead
  have typed' : optionalDoctype (a ++ b ++ v ++ y) = (typed, b ++ v ++ y) ∧
      misc? (a ++ b ++ v ++ y) = none := by
    cases present : doctype? (a ++ b ++ v ++ x) with
    | some found =>
      -- The document type is read there, too, and nothing else begins as it does.
      rw [optionalDoctype_of_some present] at typeRead
      have moved := doctype?_elsewhere y (typeRead ▸ present)
      obtain ⟨tail, same⟩ := doctype?_front moved
      exact ⟨optionalDoctype_of_some moved, same ▸ misc?_of_doctype tail⟩
    | none =>
      -- The first pieces have ended at the tag: there is nothing left to read in front of it.
      have stops : misc? (a ++ b ++ v ++ x) = none := by
        simpa only [firstRead] using miscs_stops (w ++ x)
      rw [optionalDoctype_of_none present, Prod.mk.injEq] at typeRead
      obtain ⟨rfl, left⟩ := typeRead
      rw [← left, miscs_of_none stops, Prod.mk.injEq] at secondRead
      have short := congrArg List.length secondRead.2
      simp only [List.length_append] at short
      obtain rfl : a = [] := List.length_eq_zero_iff.1 (by omega)
      obtain rfl : b = [] := List.length_eq_zero_iff.1 (by omega)
      exact ⟨optionalDoctype_of_none (doctype?_of_tag (begins.append y)),
        misc?_of_tag (begins.append y)⟩
  have first' := miscs_elsewhere (v := a ++ b ++ v) (List.mem_append_right _ begins.mem) typed'.2
    firstRead
  simp only [afterDeclaration, first', typed'.1, second']

theorem afterDeclaration_suffix (s : List Char) : (afterDeclaration s).2 <:+ s :=
  ((miscs_suffix _).trans (optionalDoctype_suffix _)).trans (miscs_suffix s)

theorem afterDeclaration_source (s : List Char) :
    (afterDeclaration s).1.flatMap Leaf.text ++ (afterDeclaration s).2 = s := by
  simp only [afterDeclaration, List.flatMap_append, List.append_assoc, miscs_source,
    optionalDoctype_source]

/-- Where a tag follows the leaves, these do not begin with a declaration. -/
theorem declaration?_of_afterDeclaration {s v : List Char} {leaves : List Leaf}
    (begins : BeginsTag v) (read : afterDeclaration s = (leaves, v)) : declaration? s = none := by
  refine Option.eq_none_iff_forall_ne_some.2 ?_
  intro rest declared
  have stops := misc?_of_declaration declared
  obtain ⟨c, tail, rfl, -⟩ := declaration?_front declared
  have missing : doctype? ("<?xml".toList ++ c :: tail) = none := rfl
  rw [afterDeclaration_of_none stops missing, Prod.mk.injEq] at read
  obtain ⟨d, body, same, name⟩ := begins
  rw [← read.2] at same
  simp only [List.cons.injEq, String.reduceToList, List.cons_append] at same
  exact absurd (same.2.1 ▸ name) (by decide)

theorem prolog_of_parts {s s₁ s₂ s₃ after : List Char} {mark blanks declared others : List Leaf}
    (first : optionalLeaf .byteOrderMark byteOrderMark? s = (mark, s₁))
    (second : optionalLeaf .space space? s₁ = (blanks, s₂))
    (third : optionalLeaf .declaration declaration? s₂ = (declared, s₃))
    (fourth : afterDeclaration s₃ = (others, after)) :
    prolog s = (mark ++ blanks ++ declared ++ others, after) := by
  simp only [afterDeclaration, optionalDoctype, Prod.mk.injEq] at fourth
  simp only [prolog, first, second, third, ← fourth.1, ← fourth.2, List.append_assoc]

theorem prolog_eq {s after : List Char} {before : List Leaf} (read : prolog s = (before, after)) :
    ∃ mark s₁ blanks s₂ declared s₃ others,
      optionalLeaf .byteOrderMark byteOrderMark? s = (mark, s₁) ∧
      optionalLeaf .space space? s₁ = (blanks, s₂) ∧
      optionalLeaf .declaration declaration? s₂ = (declared, s₃) ∧
      afterDeclaration s₃ = (others, after) ∧
      before = mark ++ blanks ++ declared ++ others := by
  rcases first : optionalLeaf .byteOrderMark byteOrderMark? s with ⟨mark, s₁⟩
  rcases second : optionalLeaf .space space? s₁ with ⟨blanks, s₂⟩
  rcases third : optionalLeaf .declaration declaration? s₂ with ⟨declared, s₃⟩
  rcases fourth : afterDeclaration s₃ with ⟨others, left⟩
  have whole := prolog_of_parts first second third fourth
  rw [read, Prod.mk.injEq] at whole
  obtain ⟨rfl, rfl⟩ := whole
  exact ⟨mark, s₁, blanks, s₂, declared, s₃, others, rfl, second, third, fourth, rfl⟩

/-- The leaves of the prolog and the text behind them are the whole text. -/
theorem prolog_source {s after : List Char} {before : List Leaf}
    (read : prolog s = (before, after)) : before.flatMap Leaf.text ++ after = s := by
  obtain ⟨_, _, _, _, _, _, _, first, second, third, fourth, rfl⟩ := prolog_eq read
  have last := fourth ▸ afterDeclaration_source _
  have middle := third ▸ optionalLeaf_source .declaration declaration?_sealed.bounded _
  have front := second ▸ optionalLeaf_source .space space?_bounded _
  have start :=
    first ▸ optionalLeaf_source .byteOrderMark byteOrderMark?_sealed.bounded _
  simp only [List.flatMap_append, List.append_assoc]
  rw [last, middle, front, start]

/-- The same prolog is read in front of every text that begins with the same tag. -/
theorem prolog_elsewhere {w v x : List Char} {before : List Leaf} (y : List Char)
    (begins : BeginsTag v) (read : prolog (w ++ x) = (before, v ++ x)) :
    prolog (w ++ y) = (before, v ++ y) := by
  have nonempty : v ≠ [] := List.ne_nil_of_mem begins.mem
  obtain ⟨mark, s₁, blanks, s₂, declared, s₃, others, first, second, third, fourth, rfl⟩ :=
    prolog_eq read
  obtain ⟨c, rfl⟩ := fourth ▸ afterDeclaration_suffix s₃
  obtain ⟨b, rfl⟩ :=
    third ▸ optionalLeaf_suffix .declaration declaration?_sealed.bounded s₂
  obtain ⟨a, rfl⟩ := second ▸ optionalLeaf_suffix .space space?_bounded s₁
  simp only [← List.append_assoc] at first second third fourth
  -- from the last part to the first, as each is told what follows it
  have fourth' := afterDeclaration_elsewhere y begins fourth
  have third' := optionalLeaf_elsewhere declaration?_sealed.bounded (by simp [nonempty])
    (fun _ => declaration?_of_afterDeclaration (begins.append y) fourth') third
  have second' := optionalLeaf_elsewhere (y := y) space?_bounded (by simp [nonempty])
    (space?_stays (by simp [nonempty])) second
  have first' := optionalLeaf_elsewhere (y := y) byteOrderMark?_sealed.bounded
    (by simp [nonempty]) (byteOrderMark?_stays (by simp [nonempty])) first
  exact prolog_of_parts first' second' third' fourth'

end ManifestOrder.Xml
