import ManifestOrder.Edit.Buffer

/-!
# Replacements as a substitution

1. `validate_eq_ok_iff`: a list of replacements is accepted exactly when it can be written from left
   to right with all spans inside the text, no two of them starting at the same place and none
   reaching into the next one. An empty span may touch its neighbours.
2. `apply_substitutes`: an accepted list is applied as one substitution. Each span of the old text
   is exchanged for its replacement, of whatever length, and what lies between the spans stays. The
   order in which the list is given does not matter.

The replacements are applied from the last to the first, so the text in front of a span is still the
old one when its turn comes. This is the invariant of the loop (`Separated.replaceAll`).
-/

namespace ManifestOrder.Edit

/-! ## Lists that can be applied -/

/-- From left to right, spans of a text of `length` characters that start at different places and do
not reach into each other. -/
structure Separated (length : Int) (list : List Replacement) : Prop where
  within : ∀ r ∈ list, r.span.Within length
  apart : list.Pairwise fun a b => a.span.start < b.span.start ∧ a.span.stop ≤ b.span.start

/-- An edit is applied before those that start further left, and before those that start with it
and end no further right. -/
theorem before_iff {a b : Replacement} :
    Replacement.before a b = true ↔ b.span.start < a.span.start ∨
      b.span.start = a.span.start ∧ b.span.stop ≤ a.span.stop := by
  simp only [Replacement.before, Bool.or_eq_true, Bool.and_eq_true, decide_eq_true_eq]

theorem clashes_iff {later earlier : Replacement} :
    Replacement.clashes later earlier = true ↔
      earlier.span.start < later.span.stop ∧ later.span.start < earlier.span.stop ∨
        earlier.span.start = later.span.start := by
  simp only [Replacement.clashes, Bool.or_eq_true, Span.overlaps_iff, decide_eq_true_eq]

theorem mergeSort_before (given : List Replacement) :
    (given.mergeSort Replacement.before).Pairwise fun a b => Replacement.before a b = true := by
  refine List.pairwise_mergeSort ?_ ?_ given
  · intro a b c
    simp only [before_iff]
    omega
  · intro a b
    simp only [Bool.or_eq_true, before_iff]
    omega

namespace Separated
variable {length : Int} {list : List Replacement}

theorem tail {r : Replacement} (separated : Separated length (r :: list)) :
    Separated length list :=
  ⟨(List.forall_mem_cons.1 separated.within).2, (List.pairwise_cons.1 separated.apart).2⟩

theorem eq_of_start (separated : Separated length list) {a b : Replacement} (a_mem : a ∈ list)
    (b_mem : b ∈ list) (same : a.span.start = b.span.start) : a = b := by
  refine List.Pairwise.forall_of_forall_of_flip
    (R := fun a b => a.span.start = b.span.start → a = b) (fun _ _ _ => rfl) ?_ ?_ a_mem b_mem same
  · exact separated.apart.imp fun apart same => absurd same (Int.ne_of_lt apart.1)
  · exact separated.apart.imp fun apart same => absurd same.symm (Int.ne_of_lt apart.1)

/-- There is one way to list the spans from left to right. -/
theorem eq_of_perm (separated : Separated length list) {other : List Replacement}
    (perm : other.Perm list)
    (sorted : other.Pairwise fun a b => a.span.start ≤ b.span.start) : other = list := by
  have ordered : list.Pairwise fun a b => a.span.start ≤ b.span.start :=
    separated.apart.imp fun apart => Int.le_of_lt apart.1
  refine List.Perm.eq_of_pairwise ?_ sorted ordered perm
  intro a b a_mem b_mem ahead behind
  exact separated.eq_of_start (perm.subset a_mem) b_mem (Int.le_antisymm ahead behind)

/-- The order of application is the one from right to left. -/
theorem mergeSort (separated : Separated length list) {given : List Replacement}
    (perm : list.Perm given) : given.mergeSort Replacement.before = list.reverse := by
  have reversed : list.reverse.Pairwise fun a b => Replacement.before a b = true := by
    rw [List.pairwise_reverse]
    exact separated.apart.imp fun apart => before_iff.2 (.inl apart.1)
  have same : (given.mergeSort Replacement.before).Perm list.reverse :=
    (List.mergeSort_perm given _).trans (perm.symm.trans (List.reverse_perm list).symm)
  -- Both are sorted, and two edits that may stand either way round have the same start.
  refine List.Perm.eq_of_pairwise ?_ (mergeSort_before given) reversed same
  intro a b a_mem b_mem ahead behind
  rw [before_iff] at ahead behind
  have inside := List.mem_reverse.1 (same.subset a_mem)
  exact separated.eq_of_start inside (List.mem_reverse.1 b_mem) (by omega)

end Separated

/-- In the order of application, with no span turned round, neighbours that do not clash keep all
spans apart. -/
theorem firstClash_eq_none_iff {ordered : List Replacement}
    (forward : ∀ r ∈ ordered, r.span.start ≤ r.span.stop)
    (sorted : ordered.Pairwise fun a b => Replacement.before a b = true) :
    Replacement.firstClash ordered = none ↔
      ordered.Pairwise fun later earlier =>
        earlier.span.start < later.span.start ∧ earlier.span.stop ≤ later.span.start := by
  induction ordered with
  | nil => simp [Replacement.firstClash]
  | cons later rest ih =>
    cases rest with
    | nil => simp [Replacement.firstClash]
    | cons earlier rest =>
      obtain ⟨ahead, sorted⟩ := List.pairwise_cons.1 sorted
      obtain ⟨upright, forward⟩ := List.forall_mem_cons.1 forward
      have order := before_iff.1 (ahead earlier List.mem_cons_self)
      rw [Replacement.firstClash]
      split
      · rename_i clash
        have touching := clashes_iff.1 clash
        constructor
        · simp
        · intro apart
          have := (List.pairwise_cons.1 apart).1 earlier List.mem_cons_self
          omega
      · rename_i free
        rw [ih forward sorted, @List.pairwise_cons _ _ later]
        have apart : earlier.span.start < later.span.start ∧
            earlier.span.stop ≤ later.span.start := by
          rw [clashes_iff] at free
          omega
        constructor
        · intro others
          refine ⟨List.forall_mem_cons.2 ⟨apart, ?_⟩, others⟩
          -- What lies left of the nearer span lies left of the further one as well.
          intro r member
          have := (List.pairwise_cons.1 others).1 r member
          omega
        · exact fun others => others.2

/-- What is accepted, and in which order it is applied. -/
theorem validate_eq_ok_iff {given ordered : List Replacement} {length : Int} :
    Replacement.validate given length = .ok ordered ↔
      ordered.Perm given ∧ Separated length ordered.reverse := by
  constructor
  · intro accepted
    unfold Replacement.validate at accepted
    simp only at accepted
    split at accepted
    · simp at accepted
    · rename_i inside
      split at accepted
      · simp at accepted
      · rename_i free
        obtain rfl := Except.ok.inj accepted
        have within : ∀ r ∈ given.mergeSort Replacement.before, r.span.Within length := by
          intro r member
          simpa using List.find?_eq_none.1 inside r member
        have apart := (firstClash_eq_none_iff (fun r member => (within r member).2.1)
          (mergeSort_before given)).1 free
        refine ⟨List.mergeSort_perm given _, ?_, List.pairwise_reverse.2 apart⟩
        exact fun r member => within r (List.mem_reverse.1 member)
  · rintro ⟨perm, separated⟩
    have ordered_eq : given.mergeSort Replacement.before = ordered := by
      rw [separated.mergeSort ((List.reverse_perm ordered).trans perm), List.reverse_reverse]
    have within : ∀ r ∈ ordered, r.span.Within length :=
      fun r member => separated.within r (List.mem_reverse.2 member)
    have inside : ordered.find? (fun r => !decide (r.span.Within length)) = none := by
      refine List.find?_eq_none.2 ?_
      intro r member
      simp [within r member]
    have apart := List.pairwise_reverse.1 separated.apart
    have sorted : ordered.Pairwise fun a b => Replacement.before a b = true :=
      apart.imp fun apart => before_iff.2 (.inl apart.1)
    have free := (firstClash_eq_none_iff (fun r member => (within r member).2.1) sorted).2 apart
    simp only [Replacement.validate, ordered_eq, inside, free]

/-- What is refused is refused for its spans. -/
def EditError.IsRange : EditError → Prop
  | .outside _ _ => True
  | .overlapping _ _ => True
  | _ => False

theorem validate_error {given : List Replacement} {length : Int} {e : EditError}
    (refused : Replacement.validate given length = .error e) : e.IsRange := by
  unfold Replacement.validate at refused
  simp only at refused
  split at refused
  · obtain rfl := Except.error.inj refused
    trivial
  · split at refused
    · obtain rfl := Except.error.inj refused
      trivial
    · simp at refused

/-- The order in which a list is given does not matter for its being accepted. -/
theorem validate_perm {given other ordered : List Replacement} {length : Int}
    (perm : given.Perm other) (accepted : Replacement.validate given length = .ok ordered) :
    Replacement.validate other length = .ok ordered := by
  obtain ⟨same, separated⟩ := validate_eq_ok_iff.1 accepted
  exact validate_eq_ok_iff.2 ⟨same.trans perm, separated⟩

/-! ## Substitution -/

/-- The text from `offset` on, in which the replacements, given from left to right, stand in place
of their spans. -/
def substitute (text : List Char) (offset : Nat) : List Replacement → List Char
  | [] => text.drop offset
  | r :: rest =>
    (text.take r.span.start.toNat).drop offset ++ r.text ++ substitute text r.span.stop.toNat rest

theorem drop_eq_append {text : List Char} {offset later : Nat} (forward : offset ≤ later) :
    text.drop offset = (text.take later).drop offset ++ text.drop later := by
  have further : text.drop later = (text.drop offset).drop (later - offset) := by
    rw [List.drop_drop, Nat.add_sub_cancel' forward]
  rw [List.drop_take, further, List.take_append_drop]

/-- A substitution leaves the text alone up to the first span. -/
theorem substitute_skip {text : List Char} {list : List Replacement} {offset later : Nat}
    (forward : offset ≤ later) (behind : ∀ r ∈ list, (later : Int) ≤ r.span.start) :
    substitute text offset list =
      (text.take later).drop offset ++ substitute text later list := by
  cases list with
  | nil => exact drop_eq_append forward
  | cons r rest =>
    have start := behind r List.mem_cons_self
    have cut : (text.take r.span.start.toNat).take later = text.take later := by
      rw [List.take_take, Nat.min_eq_left (by omega)]
    simp only [substitute]
    have split : (text.take r.span.start.toNat).drop offset =
        (text.take later).drop offset ++ (text.take r.span.start.toNat).drop later := by
      rw [drop_eq_append forward, cut]
    rw [split]
    simp only [List.append_assoc]

theorem replaceAll_append {b c : Buffer} {first : List Replacement}
    (done : b.replaceAll first = .ok c) (second : List Replacement) :
    b.replaceAll (first ++ second) = c.replaceAll second := by
  induction first generalizing b with
  | nil =>
    rw [Buffer.replaceAll, Except.ok.injEq] at done
    rw [done, List.nil_append]
  | cons r first ih =>
    rw [List.cons_append, Buffer.replaceAll] at *
    split at done
    · simp at done
    · rename_i next replaced
      exact ih done

/-- Overwriting a span behind which the text has changed already. -/
theorem replace_span {b : Buffer} {text back : List Char} {r : Replacement}
    (opened : b.inTransaction = true) (within : r.span.Within text.length)
    (changed : b.text = text.take r.span.stop.toNat ++ back) :
    b.replace r = .ok { b with text := text.take r.span.start.toNat ++ r.text ++ back } := by
  obtain ⟨low, forward, high⟩ := within
  have front : r.span.start.toNat ≤ r.span.stop.toNat := by omega
  have stop : (text.take r.span.stop.toNat).length = r.span.stop.toNat := by
    rw [List.length_take]
    omega
  have inside : r.span.Within b.text.length := by
    refine ⟨low, forward, ?_⟩
    rw [changed, List.length_append, stop]
    omega
  have spliced : splice b.text r.span.start.toNat r.span.stop.toNat r.text =
      text.take r.span.start.toNat ++ r.text ++ back := by
    rw [splice, changed, List.take_append_of_le_length (by omega), List.take_take,
      Nat.min_eq_left front, List.drop_left' stop]
  simp only [Buffer.replace, opened, inside, spliced, Bool.not_true, Bool.false_eq_true, if_false,
    if_true]

/-- Applied from the last to the first, the replacements leave the text up to `offset` alone and
turn what follows into the substitution. -/
theorem Separated.replaceAll {b : Buffer} {list : List Replacement}
    (separated : Separated b.text.length list) (opened : b.inTransaction = true) {offset : Nat}
    (behind : ∀ r ∈ list, (offset : Int) ≤ r.span.start) :
    b.replaceAll list.reverse =
      .ok { b with text := b.text.take offset ++ substitute b.text offset list } := by
  induction list generalizing offset with
  | nil =>
    rw [List.reverse_nil, Buffer.replaceAll, substitute, List.take_append_drop]
  | cons r rest ih =>
    have within := separated.within r List.mem_cons_self
    obtain ⟨low, forward, high⟩ := within
    have further : ∀ later ∈ rest, ((r.span.stop.toNat : Nat) : Int) ≤ later.span.start := by
      intro later member
      have := ((List.pairwise_cons.1 separated.apart).1 later member).2
      omega
    have others := ih separated.tail further
    have start := behind r List.mem_cons_self
    have kept : b.text.take offset ++ (b.text.take r.span.start.toNat).drop offset =
        b.text.take r.span.start.toNat := by
      have cut : b.text.take offset = (b.text.take r.span.start.toNat).take offset := by
        rw [List.take_take, Nat.min_eq_left (by omega)]
      rw [cut, List.take_append_drop]
    have replaced := @replace_span
      { b with text := b.text.take r.span.stop.toNat ++ substitute b.text r.span.stop.toNat rest }
      b.text _ r opened ⟨low, forward, high⟩ rfl
    rw [List.reverse_cons, replaceAll_append others, Buffer.replaceAll, replaced]
    simp only [Buffer.replaceAll, substitute]
    rw [← List.append_assoc, ← List.append_assoc, kept]

/-! ## Applying a list -/

theorem apply_of_accepted {b : Buffer} (closed : b.inTransaction = false)
    {given ordered : List Replacement}
    (accepted : Replacement.validate given b.text.length = .ok ordered) (name : Option String) :
    b.apply given name =
      .ok (({ b with text := substitute b.text 0 ordered.reverse } : Buffer).commit name b.text) := by
  obtain ⟨perm, separated⟩ := validate_eq_ok_iff.1 accepted
  rw [Buffer.apply]
  split
  · rename_i none
    -- No transaction is opened, which is the same as one that changes nothing.
    obtain rfl := List.isEmpty_iff.1 none
    obtain rfl := perm.eq_nil
    simp [substitute, Buffer.commit, ← closed]
  · have behind : ∀ r ∈ ordered.reverse, ((0 : Nat) : Int) ≤ r.span.start :=
      fun r member => (separated.within r member).1
    have replaced := @Separated.replaceAll { b with inTransaction := true } _ separated rfl 0 behind
    rw [List.reverse_reverse, List.take_zero, List.nil_append] at replaced
    simp only [accepted, Buffer.begin, closed, Bool.false_eq_true, if_false, replaced]
    rfl

theorem apply_of_refused {b : Buffer} {given : List Replacement} {e : EditError}
    (refused : Replacement.validate given b.text.length = .error e) (name : Option String) :
    b.apply given name = .error e := by
  have filled : given.isEmpty ≠ true := by
    intro none
    obtain rfl := List.isEmpty_iff.1 none
    have accepted : Replacement.validate [] b.text.length = .ok [] :=
      validate_eq_ok_iff.2 ⟨.nil, by simp, .nil⟩
    simp [accepted] at refused
  rw [Buffer.apply, if_neg filled]
  simp only [refused]

/-- An application fails in the check or because a transaction is open, and never half way. -/
theorem apply_eq_error {b : Buffer} {given : List Replacement} {name : Option String} {e : EditError}
    (failed : b.apply given name = .error e) :
    Replacement.validate given b.text.length = .error e ∨
      e = .transactionOpen ∧ b.inTransaction = true := by
  cases checked : Replacement.validate given b.text.length with
  | error cause =>
    obtain rfl := Except.error.inj ((apply_of_refused checked name).symm.trans failed)
    exact .inl rfl
  | ok ordered =>
    cases opened : b.inTransaction with
    | false =>
      rw [apply_of_accepted opened checked name] at failed
      cases failed
    | true =>
      unfold Buffer.apply at failed
      split at failed
      · cases failed
      · simp only [checked, Buffer.begin, opened, if_true] at failed
        exact .inr ⟨(Except.error.inj failed).symm, rfl⟩

/-- No replacement of an accepted list is out of range when its turn comes. -/
theorem replaceAll_within {b c : Buffer} {done rest : List Replacement} {r : Replacement}
    (replaced : b.replaceAll (done ++ r :: rest) = .ok c) :
    ∃ next, b.replaceAll done = .ok next ∧ r.span.Within next.text.length := by
  induction done generalizing b with
  | nil =>
    refine ⟨b, rfl, ?_⟩
    simp only [List.nil_append, Buffer.replaceAll, Buffer.replace] at replaced
    split at replaced
    · simp at replaced
    · rename_i next first
      split at first
      · simp at first
      · split at first
        · rename_i within
          exact within
        · simp at first
  | cons first done ih =>
    rw [List.cons_append, Buffer.replaceAll] at replaced
    split at replaced
    · simp at replaced
    · rename_i next edited
      rw [Buffer.replaceAll, edited]
      exact ih replaced

/-- An accepted list is applied as one substitution, no single replacement being out of range, and
what becomes of a list does not depend on the order in which it is given. -/
theorem apply_substitutes {b : Buffer} (closed : b.inTransaction = false)
    (given : List Replacement) (name : Option String) :
    (∀ ordered, Replacement.validate given b.text.length = .ok ordered →
      (∀ done r rest, ordered = done ++ r :: rest → ∃ next,
        Buffer.replaceAll { b with inTransaction := true } done = .ok next ∧
        r.span.Within next.text.length) ∧
      ∃ edited, b.apply given name = .ok edited ∧
        ∀ listed : List Replacement, listed.Perm given →
          (listed.Pairwise fun a b => a.span.start ≤ b.span.start) →
          edited = ({ b with text := substitute b.text 0 listed } : Buffer).commit name b.text) ∧
    ∀ other, given.Perm other →
      (∃ edited, b.apply given name = .ok edited ∧ b.apply other name = .ok edited) ∨
      ∃ e e', b.apply given name = .error e ∧ b.apply other name = .error e' ∧
        e.IsRange ∧ e'.IsRange := by
  constructor
  · intro ordered accepted
    obtain ⟨perm, separated⟩ := validate_eq_ok_iff.1 accepted
    refine ⟨?_, _, apply_of_accepted closed accepted name, ?_⟩
    · rintro done r rest rfl
      have replaced := @Separated.replaceAll { b with inTransaction := true } _ separated rfl 0
        (fun r member => (separated.within r member).1)
      rw [List.reverse_reverse] at replaced
      exact replaceAll_within replaced
    · intro listed same sorted
      have turned : listed.Perm ordered.reverse :=
        same.trans (perm.symm.trans (List.reverse_perm ordered).symm)
      rw [separated.eq_of_perm turned sorted]
  · intro other perm
    cases checked : Replacement.validate given b.text.length with
    | ok ordered =>
      refine .inl ⟨_, apply_of_accepted closed checked name, ?_⟩
      exact apply_of_accepted closed (validate_perm perm checked) name
    | error e =>
      refine .inr ⟨e, ?_⟩
      cases again : Replacement.validate other b.text.length with
      | ok ordered =>
        rw [validate_perm perm.symm again] at checked
        simp at checked
      | error e' =>
        exact ⟨e', apply_of_refused checked name, apply_of_refused again name,
          validate_error checked, validate_error again⟩

/-- A longer text for one character, an insertion, and a deletion that the insertion touches. -/
def touchingEdits : List Replacement :=
  [⟨⟨4, 5⟩, "xyz".toList⟩, ⟨⟨3, 3⟩, "+".toList⟩, ⟨⟨1, 3⟩, []⟩]

theorem apply_substitutes_touching : ∃ edited,
    Buffer.apply { text := "abcdef".toList } touchingEdits none = .ok edited ∧
    edited.text = "a+dxyzf".toList ∧
    Buffer.apply { text := "abcdef".toList } touchingEdits.reverse none = .ok edited := by
  obtain ⟨accepted, order⟩ :=
    apply_substitutes (b := { text := "abcdef".toList }) rfl touchingEdits none
  have separated : Separated "abcdef".toList.length touchingEdits.reverse :=
    ⟨by decide, by decide⟩
  obtain ⟨-, edited, done, result⟩ :=
    accepted touchingEdits (validate_eq_ok_iff.2 ⟨.refl _, separated⟩)
  refine ⟨edited, done, ?_, ?_⟩
  · rw [result touchingEdits.reverse (List.reverse_perm _) (by decide)]
    rfl
  · rcases order touchingEdits.reverse (List.reverse_perm _).symm with ⟨same, here, there⟩ | ⟨e, _, no, -⟩
    · rw [done] at here
      rw [there, here]
    · rw [done] at no
      cases no

end ManifestOrder.Edit
