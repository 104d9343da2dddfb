/-!
# Glob patterns

A pattern matches a whole name: a star any run of characters, a question mark one character, a set
in square brackets one of its members or, with an exclamation mark in front, one that is no member.
A bracket that is not closed stands for itself.

A hyphen in a set makes a range of the characters beside it. The search for such hyphens starts
behind the first member, and goes on three characters behind each one found. This cuts a set into
chunks, with a range between the last character of one and the first of the next. A range whose ends
are in the wrong order is taken out together with them, which joins its two chunks.
-/

namespace ManifestOrder.Glob

inductive Item where
  | any
  | one
  | char (c : Char)
  | set (negated : Bool) (chunks : List (List Char))
deriving DecidableEq, Repr

/-! ## Sets -/

/-- The chunks of a set. `skip` characters are passed before a hyphen counts; `chunk` is the chunk
read so far, the last character first. -/
def chunksFrom (skip : Nat) (chunk : List Char) : List Char → List (List Char)
  | [] => [chunk.reverse]
  | c :: s =>
    match skip with
    | 0 => if c = '-' then chunk.reverse :: chunksFrom 2 [] s else chunksFrom 0 (c :: chunk) s
    | skip + 1 => chunksFrom skip (c :: chunk) s

/-- A hyphen at the very end is a member: it goes to the chunk before it. -/
def closeLastChunk : List (List Char) → List (List Char)
  | [chunk, []] => [chunk ++ ['-']]
  | chunk :: rest => chunk :: closeLastChunk rest
  | [] => []

def isReversedRange (left right : List Char) : Bool :=
  match left.getLast?, right.head? with
  | some low, some high => decide (high < low)
  | _, _ => false

/-- Takes the reversed ranges out, from the end to the front. -/
def joinReversed : List (List Char) → List (List Char)
  | [] => []
  | chunk :: rest =>
    match joinReversed rest with
    | [] => [chunk]
    | next :: others =>
      if isReversedRange chunk next then (chunk.dropLast ++ next.drop 1) :: others
      else chunk :: next :: others

/-- The set between two brackets. That it is negated is seen when its ranges have been checked, so
an exclamation mark that has become the first character negates too. When nothing stands between
the mark and a hyphen, the hyphen is a member. -/
def setOf (members : List Char) : Item :=
  let skip := if members.head? = some '!' then 2 else 1
  let chunks := joinReversed (closeLastChunk (chunksFrom skip [] members))
  match chunks with
  | ['!'] :: next :: rest => .set true (('-' :: next) :: rest)
  | ('!' :: chunk) :: rest => .set true (chunk :: rest)
  | chunks => .set false chunks

/-- The ranges between neighbouring chunks hold the character. -/
def inChunkRanges (c : Char) : List (List Char) → Bool
  | left :: right :: rest =>
    (match left.getLast?, right.head? with
      | some low, some high => decide (low ≤ c) && decide (c ≤ high)
      | _, _ => false) || inChunkRanges c (right :: rest)
  | _ => false

def Item.admits (item : Item) (c : Char) : Bool :=
  match item with
  | .any => true
  | .one => true
  | .char d => c = d
  | .set negated chunks =>
    (chunks.any (·.contains c) || inChunkRanges c chunks) != negated

/-! ## Patterns -/

/-- One character, if the text starts with it. -/
def optionalChar (c : Char) (s : List Char) : List Char × List Char :=
  if s.head? = some c then ([c], s.drop 1) else ([], s)

/-- The members of the set at the front of a text, its opening bracket being read, and what follows
its closing bracket. A closing bracket right at the front of the set is a member. -/
def setMembers? (s : List Char) : Option (List Char × List Char) :=
  let (mark, body) := optionalChar '!' s
  let (first, tail) := optionalChar ']' body
  match tail.dropWhile (· != ']') with
  | [] => none
  | _ :: rest => some (mark ++ first ++ tail.takeWhile (· != ']'), rest)

theorem optionalChar_length_le (c : Char) (s : List Char) :
    (optionalChar c s).2.length ≤ s.length := by
  unfold optionalChar
  split
  · simp
  · exact Nat.le_refl _

theorem setMembers?_length {s members rest : List Char}
    (read : setMembers? s = some (members, rest)) : rest.length < s.length := by
  have body := optionalChar_length_le '!' s
  have tail := optionalChar_length_le ']' (optionalChar '!' s).2
  simp only [setMembers?] at read
  split at read
  · simp at read
  · rename_i c left found
    have shorter :=
      (List.dropWhile_suffix (l := (optionalChar ']' (optionalChar '!' s).2).2)
        (· != ']')).length_le
    rw [found, List.length_cons] at shorter
    simp only [Option.some.injEq, Prod.mk.injEq] at read
    obtain ⟨-, rfl⟩ := read
    omega

/-- The items of a pattern. Neighbouring stars are one. -/
def items (s : List Char) : List Item :=
  match s with
  | [] => []
  | '*' :: '*' :: rest => items ('*' :: rest)
  | '*' :: rest => .any :: items rest
  | '?' :: rest => .one :: items rest
  | '[' :: rest =>
    match read : setMembers? rest with
    | none => .char '[' :: items rest
    | some (members, left) =>
      have := setMembers?_length read
      setOf members :: items left
  | c :: rest => .char c :: items rest
termination_by s.length
decreasing_by all_goals simp only [List.length_cons]; omega

/-! ## Matching

Whether items match is found for all endings of a name at once, from the last item to the first, so
the work is the product of the two lengths and does not grow with the number of stars.
-/

/-- For each ending of a name, whether it is empty. -/
def emptyEndings : List Char → List Bool
  | [] => [true]
  | _ :: s => false :: emptyEndings s

/-- For each place in a list, whether something from there on holds. -/
def someFrom : List Bool → List Bool
  | [] => []
  | holds :: rest =>
    let below := someFrom rest
    (holds || below.headD false) :: below

/-- For each ending of a name, whether the item admits its first character and what is told of the
ending behind that holds. -/
def afterOne (item : Item) : List Char → List Bool → List Bool
  | c :: s, _ :: below => (item.admits c && below.headD false) :: afterOne item s below
  | _, _ => [false]

/-- For each ending of a name, whether the items match it. The whole name comes first. -/
def matchedEndings : List Item → List Char → List Bool
  | [], s => emptyEndings s
  | .any :: rest, s => someFrom (matchedEndings rest s)
  | item :: rest, s => afterOne item s (matchedEndings rest s)

def itemsMatch (items : List Item) (s : List Char) : Bool :=
  (matchedEndings items s).headD false

theorem matchedEndings_nil (items : List Item) :
    matchedEndings items [] = [itemsMatch items []] := by
  unfold itemsMatch
  induction items with
  | nil => rfl
  | cons item rest ih =>
    cases item <;> simp only [matchedEndings]
    case any => rw [ih]; rfl
    all_goals rfl

theorem matchedEndings_cons (items : List Item) (c : Char) (s : List Char) :
    matchedEndings items (c :: s) = itemsMatch items (c :: s) :: matchedEndings items s := by
  unfold itemsMatch
  induction items with
  | nil => rfl
  | cons item rest ih =>
    cases item <;> simp only [matchedEndings] <;> rw [ih] <;> rfl

@[simp] theorem itemsMatch_nil (s : List Char) : itemsMatch [] s = s.isEmpty := by
  cases s <;> rfl

theorem itemsMatch_any_nil (rest : List Item) :
    itemsMatch (.any :: rest) [] = itemsMatch rest [] := by
  change (someFrom (matchedEndings rest [])).headD false = _
  rw [matchedEndings_nil]
  exact Bool.or_false _

/-- A star takes nothing, or one more character. -/
theorem itemsMatch_any_cons (rest : List Item) (c : Char) (s : List Char) :
    itemsMatch (.any :: rest) (c :: s) =
      (itemsMatch rest (c :: s) || itemsMatch (.any :: rest) s) := by
  change (someFrom (matchedEndings rest (c :: s))).headD false = _
  rw [matchedEndings_cons]
  rfl

theorem itemsMatch_single_nil {item : Item} (single : item ≠ .any) (rest : List Item) :
    itemsMatch (item :: rest) [] = false := by
  cases item with
  | any => exact absurd rfl single
  | _ => rfl

/-- Any item but a star takes one character. -/
theorem itemsMatch_single_cons {item : Item} (single : item ≠ .any) (rest : List Item) (c : Char)
    (s : List Char) :
    itemsMatch (item :: rest) (c :: s) = (item.admits c && itemsMatch rest s) := by
  cases item with
  | any => exact absurd rfl single
  | _ =>
    change (afterOne _ (c :: s) (matchedEndings rest (c :: s))).headD false = _
    rw [matchedEndings_cons]
    rfl

/-- The pattern matches the whole name. -/
def accepts (pattern name : String) : Bool :=
  itemsMatch (items pattern.toList) name.toList

end ManifestOrder.Glob
