import ManifestOrder.Xml.Attribute

/-!
# Processing instructions

An instruction starts with a target. A target whose first letters are `xml`, in any case, is taken
only when a further character of a name follows, and then one more character belongs to the target
whatever it is. An instruction with a body ends in the line of its body, and a line feed must follow
it.

Outside the root element the targets `xml-model` and `xml-stylesheet` start an instruction whose
body is a list of attributes.
-/

namespace ManifestOrder.Xml

open Text

/-- Where an instruction stands: around the root element, or within it. -/
inductive Place where
  | prolog
  | content
deriving DecidableEq, Repr

/-- How the target of an instruction is read. -/
inductive Target where
  | plain (rest : List Char)
  /-- The instruction has one of the two reserved targets. -/
  | reserved (name : String)
  | refused
deriving DecidableEq, Repr

/-- What follows the longest common beginning of a word and a text, and whether it is the whole
word. -/
def afterCommon : List Char → List Char → Bool × List Char
  | [], s => (true, s)
  | _ :: _, [] => (false, [])
  | c :: word, d :: s => if c = d then afterCommon word s else (false, d :: s)

/-- The target after `xml-`. What was compared with the reserved words stays read. -/
def reservedTarget (s : List Char) : Target :=
  match afterCommon "model".toList s with
  | (true, _) => .reserved "xml-model"
  | (false, s) =>
    match afterCommon "stylesheet".toList s with
    | (true, _) => .reserved "xml-stylesheet"
    | (false, s) => .plain ((s.drop 1).dropWhile isTagNameChar)

/-- The target after its first two letters, when these begin `xml`. -/
def targetAfterXM (place : Place) (s : List Char) : Target :=
  match s with
  | [] => .plain []
  | l :: s =>
    if l = 'l' || l = 'L' then
      match s with
      | [] => .refused
      | c :: s =>
        if !isTagNameChar c then .refused
        else if c = '-' && place = .prolog then reservedTarget s
        else .plain ((s.drop 1).dropWhile isTagNameChar)
    else .plain (s.dropWhile isTagNameChar)

/-- The target at the front of `s`, the opening mark of the instruction being read. -/
def target (place : Place) (s : List Char) : Target :=
  match s with
  | [] => .refused
  | c :: s =>
    if !(Text.isLetter c || c = '_' || c = ':') then .refused
    else if c = 'x' || c = 'X' then
      match s with
      | [] => .plain []
      | m :: tail =>
        if m = 'm' || m = 'M' then targetAfterXM place tail else .plain (s.dropWhile isTagNameChar)
    else .plain (s.dropWhile isTagNameChar)

/-- Spaces, and then a line feed: what must stand behind an instruction with a body. -/
def lineEnds (s : List Char) : Bool :=
  (s.dropWhile (· = ' ')).head? = some '\n'

/-- What follows the instruction whose target has been read. -/
def afterTarget? (s : List Char) : Option (List Char) :=
  match word? "?>" s with
  | some rest => some rest
  | none =>
    ((space? s).bind fun body =>
      word? "?>" (body.dropWhile fun c => c != '\n' && c != '?')).filter lineEnds

/-- What follows an instruction with the reserved target `name`, its opening mark being read. The
name must end there. -/
def afterReserved? (name : String) (s : List Char) : Option (List Char) :=
  if s.takeWhile isNameChar = name.toList then
    word? "?>" (skipAttributes (s.dropWhile isNameChar))
  else none

def instruction? (place : Place) (s : List Char) : Option (List Char) :=
  (word? "<?" s).bind fun inner =>
    match target place inner with
    | .plain rest => afterTarget? rest
    | .reserved name => afterReserved? name inner
    | .refused => none

/-! ## What is left of an instruction -/

theorem afterCommon_suffix (word s : List Char) : (afterCommon word s).2 <:+ s := by
  induction word generalizing s with
  | nil => exact List.suffix_refl s
  | cons c word ih =>
    cases s with
    | nil => exact List.suffix_refl _
    | cons d s =>
      simp only [afterCommon]
      split
      · exact (ih s).trans (List.suffix_cons d s)
      · exact List.suffix_refl _

theorem reservedTarget_suffix {s rest : List Char} (read : reservedTarget s = .plain rest) :
    rest <:+ s := by
  unfold reservedTarget at read
  have first := afterCommon_suffix "model".toList s
  split at read
  · simp at read
  · rename_i middle same
    rw [same] at first
    have second := afterCommon_suffix "stylesheet".toList middle
    split at read
    · simp at read
    · rename_i last same'
      rw [same'] at second
      injection read with read
      exact read ▸ ((List.dropWhile_suffix _).trans (List.drop_suffix 1 last)).trans
        (second.trans first)

theorem targetAfterXM_suffix {place : Place} {s rest : List Char}
    (read : targetAfterXM place s = .plain rest) : rest <:+ s := by
  unfold targetAfterXM at read
  split at read
  · injection read with read
    exact read ▸ List.suffix_refl _
  · rename_i l tail
    split at read
    · split at read
      · simp at read
      · rename_i c after
        have outer := (List.suffix_cons c after).trans (List.suffix_cons l (c :: after))
        split at read
        · simp at read
        · split at read
          · exact (reservedTarget_suffix read).trans outer
          · injection read with read
            exact read ▸ ((List.dropWhile_suffix _).trans (List.drop_suffix 1 after)).trans outer
    · injection read with read
      exact read ▸ (List.dropWhile_suffix _).trans (List.suffix_cons l tail)

theorem target_suffix {place : Place} {s rest : List Char}
    (read : target place s = .plain rest) : rest <:+ s := by
  unfold target at read
  split at read
  · simp at read
  · rename_i c tail
    split at read
    · simp at read
    · split at read
      · split at read
        · injection read with read
          exact read ▸ List.nil_suffix
        · rename_i m after
          split at read
          · exact (targetAfterXM_suffix read).trans
              ((List.suffix_cons m after).trans (List.suffix_cons c (m :: after)))
          · injection read with read
            exact read ▸ (List.dropWhile_suffix _).trans (List.suffix_cons c (m :: after))
      · injection read with read
        exact read ▸ (List.dropWhile_suffix _).trans (List.suffix_cons c tail)

theorem afterTarget?_suffix {s rest : List Char} (read : afterTarget? s = some rest) :
    rest <:+ s := by
  unfold afterTarget? at read
  split at read
  · rename_i closed
    exact Option.some.inj read ▸ word?_suffix closed
  · obtain ⟨read, -⟩ := Option.filter_eq_some_iff.1 read
    obtain ⟨body, blanks, closed⟩ := Option.bind_eq_some_iff.1 read
    exact (word?_suffix closed).trans
      ((List.dropWhile_suffix _).trans (run?_rest blanks).suffix)

theorem afterReserved?_suffix {name : String} {s rest : List Char}
    (read : afterReserved? name s = some rest) : rest <:+ s := by
  unfold afterReserved? at read
  split at read
  · exact (word?_suffix read).trans
      ((skipAttributes_suffix _).trans (List.dropWhile_suffix isNameChar))
  · simp at read

theorem instruction?_rest {place : Place} {s rest : List Char}
    (read : instruction? place s = some rest) : IsRestOf rest s := by
  obtain ⟨inner, mark, ending⟩ := Option.bind_eq_some_iff.1 read
  refine IsRestOf.of_suffix ?_ (word?_rest (by decide) mark)
  split at ending
  · rename_i same
    exact (afterTarget?_suffix ending).trans (target_suffix same)
  · exact afterReserved?_suffix ending
  · simp at ending

end ManifestOrder.Xml
