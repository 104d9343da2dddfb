import ManifestOrder.Xml.Lexeme

/-!
# Comments, text runs and CDATA sections

A comment ends at the first double hyphen, and that must be followed by `>`.

Text runs and CDATA sections look for the mark `]]>`, both in the same peculiar way: a bracket that
turns out not to begin the mark is taken together with the character after it, so `]]]>` does not
hold the mark. A text run must not hold the mark except at its very start; a CDATA section ends with
it, but not at its very start.

Main statements: `comment?_rest`, `textRun?_rest` and `cdata?_rest`, something is always read.
-/

namespace ManifestOrder.Xml

open Text

/-! ## Comments -/

/-- What follows the comment whose opening mark has been read. -/
def afterComment? : List Char → Option (List Char)
  | '-' :: '-' :: s => word? ">" s
  | _ :: s => afterComment? s
  | [] => none

def comment? (s : List Char) : Option (List Char) :=
  (word? "<!--" s).bind afterComment?

theorem afterComment?_rest {s rest : List Char} (read : afterComment? s = some rest) :
    IsRestOf rest s := by
  fun_induction afterComment? s with
  | case1 s => exact .cons _ ((word?_suffix read).trans (List.suffix_cons _ _))
  | case2 c s _ ih => exact .cons _ (ih read).suffix
  | case3 => simp at read

theorem comment?_rest {s rest : List Char} (read : comment? s = some rest) : IsRestOf rest s := by
  obtain ⟨body, mark, ending⟩ := Option.bind_eq_some_iff.1 read
  exact (afterComment?_rest ending).after_suffix (word?_suffix mark)

/-! ## The mark -/

/-- How much of the mark has just been read. After `passed`, the mark was at the start of a text run
and the next character is taken whatever it is. -/
inductive Mark where
  | none
  | bracket
  | brackets
  | passed
deriving DecidableEq, Repr

structure Progress where
  /-- Something other than brackets has been read. -/
  started : Bool := false
  mark : Mark := .none
deriving DecidableEq, Repr

namespace Progress

/-- The character completes the mark. -/
def closes (p : Progress) (c : Char) : Bool :=
  p.mark = .brackets && c = '>'

/-- The progress after a character that does not complete the mark. -/
def next (p : Progress) (c : Char) : Progress :=
  match p.mark with
  | .none => if c = ']' then ⟨p.started, .bracket⟩ else ⟨true, .none⟩
  | .bracket => if c = ']' then ⟨p.started, .brackets⟩ else ⟨true, .none⟩
  | .brackets => ⟨true, .none⟩
  | .passed => ⟨true, .none⟩

end Progress

/-! ## Text runs -/

def isTextChar (c : Char) : Bool :=
  c != '<' && c != '&'

/-- How the scan of a text run ends: before markup, or broken off behind a misplaced mark. -/
inductive TextEnd where
  | whole (rest : List Char)
  | broken (rest : List Char)
deriving DecidableEq, Repr

def TextEnd.rest : TextEnd → List Char
  | .whole rest => rest
  | .broken rest => rest

def scanText (p : Progress) : List Char → TextEnd
  | [] => .whole []
  | c :: s =>
    if !isTextChar c then .whole (c :: s)
    else if p.closes c then
      if p.started then .broken s else scanText ⟨false, .passed⟩ s
    else scanText (p.next c) s

/-- A text run at the front of a text, and whether it counts as a comment: a run that is broken off
right before a comment becomes one with it. -/
def textRun? : List Char → Option (Bool × List Char)
  | [] => none
  | c :: s =>
    if !isTextChar c then none
    else
      match scanText {} (c :: s) with
      | .whole rest => some (false, rest)
      | .broken rest => (comment? rest).map (true, ·)

theorem scanText_suffix (p : Progress) (s : List Char) : (scanText p s).rest <:+ s := by
  induction s generalizing p with
  | nil => simp [scanText, TextEnd.rest]
  | cons c s ih =>
    simp only [scanText]
    split
    · exact List.suffix_refl _
    · split
      · split
        · exact List.suffix_cons c s
        · exact (ih _).trans (List.suffix_cons c s)
      · exact (ih _).trans (List.suffix_cons c s)

theorem scanText_cons_rest {p : Progress} {c : Char} {s : List Char} (plain : isTextChar c = true) :
    IsRestOf (scanText p (c :: s)).rest (c :: s) := by
  simp only [scanText, plain, Bool.not_true, Bool.false_eq_true, if_false]
  split
  · split
    · exact .cons c (List.suffix_refl s)
    · exact .cons c (scanText_suffix _ s)
  · exact .cons c (scanText_suffix _ s)

theorem textRun?_rest {s rest : List Char} {isComment : Bool}
    (read : textRun? s = some (isComment, rest)) : IsRestOf rest s := by
  cases s with
  | nil => simp [textRun?] at read
  | cons c s =>
    simp only [textRun?] at read
    split at read
    · simp at read
    · rename_i plain
      have left := scanText_cons_rest (p := {}) (s := s) (by simpa using plain)
      split at read
      · rename_i same
        rw [same] at left
        simp only [Option.some.injEq, Prod.mk.injEq] at read
        exact read.2 ▸ left
      · rename_i same
        rw [same] at left
        obtain ⟨_, ending, pair⟩ := Option.map_eq_some_iff.1 read
        simp only [Prod.mk.injEq] at pair
        exact (pair.2 ▸ comment?_rest ending).trans left

/-! ## CDATA sections -/

/-- What follows the section whose opening mark has been read, when its end is found. -/
def scanCdata (p : Progress) : List Char → Option (List Char)
  | [] => none
  | c :: s => if p.closes c && p.started then some s else scanCdata (p.next c) s

/-- A section whose end is not found is empty if the mark follows at once. -/
def cdata? (s : List Char) : Option (List Char) :=
  (word? "<![CDATA[" s).bind fun body =>
    match scanCdata {} body with
    | some rest => some rest
    | none => word? "]]>" body

theorem scanCdata_suffix {p : Progress} {s rest : List Char} (read : scanCdata p s = some rest) :
    rest <:+ s := by
  induction s generalizing p with
  | nil => simp [scanCdata] at read
  | cons c s ih =>
    simp only [scanCdata] at read
    split at read
    · exact Option.some.inj read ▸ List.suffix_cons c s
    · exact (ih read).trans (List.suffix_cons c s)

theorem cdata?_rest {s rest : List Char} (read : cdata? s = some rest) : IsRestOf rest s := by
  obtain ⟨body, mark, ending⟩ := Option.bind_eq_some_iff.1 read
  refine IsRestOf.of_suffix ?_ (word?_rest (by decide) mark)
  split at ending
  · rename_i found
    exact Option.some.inj ending ▸ scanCdata_suffix found
  · exact word?_suffix ending

end ManifestOrder.Xml
