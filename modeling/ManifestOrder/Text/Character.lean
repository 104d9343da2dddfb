/-!
# Characters

What the readers ask of a character: the classes it is in, the blanks around a text, the number that
a digit stands for, and its capital form.

A class of a standard is a list of ranges of code points, the first and the last one of each
included.
-/

namespace ManifestOrder.Text

/-! ## Classes given by ranges -/

def inRanges (ranges : List (Nat × Nat)) (c : Char) : Bool :=
  ranges.any fun range => decide (range.1 ≤ c.toNat) && decide (c.toNat ≤ range.2)

theorem inRanges_iff {ranges : List (Nat × Nat)} {c : Char} :
    inRanges ranges c = true ↔ ∃ range ∈ ranges, range.1 ≤ c.toNat ∧ c.toNat ≤ range.2 := by
  simp [inRanges]

/-! ## Blanks

The blanks that are dropped around an element's text: all white space of Unicode, and the four
information separators. Markup knows only four of them as white space.
-/

def blankRanges : List (Nat × Nat) :=
  [(0x9, 0xD), (0x1C, 0x20), (0x85, 0x85), (0xA0, 0xA0), (0x1680, 0x1680), (0x2000, 0x200A),
   (0x2028, 0x2029), (0x202F, 0x202F), (0x205F, 0x205F), (0x3000, 0x3000)]

def isBlank (c : Char) : Bool :=
  inRanges blankRanges c

/-- The text without the blanks at its two ends. -/
def trim (text : List Char) : List Char :=
  ((text.dropWhile isBlank).reverse.dropWhile isBlank).reverse

/-- The text neither begins nor ends with a blank. -/
structure Trimmed (text : List Char) : Prop where
  front : ∀ c ∈ text.head?, isBlank c = false
  back : ∀ c ∈ text.getLast?, isBlank c = false

theorem trimmed_nil : Trimmed [] :=
  ⟨by simp, by simp⟩

theorem dropWhile_head (text : List Char) :
    ∀ c ∈ (text.dropWhile isBlank).head?, isBlank c = false := by
  intro c first
  have unmarked := List.head?_dropWhile_not isBlank text
  rw [Option.mem_def.1 first] at unmarked
  exact unmarked

theorem trim_trimmed (text : List Char) : Trimmed (trim text) := by
  refine ⟨?_, ?_⟩
  · -- Blanks at the back are dropped from a text that begins with no blank.
    intro c first
    rw [trim, List.head?_reverse] at first
    have behind : ∀ c ∈ (text.dropWhile isBlank).reverse.getLast?, isBlank c = false := by
      rw [List.getLast?_reverse]
      exact dropWhile_head text
    obtain ⟨front, same⟩ :=
      List.dropWhile_suffix (l := (text.dropWhile isBlank).reverse) isBlank
    refine behind c ?_
    rw [← same, Option.mem_def, List.getLast?_append, Option.mem_def.1 first]
    rfl
  · rw [trim, List.getLast?_reverse]
    exact dropWhile_head _

/-! ## Digits -/

def isHexDigit (c : Char) : Bool :=
  c.isDigit || decide ('a' ≤ c) && decide (c ≤ 'f') || decide ('A' ≤ c) && decide (c ≤ 'F')

def digitValue (c : Char) : Nat :=
  if c.isDigit then c.toNat - '0'.toNat
  else if c.isUpper then c.toNat - 'A'.toNat + 10
  else c.toNat - 'a'.toNat + 10

/-- The number that digits of a base stand for, the highest first. -/
def numberOf (base : Nat) (digits : List Char) : Nat :=
  digits.foldl (fun n c => n * base + digitValue c) 0

/-- The last `width` hexadecimal digits of `n`, in lower case. -/
def hexDigits (width n : Nat) : String :=
  String.ofList ((List.range width).reverse.map fun i => Nat.digitChar (n / Nat.pow 16 i % 16))

/-! ## Capitals

Severity words are read in any case. Only capitals of ASCII can make up a known word, so a character
whose capital form is not in ASCII is left as it is.
-/

/-- The capital form of a character, where that is made of ASCII letters. The dotless i, the long s
and the ligatures are the characters outside ASCII that have one. -/
def capital (c : Char) : List Char :=
  match c.toNat with
  | 0xDF => ['S', 'S']
  | 0x131 => ['I']
  | 0x17F => ['S']
  | 0xFB00 => ['F', 'F']
  | 0xFB01 => ['F', 'I']
  | 0xFB02 => ['F', 'L']
  | 0xFB03 => ['F', 'F', 'I']
  | 0xFB04 => ['F', 'F', 'L']
  | 0xFB05 => ['S', 'T']
  | 0xFB06 => ['S', 'T']
  | _ => [c.toUpper]

def capitals (word : String) : String :=
  String.ofList (word.toList.flatMap capital)

end ManifestOrder.Text
