/-!
# Positions and byte offsets

A position counts the characters and the line feeds before it; the first line is line 1.

A text is stored as UTF-8 and edited by characters. `byteTable` names for every byte the character
it belongs to, and has one more entry for the end of the text.
-/

namespace ManifestOrder.Text

/-! ## Positions -/

structure Position where
  offset : Nat := 0
  line : Nat := 1
deriving DecidableEq, Repr

/-- The position after `text`, when `text` starts at `p`. -/
def Position.after (p : Position) (text : List Char) : Position :=
  ⟨p.offset + text.length, p.line + text.count '\n'⟩

@[simp] theorem Position.after_nil (p : Position) : p.after [] = p := rfl

@[simp] theorem Position.after_append (p : Position) (first second : List Char) :
    p.after (first ++ second) = (p.after first).after second := by
  simp [Position.after, Nat.add_assoc]

/-! ## Byte offsets -/

def byteTable (text : List Char) : List Nat :=
  (text.zipIdx.flatMap fun (c, index) => List.replicate c.utf8Size index) ++ [text.length]

/-- Whether every character is one byte, so that the two kinds of offset are the same. -/
def isSingleByte (text : List Char) : Bool :=
  text.all fun c => c.utf8Size == 1

/-- The entry at an index, where a negative index counts from the end. -/
def entryFromEnd? (table : List Nat) (index : Int) : Option Nat :=
  if 0 ≤ index then table[index.toNat]?
  else if -table.length ≤ index then table[(table.length + index).toNat]?
  else none

/-- The character offset of a byte offset; `none` when it is outside a text that needs the table.
A text of single bytes needs none, and an offset into it is left as it is, in range or not. -/
def charOffset? (text : List Char) (offset : Int) : Option Int :=
  if isSingleByte text then some offset
  else (entryFromEnd? (byteTable text) offset).map Int.ofNat

end ManifestOrder.Text
