import ManifestOrder.Text.ByteOffset

/-!
# Where a byte leads

`utf8Length` counts the bytes of a text. Each byte of a character leads to the offset of that
character (`byteTable_within`), so the byte that follows a front of the text leads to the number of
characters of the front, however many bytes each of them takes (`charOffset?_behind`).
-/

namespace ManifestOrder.Text

/-- The number of bytes of a text in UTF-8. -/
def utf8Length (text : List Char) : Nat :=
  (String.ofList text).utf8ByteSize

@[simp] theorem utf8Length_nil : utf8Length [] = 0 := rfl

@[simp] theorem utf8Length_append (first second : List Char) :
    utf8Length (first ++ second) = utf8Length first + utf8Length second := by
  rw [utf8Length, String.ofList_append, String.utf8ByteSize_append]
  rfl

@[simp] theorem utf8Length_cons (c : Char) (text : List Char) :
    utf8Length (c :: text) = c.utf8Size + utf8Length text := by
  rw [utf8Length, String.ofList_cons, String.utf8ByteSize_append, String.utf8ByteSize_singleton]
  rfl

/-- The entries of the table for a text whose first character has the offset `first`. -/
def byteEntries (first : Nat) (text : List Char) : List Nat :=
  (text.zipIdx first).flatMap fun (c, index) => List.replicate c.utf8Size index

theorem byteEntries_cons (first : Nat) (c : Char) (text : List Char) :
    byteEntries first (c :: text) =
      List.replicate c.utf8Size first ++ byteEntries (first + 1) text := rfl

theorem byteEntries_append (first : Nat) (front back : List Char) :
    byteEntries first (front ++ back) =
      byteEntries first front ++ byteEntries (first + front.length) back := by
  rw [byteEntries, List.zipIdx_append, List.flatMap_append]
  rfl

theorem byteEntries_length (first : Nat) (text : List Char) :
    (byteEntries first text).length = utf8Length text := by
  induction text generalizing first with
  | nil => rfl
  | cons c text ih =>
    rw [byteEntries_cons, List.length_append, List.length_replicate, ih, utf8Length_cons]

theorem byteTable_eq (text : List Char) : byteTable text = byteEntries 0 text ++ [text.length] :=
  rfl

/-- Each byte of a character leads to the offset of that character. -/
theorem byteTable_within (front back : List Char) {c : Char} {k : Nat} (inside : k < c.utf8Size) :
    (byteTable (front ++ c :: back))[utf8Length front + k]? = some front.length := by
  have behind : utf8Length front + k - (byteEntries 0 front).length = k := by
    rw [byteEntries_length]
    omega
  rw [byteTable_eq, byteEntries_append, List.append_assoc,
    List.getElem?_append_right (by rw [byteEntries_length]; omega), behind, byteEntries_cons,
    List.append_assoc, List.getElem?_append_left (by rw [List.length_replicate]; exact inside),
    List.getElem?_replicate, if_pos inside, Nat.zero_add]

theorem byteTable_end (text : List Char) :
    (byteTable text)[utf8Length text]? = some text.length := by
  rw [byteTable_eq, ← byteEntries_length 0 text, List.getElem?_append_right (Nat.le_refl _),
    Nat.sub_self]
  rfl

theorem byteTable_behind (front back : List Char) :
    (byteTable (front ++ back))[utf8Length front]? = some front.length := by
  cases back with
  | nil =>
    rw [List.append_nil]
    exact byteTable_end front
  | cons c back => exact byteTable_within front back c.utf8Size_pos

theorem utf8Length_of_isSingleByte {text : List Char} (single : isSingleByte text = true) :
    utf8Length text = text.length := by
  induction text with
  | nil => rfl
  | cons c text ih =>
    rw [isSingleByte, List.all_cons, Bool.and_eq_true, beq_iff_eq] at single
    rw [utf8Length_cons, single.1, ih single.2, List.length_cons, Nat.add_comm]

/-- The byte offset of what follows `front` is turned into its character offset. -/
theorem charOffset?_behind (front back : List Char) :
    charOffset? (front ++ back) (utf8Length front) = some (front.length : Int) := by
  unfold charOffset?
  split
  · rename_i single
    rw [isSingleByte, List.all_append, Bool.and_eq_true] at single
    rw [utf8Length_of_isSingleByte single.1]
  · rw [entryFromEnd?, if_pos (Int.natCast_nonneg _), Int.toNat_natCast, byteTable_behind]
    rfl

end ManifestOrder.Text
