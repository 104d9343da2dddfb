import ManifestOrder.Proofs.Manifest
import ManifestOrder.Proofs.Text.ByteOffset

/-!
# Byte offsets against the decoded bytes

The table of a text never descends (`byteTable_ascending`) and has one entry for every byte and one
for the end, so an offset is refused only outside of it (`entryFromEnd?_eq_none_iff`). The table of
a text of single bytes numbers them (`byteTable_of_isSingleByte`): there the table would say what
is said without it, and between the first byte and the end every text is read off its table
(`charOffset?_eq_entry`).

`charOffset?_inverts` puts this together: character offsets undo the lengths in bytes, and a slice
of the bytes decodes to the slice of the characters between the offsets given for its ends.
-/

namespace ManifestOrder.Text

open Manifest (decode? encode)

/-- The number of bytes in front of the character with offset `index`. -/
def byteOffset (text : List Char) (index : Nat) : Nat :=
  utf8Length (text.take index)

theorem encode_size (text : List Char) : (encode text).size = utf8Length text := by
  rw [encode, String.toUTF8_eq_toByteArray, String.size_toByteArray]
  rfl

theorem encode_append (front back : List Char) :
    encode (front ++ back) = encode front ++ encode back := by
  simp only [encode, String.toUTF8_eq_toByteArray, String.ofList_append,
    String.toByteArray_append]

/-! ## The table -/

theorem byteTable_length (text : List Char) : (byteTable text).length = utf8Length text + 1 := by
  rw [byteTable_eq, List.length_append, byteEntries_length, List.length_singleton]

theorem mem_byteEntries {first entry : Nat} {text : List Char}
    (member : entry ∈ byteEntries first text) : first ≤ entry ∧ entry < first + text.length := by
  obtain ⟨⟨c, index⟩, inside, repeated⟩ := List.mem_flatMap.1 member
  obtain rfl : entry = index := List.eq_of_mem_replicate repeated
  exact ⟨List.le_snd_of_mem_zipIdx inside, List.snd_lt_add_of_mem_zipIdx inside⟩

theorem byteEntries_ascending (first : Nat) (text : List Char) :
    (byteEntries first text).Pairwise (· ≤ ·) := by
  induction text generalizing first with
  | nil => exact List.Pairwise.nil
  | cons c text ih =>
    rw [byteEntries_cons, List.pairwise_append]
    refine ⟨List.pairwise_replicate.2 (.inr (Nat.le_refl first)), ih (first + 1), ?_⟩
    intro early here late there
    obtain rfl := List.eq_of_mem_replicate here
    exact Nat.le_of_succ_le (mem_byteEntries there).1

theorem byteTable_ascending (text : List Char) : (byteTable text).Pairwise (· ≤ ·) := by
  rw [byteTable_eq, List.pairwise_append]
  refine ⟨byteEntries_ascending 0 text, List.pairwise_singleton _ _, ?_⟩
  intro entry here last there
  obtain rfl := List.mem_singleton.1 there
  have below := (mem_byteEntries here).2
  omega

theorem entryFromEnd?_eq_none_iff {table : List Nat} {index : Int} :
    entryFromEnd? table index = none ↔ table.length ≤ index ∨ index < -table.length := by
  unfold entryFromEnd?
  split
  · rename_i forward
    rw [List.getElem?_eq_none_iff]
    omega
  · rename_i backward
    split
    · rw [List.getElem?_eq_none_iff]
      omega
    · rename_i outside
      simp only [true_iff]
      omega

/-! ## Texts of single bytes -/

theorem length_le_utf8Length (text : List Char) : text.length ≤ utf8Length text := by
  induction text with
  | nil => exact Nat.le_refl 0
  | cons c text ih =>
    rw [List.length_cons, utf8Length_cons]
    have := c.utf8Size_pos
    omega

theorem isSingleByte_iff_ascii {text : List Char} :
    isSingleByte text = true ↔ ∀ c ∈ text, c.toNat < 128 := by
  rw [isSingleByte, List.all_eq_true]
  refine forall₂_congr fun c _ => ?_
  rw [beq_iff_eq, Char.utf8Size_eq_one_iff, UInt32.le_iff_toNat_le, Nat.lt_succ_iff]
  rfl

/-- Every character takes one byte exactly when there are as many bytes as characters. -/
theorem isSingleByte_iff_size {text : List Char} :
    isSingleByte text = true ↔ (encode text).size = text.length := by
  rw [encode_size]
  refine ⟨utf8Length_of_isSingleByte, fun same => ?_⟩
  induction text with
  | nil => rfl
  | cons c text ih =>
    rw [utf8Length_cons, List.length_cons] at same
    have one := c.utf8Size_pos
    have others := length_le_utf8Length text
    rw [isSingleByte, List.all_cons, Bool.and_eq_true, beq_iff_eq]
    exact ⟨by omega, ih (by omega)⟩

theorem byteEntries_of_isSingleByte {text : List Char} (single : isSingleByte text = true)
    (first : Nat) : byteEntries first text = List.range' first text.length := by
  induction text generalizing first with
  | nil => rfl
  | cons c text ih =>
    rw [isSingleByte, List.all_cons, Bool.and_eq_true, beq_iff_eq] at single
    rw [byteEntries_cons, single.1, ih single.2]
    rfl

/-- The table of a text of single bytes numbers them. -/
theorem byteTable_of_isSingleByte {text : List Char} (single : isSingleByte text = true) :
    byteTable text = List.range (text.length + 1) := by
  rw [byteTable_eq, byteEntries_of_isSingleByte single, List.range_succ, List.range_eq_range']

theorem entryFromEnd?_of_isSingleByte {text : List Char} (single : isSingleByte text = true)
    {offset : Nat} (inside : offset ≤ text.length) :
    entryFromEnd? (byteTable text) offset = some offset := by
  rw [entryFromEnd?, if_pos (Int.natCast_nonneg _), Int.toNat_natCast,
    byteTable_of_isSingleByte single, List.getElem?_range (Nat.lt_succ_of_le inside)]

/-- From the first byte to the end, what is said about an offset is its entry in the table. -/
theorem charOffset?_eq_entry {text : List Char} {offset : Nat}
    (inside : offset ≤ utf8Length text) :
    charOffset? text offset = (entryFromEnd? (byteTable text) offset).map Int.ofNat := by
  unfold charOffset?
  split
  · rename_i single
    rw [utf8Length_of_isSingleByte single] at inside
    rw [entryFromEnd?_of_isSingleByte single inside]
    rfl
  · rfl

theorem charOffset?_eq_some {text : List Char} {offset entry : Nat}
    (found : (byteTable text)[offset]? = some entry) :
    charOffset? text offset = some (entry : Int) := by
  obtain ⟨inside, -⟩ := List.getElem?_eq_some_iff.1 found
  rw [byteTable_length, Nat.lt_succ_iff] at inside
  rw [charOffset?_eq_entry inside, entryFromEnd?, if_pos (Int.natCast_nonneg _),
    Int.toNat_natCast, found]
  rfl

/-! ## Characters and their bytes -/

theorem byteOffset_succ {text : List Char} {index : Nat} (inside : index < text.length) :
    byteOffset text (index + 1) = byteOffset text index + text[index].utf8Size := by
  rw [byteOffset, List.take_add_one, List.getElem?_eq_getElem inside, utf8Length_append,
    Option.toList_some, utf8Length_cons, utf8Length_nil]
  rfl

/-- The bytes of a part of a text decode to that part. -/
theorem decode?_part (front part back : List Char) :
    decode? ((encode (front ++ part ++ back)).extract (utf8Length front)
      (utf8Length (front ++ part))) = some part := by
  have cut : (encode (front ++ part ++ back)).extract (utf8Length front)
      (utf8Length (front ++ part)) = encode part := by
    have nothing : (encode back).extract (utf8Length front - utf8Length (front ++ part)) 0 =
        ByteArray.empty :=
      ByteArray.extract_eq_empty_iff.2 (by rw [Nat.zero_min]; exact Nat.zero_le _)
    rw [encode_append, ByteArray.extract_append, encode_size, Nat.sub_self, nothing,
      ByteArray.append_empty, encode_append]
    refine ByteArray.extract_append_eq_right (encode_size front).symm ?_
    rw [encode_size, encode_size, utf8Length_append]
  rw [cut, Manifest.decode?_encode]

/-- The bytes between two characters decode to the characters between them. -/
theorem decode?_extract (text : List Char) {i j : Nat} (ordered : i ≤ j) :
    decode? ((encode text).extract (byteOffset text i) (byteOffset text j)) =
      some ((text.take j).drop i) := by
  have front : text.take i = (text.take j).take i := by
    rw [List.take_take, Nat.min_eq_left ordered]
  have parts := decode?_part ((text.take j).take i) ((text.take j).drop i) (text.drop j)
  rwa [List.take_append_drop, List.take_append_drop, ← front] at parts

theorem charOffset?_byteOffset (text : List Char) (index : Nat) :
    charOffset? text (byteOffset text index) = some ((text.take index).length : Int) := by
  have behind := charOffset?_behind (text.take index) (text.drop index)
  rwa [List.take_append_drop] at behind

theorem charOffset?_within {text : List Char} {index offset : Nat}
    (behind : byteOffset text index ≤ offset) (ahead : offset < byteOffset text (index + 1)) :
    charOffset? text offset = some (index : Int) := by
  have inside : index < text.length := by
    rw [← Nat.not_le]
    intro past
    -- Behind the last character there is no byte.
    rw [byteOffset, List.take_of_length_le past] at behind
    rw [byteOffset, List.take_of_length_le (Nat.le_succ_of_le past)] at ahead
    omega
  rw [byteOffset_succ inside] at ahead
  have place : byteOffset text index + (offset - byteOffset text index) = offset :=
    Nat.add_sub_of_le behind
  have entry := byteTable_within (text.take index) (text.drop (index + 1)) (c := text[index])
    (k := offset - byteOffset text index) (by omega)
  rw [← List.drop_eq_getElem_cons inside, List.take_append_drop,
    List.length_take_of_le (Nat.le_of_lt inside)] at entry
  exact charOffset?_eq_some (place ▸ entry)

theorem charOffset?_ascending {text : List Char} {early late : Nat} (ordered : early ≤ late)
    (inside : late ≤ utf8Length text) :
    ∃ first second : Nat, charOffset? text early = some (first : Int) ∧
      charOffset? text late = some (second : Int) ∧ first ≤ second := by
  rw [← Nat.lt_add_one_iff, ← byteTable_length] at inside
  refine ⟨_, _,
    charOffset?_eq_some (List.getElem?_eq_getElem (Nat.lt_of_le_of_lt ordered inside)),
    charOffset?_eq_some (List.getElem?_eq_getElem inside), ?_⟩
  rcases Nat.lt_or_eq_of_le ordered with before | rfl
  · exact List.pairwise_iff_getElem.1 (byteTable_ascending text) _ _ _ _ before
  · exact Nat.le_refl _

/-- Cutting at the given offsets of two characters is cutting at the characters. -/
theorem slice_at_lengths (text : List Char) (i j : Nat) :
    (text.take (text.take j).length).drop (text.take i).length = (text.take j).drop i := by
  have front : text.take (text.take j).length = text.take j := by
    rw [List.take_eq_take_iff, List.length_take, Nat.min_assoc, Nat.min_self]
  rw [front, List.drop_eq_drop_iff, List.length_take, List.length_take]
  omega

/-- A text that needs its table refuses what is no index of it. -/
theorem charOffset?_eq_none_iff {text : List Char} (mixed : isSingleByte text ≠ true)
    {offset : Int} :
    charOffset? text offset = none ↔
      utf8Length text < offset ∨ offset < -(utf8Length text + 1) := by
  rw [charOffset?, if_neg mixed, Option.map_eq_none_iff, entryFromEnd?_eq_none_iff,
    byteTable_length]
  omega

/-- What turning byte offsets into character offsets does for a text. -/
structure OffsetsInverted (text : List Char) : Prop where
  /-- In front of a character stand the characters before it, and behind the last all of them. -/
  boundary : ∀ index ≤ text.length, charOffset? text (byteOffset text index) = some (index : Int)
  /-- Every byte of a character leads to it. -/
  within : ∀ index offset : Nat, byteOffset text index ≤ offset →
    offset < byteOffset text (index + 1) → charOffset? text offset = some (index : Int)
  ascending : ∀ early late : Nat, early ≤ late → late ≤ (encode text).size →
    ∃ first second : Nat, charOffset? text early = some (first : Int) ∧
      charOffset? text late = some (second : Int) ∧ first ≤ second
  /-- Bytes are cut and decoded, or the characters are cut. -/
  slice : ∀ i j : Nat, i ≤ j → ∃ first second : Nat,
    charOffset? text (byteOffset text i) = some (first : Int) ∧
      charOffset? text (byteOffset text j) = some (second : Int) ∧
      decode? ((encode text).extract (byteOffset text i) (byteOffset text j)) =
        some ((text.take second).drop first)
  /-- Where no table is made, it would say the same. -/
  ascii : (∀ c ∈ text, c.toNat < 128) → ∀ offset ≤ (encode text).size,
    charOffset? text offset = some (offset : Int) ∧
      entryFromEnd? (byteTable text) offset = some offset
  /-- An offset is refused when it is not an index of the table. -/
  refused : (∃ c ∈ text, 128 ≤ c.toNat) → ∀ offset : Int, charOffset? text offset = none ↔
    (encode text).size < offset ∨ offset < -((encode text).size + 1)

theorem charOffset?_inverts (text : List Char) : OffsetsInverted text where
  boundary := by
    intro index inside
    rw [charOffset?_byteOffset, List.length_take_of_le inside]
  within _ _ := charOffset?_within
  ascending := by
    intro early late ordered inside
    exact charOffset?_ascending ordered (encode_size text ▸ inside)
  slice := by
    intro i j ordered
    refine ⟨_, _, charOffset?_byteOffset text i, charOffset?_byteOffset text j, ?_⟩
    rw [decode?_extract text ordered, slice_at_lengths]
  ascii := by
    intro ascii offset inside
    have single := isSingleByte_iff_ascii.2 ascii
    rw [encode_size, utf8Length_of_isSingleByte single] at inside
    exact ⟨if_pos single, entryFromEnd?_of_isSingleByte single inside⟩
  refused := by
    rintro ⟨c, member, wide⟩ offset
    have mixed : isSingleByte text ≠ true := by
      intro single
      have narrow := isSingleByte_iff_ascii.1 single c member
      omega
    rw [encode_size]
    exact charOffset?_eq_none_iff mixed

end ManifestOrder.Text
