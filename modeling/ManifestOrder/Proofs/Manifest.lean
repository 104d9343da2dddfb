import ManifestOrder.Proofs.FileSystem
import ManifestOrder.Manifest

/-!
# Manifests that are rewritten

While manifests are sorted one after the other, only files change that hold a document, and they
hold text afterwards (`Revised`). So a path that cannot be read or leads to no document keeps
failing in the same way for a whole run (`Revised.extract_error`).
-/

namespace ManifestOrder

open Dependency (DependencyList)
open FileSystem (SameLayout)

namespace Manifest

theorem decode?_encode (text : List Char) : decode? (encode text) = some text := by
  unfold decode? encode String.fromUTF8?
  rw [String.toUTF8_eq_toByteArray, dif_pos (String.ofList text).isValidUTF8]
  exact congrArg some String.toList_ofList

/-- What can be decoded is the encoded text: nothing is lost, be it a byte order mark or line
ends. -/
theorem encode_of_decode? {content : ByteArray} {text : List Char}
    (decoded : decode? content = some text) : encode text = content := by
  unfold decode? String.fromUTF8? at decoded
  split at decoded
  · rename_i valid
    obtain rfl := Option.some.inj decoded
    unfold encode
    rw [String.ofList_toList, String.toUTF8_eq_toByteArray]
    rfl
  · cases decoded

theorem encode_injective {text other : List Char} (same : encode text = encode other) :
    text = other := by
  have decoded := congrArg decode? same
  rw [decode?_encode, decode?_encode] at decoded
  exact Option.some.inj decoded

theorem encode_bytes (text : List Char) :
    (encode text).data.toList = text.flatMap String.utf8EncodeChar := by
  rw [encode, String.toUTF8_eq_toByteArray, String.toByteArray_ofList, List.utf8Encode,
    List.toList_data_toByteArray]

/-- The same characters in another order are the same bytes in another order. -/
theorem encode_perm {text other : List Char} (same : other.Perm text) :
    (encode other).data.toList.Perm (encode text).data.toList := by
  rw [encode_bytes, encode_bytes]
  exact same.flatMap_right String.utf8EncodeChar

theorem write_eq_ok {fs after : FileSystem} {p : Path} {text : List Char}
    (written : write fs p text = .ok after) :
    ∃ location, fs.resolve p = .ok location ∧ after = fs.write location (encode text) := by
  unfold write at written
  split at written
  · cases written
  · rename_i changed done
    obtain rfl := Except.ok.inj written
    exact FileSystem.writePath_eq_ok done

theorem read_eq_ok_iff {fs : FileSystem} {p : Path} {text : List Char} :
    read fs p = .ok text ↔
      p.hasNul = false ∧ ∃ content, fs.read p = .ok content ∧ decode? content = some text := by
  unfold read
  split
  · rename_i nul
    simp [nul]
  · rename_i plain
    rw [Bool.not_eq_true] at plain
    split
    · rename_i e failed
      simp [failed]
    · rename_i content found
      split
      · rename_i broken
        simp [found, broken]
      · rename_i decoded read
        simp [plain, found, read]

theorem extract_eq_ok_iff {fs : FileSystem} {p : Path} {list : DependencyList} :
    extract fs p = .ok list ↔
      ∃ text, read fs p = .ok text ∧ Dependency.extract? text = some list := by
  unfold extract
  split
  · rename_i e failed
    simp [failed]
  · rename_i text found
    split
    · rename_i malformed
      simp [found, malformed]
    · rename_i other accepted
      simp [found, accepted]

theorem read_error {fs : FileSystem} {p : Path} {failure : FileFailure}
    (unread : read fs p = .error failure) :
    (∃ cause, failure = .unreadable cause) ∨ failure = .notPath ∨ failure = .notText := by
  unfold read at unread
  split at unread
  · exact .inr (.inl (Except.error.inj unread).symm)
  · split at unread
    · rename_i cause _
      exact .inl ⟨cause, (Except.error.inj unread).symm⟩
    · split at unread
      · exact .inr (.inr (Except.error.inj unread).symm)
      · cases unread

theorem extract_eq_error_iff {fs : FileSystem} {p : Path} {failure : FileFailure} :
    extract fs p = .error failure ↔
      read fs p = .error failure ∨
        failure = .fix .malformed ∧ ∃ text, read fs p = .ok text ∧
          Dependency.extract? text = none := by
  unfold extract
  split
  · rename_i e failed
    simp [failed]
  · rename_i text found
    split
    · rename_i malformed
      simp [found, malformed, eq_comm]
    · rename_i other accepted
      simp [found, accepted]

/-- The records of what a file holds, if that is a document. -/
def recordsIn? (content : ByteArray) : Option DependencyList :=
  (decode? content).bind Dependency.extract?

end Manifest

open Manifest

/-- What sorting manifests may do to files. -/
structure Revised (fs after : FileSystem) : Prop where
  layout : SameLayout fs after
  /-- What holds no document stays as it is. -/
  broken : ∀ {location content}, fs.file? location = some content → recordsIn? content = none →
    after.file? location = some content
  /-- What holds text goes on holding text. -/
  text : ∀ {location content}, fs.file? location = some content → decode? content ≠ none →
    ∃ other, after.file? location = some other ∧ decode? other ≠ none

namespace Revised
variable {fs after last : FileSystem} {p : Path}

theorem refl (fs : FileSystem) : Revised fs fs where
  layout := .refl fs
  broken found _ := found
  text found decoded := ⟨_, found, decoded⟩

theorem trans (first : Revised fs after) (second : Revised after last) : Revised fs last where
  layout := first.layout.trans second.layout
  broken found none := second.broken (first.broken found none) none
  text found decoded := by
    obtain ⟨other, there, readable⟩ := first.text found decoded
    exact second.text there readable

/-- A path that cannot be read cannot be read later for the same reason, and no other one. -/
theorem read_error (revised : Revised fs after) {failure : FileFailure} :
    Manifest.read after p = .error failure ↔ Manifest.read fs p = .error failure := by
  unfold Manifest.read FileSystem.read
  rw [revised.layout.resolve]
  by_cases nul : p.hasNul = true
  · rw [if_pos nul, if_pos nul]
  rw [if_neg nul, if_neg nul]
  cases fs.resolve p with
  | error e => exact Iff.rfl
  | ok location =>
    have present := revised.layout.file?_isSome location
    cases found : fs.file? location with
    | none =>
      rw [found, Option.isSome_none, Option.isSome_eq_false_iff, Option.isNone_iff_eq_none]
        at present
      simp only [present, found, revised.layout.isFolder]
    | some content =>
      by_cases readable : decode? content = none
      · have kept := revised.broken found (by rw [recordsIn?, readable, Option.bind_none])
        simp only [kept, found]
      · obtain ⟨other, there, again⟩ := revised.text found readable
        obtain ⟨before, decoded⟩ := Option.ne_none_iff_exists'.1 readable
        obtain ⟨now, redecoded⟩ := Option.ne_none_iff_exists'.1 again
        simp [there, found, decoded, redecoded]

/-- A path that leads to no document does not lead to one later. -/
theorem extract_error (revised : Revised fs after) {failure : FileFailure}
    (failed : Manifest.extract fs p = .error failure) :
    Manifest.extract after p = .error failure := by
  rw [extract_eq_error_iff] at failed ⊢
  refine failed.imp revised.read_error.2 ?_
  rintro ⟨malformed, text, found, refused⟩
  obtain ⟨plain, content, read, decoded⟩ := read_eq_ok_iff.1 found
  obtain ⟨location, leads, holds⟩ := FileSystem.read_eq_ok_iff.1 read
  have none : recordsIn? content = none := by
    rw [recordsIn?, decoded]
    exact refused
  have kept : after.read p = .ok content :=
    FileSystem.read_eq_ok_iff.2
      ⟨location, (revised.layout.resolve p).trans leads, revised.broken holds none⟩
  exact ⟨malformed, text, read_eq_ok_iff.2 ⟨plain, content, kept, decoded⟩, refused⟩

/-- Writing to a location that holds a document. -/
theorem overwrite {location : Location} {content : ByteArray}
    (holds : fs.file? location = some content) (accepted : recordsIn? content ≠ none)
    (text : List Char) : Revised fs (fs.write location (encode text)) where
  layout := .write (by rw [holds, Option.isSome_some]) _
  broken := by
    intro place old there none
    rw [FileSystem.file?_write, if_neg]
    · exact there
    · rintro rfl
      obtain rfl := Option.some.inj (holds.symm.trans there)
      exact accepted none
  text := by
    intro place old there readable
    by_cases overwritten : place = location
    · refine ⟨encode text, by rw [FileSystem.file?_write, if_pos overwritten], ?_⟩
      rw [decode?_encode]
      exact Option.some_ne_none text
    · exact ⟨old, by rwa [FileSystem.file?_write, if_neg overwritten], readable⟩

/-- Writing to a path that leads to a document. -/
theorem write {list : DependencyList} {text other : List Char}
    (found : Manifest.read fs p = .ok text) (accepted : Dependency.extract? text = some list)
    (written : Manifest.write fs p other = .ok after) :
    Revised fs after ∧ Manifest.read after p = .ok other := by
  obtain ⟨plain, content, read, decoded⟩ := read_eq_ok_iff.1 found
  obtain ⟨location, leads, holds⟩ := FileSystem.read_eq_ok_iff.1 read
  obtain ⟨place, same, rfl⟩ := write_eq_ok written
  obtain rfl : location = place := Except.ok.inj (leads.symm.trans same)
  have document : recordsIn? content ≠ none := by
    rw [recordsIn?, decoded, Option.bind_some, accepted]
    exact Option.some_ne_none list
  have present : (fs.file? location).isSome = true := by rw [holds, Option.isSome_some]
  exact ⟨.overwrite holds document other, read_eq_ok_iff.2
    ⟨plain, _, FileSystem.read_write present leads _, decode?_encode other⟩⟩

end Revised

end ManifestOrder
