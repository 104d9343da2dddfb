import ManifestOrder.Proofs.Dependency.Fix
import ManifestOrder.Proofs.Manifest

/-!
# Manifests sorted in place

A run sorts manifests one after the other, each write exchanging the text of one file for the fixed
one (`SortsFile`, `SortedInPlace`). Whatever is sorted, and however often, no file comes into being or
loses a byte: the bytes of each file are those it held before, in another order, and a file that holds
no document stays as it is (`SortedInPlace.rearranged`). Files that are not meant stay as they are, too
(`SortedInPlace.elsewhere`).
-/

namespace ManifestOrder

open Dependency (fixText)
open Manifest

/-- The text that a file holds is exchanged for the fixed one. -/
inductive SortsFile (fs : FileSystem) (location : Location) : FileSystem → Prop
  | mk {content : ByteArray} {text : List Char} {fixed : Dependency.Fixed} :
      fs.file? location = some content → decode? content = some text →
      fixText .standard text = .ok fixed →
      SortsFile fs location (fs.write location (encode fixed.source))

/-- Files were sorted one after the other, each of them one that was meant. -/
inductive SortedInPlace (meant : Location → Prop) (fs : FileSystem) : FileSystem → Prop
  | nothing : SortedInPlace meant fs fs
  | sort {now after : FileSystem} {location : Location} :
      SortedInPlace meant fs now → meant location → SortsFile now location after →
      SortedInPlace meant fs after

/-- The files hold the bytes they held, in an order of their own, and what held no document is as it
was. -/
structure Rearranged (fs after : FileSystem) : Prop where
  revised : Revised fs after
  bytes : ∀ {location content}, fs.file? location = some content →
    ∃ other, after.file? location = some other ∧ other.data.toList.Perm content.data.toList

namespace Rearranged
variable {fs after last : FileSystem}

theorem refl (fs : FileSystem) : Rearranged fs fs where
  revised := .refl fs
  bytes held := ⟨_, held, .refl _⟩

theorem trans (first : Rearranged fs after) (second : Rearranged after last) :
    Rearranged fs last where
  revised := first.revised.trans second.revised
  bytes held := by
    obtain ⟨other, there, same⟩ := first.bytes held
    obtain ⟨final, here, again⟩ := second.bytes there
    exact ⟨final, here, again.trans same⟩

/-- No file comes into being. -/
theorem absent (rearranged : Rearranged fs after) {location : Location}
    (missing : fs.file? location = none) : after.file? location = none := by
  have same := rearranged.revised.layout.file?_isSome location
  rwa [missing, Option.isSome_none, Option.isSome_eq_false_iff, Option.isNone_iff_eq_none] at same

end Rearranged

namespace SortsFile
variable {fs after : FileSystem} {location : Location}

theorem elsewhere (sorts : SortsFile fs location after) {other : Location}
    (differ : other ≠ location) : after.file? other = fs.file? other := by
  cases sorts with
  | mk _ _ _ => rw [FileSystem.file?_write, if_neg differ]

theorem rearranged (sorts : SortsFile fs location after) : Rearranged fs after := by
  cases sorts with
  | @mk content text fixed held decoded done =>
    obtain ⟨list, read, sorted⟩ := Dependency.fixText_eq_ok done
    refine ⟨.overwrite held ?_ fixed.source, ?_⟩
    · rw [recordsIn?, decoded, Option.bind_some, read]
      exact Option.some_ne_none list
    · intro place old there
      rw [FileSystem.file?_write]
      by_cases here : place = location
      · obtain rfl : content = old := by
          rw [here, held] at there
          exact Option.some.inj there
        refine ⟨_, if_pos here, ?_⟩
        rw [← encode_of_decode? decoded]
        exact encode_perm sorted
      · exact ⟨old, by rwa [if_neg here], .refl _⟩

end SortsFile

namespace SortedInPlace
variable {meant : Location → Prop} {fs after : FileSystem}

theorem weaken {other : Location → Prop} (sorted : SortedInPlace meant fs after)
    (included : ∀ location, meant location → other location) : SortedInPlace other fs after := by
  induction sorted with
  | nothing => exact .nothing
  | sort _ isMeant sorts ih => exact .sort ih (included _ isMeant) sorts

theorem rearranged (sorted : SortedInPlace meant fs after) : Rearranged fs after := by
  induction sorted with
  | nothing => exact .refl fs
  | sort _ _ sorts ih => exact ih.trans sorts.rearranged

theorem elsewhere (sorted : SortedInPlace meant fs after) {location : Location}
    (spared : ¬ meant location) : after.file? location = fs.file? location := by
  induction sorted with
  | nothing => rfl
  | sort _ isMeant sorts ih =>
    refine (sorts.elsewhere ?_).trans ih
    rintro rfl
    exact spared isMeant

/-- Where no file is meant, none is written. -/
theorem eq_of_spared (sorted : SortedInPlace meant fs after) (spared : ∀ location, ¬ meant location) :
    after = fs := by
  cases sorted with
  | nothing => rfl
  | sort _ isMeant _ => exact absurd isMeant (spared _)

end SortedInPlace

end ManifestOrder
