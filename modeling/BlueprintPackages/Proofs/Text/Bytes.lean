import BlueprintPackages.Text.Bytes
import Mathlib.Data.String.Basic

/-!
# Ends of texts are slices

`endOfSize?` takes a text apart character by character. It finds what ends the text and has so many
bytes (`endOfSize?_eq_some_iff`), and that is the slice which begins so many bytes before the end of
the text, where a character must begin (`endOfSize?_eq_some_iff_slice`).
-/

namespace BlueprintPackages.Text

theorem byteSize_eq_utf8Len (text : List Char) : byteSize text = String.utf8Len text := by
  induction text with
  | nil => rfl
  | cons c rest ih => rw [byteSize, String.utf8Len_cons, ih, Nat.add_comm]

theorem byteSize_toList (text : String) : byteSize text.toList = text.utf8ByteSize := by
  rw [byteSize_eq_utf8Len, String.utf8Len_toList]

theorem utf8ByteSize_le_of_suffix {text back : String} (h : back.toList <:+ text.toList) :
    back.utf8ByteSize ≤ text.utf8ByteSize := by
  rw [← String.utf8Len_toList, ← String.utf8Len_toList]
  exact String.utf8Len_le_of_suffix h

theorem endOfSize?_eq_some_iff {size : Nat} {text back : List Char} :
    endOfSize? size text = some back ↔ back <:+ text ∧ byteSize back = size := by
  constructor
  · intro h
    induction text with
    | nil =>
        rw [endOfSize?] at h
        split at h
        · next hsize =>
          obtain rfl := Option.some.inj h
          exact ⟨List.suffix_refl [], hsize.symm⟩
        · cases h
    | cons c rest ih =>
        rw [endOfSize?] at h
        split at h
        · next hsize =>
          obtain rfl := Option.some.inj h
          exact ⟨List.suffix_refl _, hsize⟩
        · obtain ⟨hsuffix, hsize⟩ := ih h
          exact ⟨hsuffix.trans (List.suffix_cons c rest), hsize⟩
  · rintro ⟨⟨front, rfl⟩, rfl⟩
    exact endOfSize?_append front back

/-- A text has an end of a size just if a character begins so many bytes before its end, or nothing
is left there, and the end is the slice from that position on. -/
theorem endOfSize?_eq_some_iff_slice {size : Nat} {text back : String} :
    endOfSize? size text.toList = some back.toList ↔
      ∃ pos : text.Pos, pos.remainingBytes = size ∧ (text.sliceFrom pos).copy = back := by
  rw [endOfSize?_eq_some_iff, byteSize_toList]
  constructor
  · rintro ⟨⟨front, hfront⟩, rfl⟩
    have htext : text = String.ofList front ++ back := by
      rw [← String.toList_inj, String.toList_append, String.toList_ofList, hfront]
    have hsplits := String.Pos.splits_ofEqAppend htext
    exact ⟨_, hsplits.remainingBytes_eq, hsplits.copy_sliceFrom_eq⟩
  · rintro ⟨pos, rfl, rfl⟩
    have hsplits := pos.splits
    refine ⟨⟨(text.sliceTo pos).copy.toList, ?_⟩, hsplits.remainingBytes_eq.symm⟩
    rw [← String.toList_append, ← hsplits.eq_append]

end BlueprintPackages.Text
