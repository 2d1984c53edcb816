/-!
# Texts by the size of their bytes

`endOfSize?` takes the end of a text that has a given number of bytes in UTF-8. There is one only
if a character begins at that place; `endOfSize?_append` finds it.
-/

namespace BlueprintPackages.Text

/-- The number of bytes of a text. -/
def byteSize : List Char → Nat
  | [] => 0
  | c :: rest => c.utf8Size + byteSize rest

/-- The end of a text that has the given number of bytes. -/
def endOfSize? (size : Nat) : List Char → Option (List Char)
  | [] => if size = 0 then some [] else none
  | c :: rest => if byteSize (c :: rest) = size then some (c :: rest) else endOfSize? size rest

theorem byteSize_append (a b : List Char) : byteSize (a ++ b) = byteSize a + byteSize b := by
  induction a with
  | nil => exact (Nat.zero_add _).symm
  | cons c rest ih => simp only [List.cons_append, byteSize, ih, Nat.add_assoc]

theorem endOfSize?_self (text : List Char) : endOfSize? (byteSize text) text = some text := by
  cases text with
  | nil => rfl
  | cons c rest => rw [endOfSize?, if_pos rfl]

/-- Whatever ends a text is its end of that size. -/
theorem endOfSize?_append (front back : List Char) :
    endOfSize? (byteSize back) (front ++ back) = some back := by
  induction front with
  | nil => exact endOfSize?_self back
  | cons c rest ih =>
      have hpos : 0 < c.utf8Size := Char.utf8Size_pos c
      have hne : byteSize (c :: (rest ++ back)) ≠ byteSize back := by
        rw [byteSize, byteSize_append]
        omega
      rw [List.cons_append, endOfSize?, if_neg hne, ih]

end BlueprintPackages.Text
