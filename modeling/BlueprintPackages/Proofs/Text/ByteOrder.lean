import Mathlib.Data.List.Basic
import Mathlib.Data.String.Basic

/-!
# The order of texts is that of their bytes

Texts are compared character by character, and characters by their code points. The bytes of texts
in UTF-8 are in the same order (`utf8_lt_utf8_iff`): the first byte of a character tells how many
there are, more of them stand for greater code points, and among as many the digits of the code
point follow each other from the highest on.
-/

namespace BlueprintPackages.Text

/-- The bytes of a text in UTF-8. -/
def utf8 (text : String) : List UInt8 := text.toUTF8.data.toList

theorem utf8_eq_flatMap (text : String) :
    utf8 text = text.toList.flatMap String.utf8EncodeChar := by
  conv_lhs => rw [← String.ofList_toList (s := text)]
  rw [utf8, String.toUTF8_eq_toByteArray, String.toByteArray_ofList, List.utf8Encode,
    List.data_toByteArray]

/-! ## The bytes of one character -/

section Bytes

variable {n m : Nat} {rest more : List UInt8}

theorem cons_lt_cons_of_lt (hlt : n < m) (hm : m < 256) :
    UInt8.ofNat n :: rest < UInt8.ofNat m :: more := by
  rw [List.cons_lt_cons_iff, UInt8.lt_iff_toNat_lt, UInt8.toNat_ofNat', UInt8.toNat_ofNat',
    Nat.mod_eq_of_lt hm, Nat.mod_eq_of_lt (hlt.trans hm)]
  exact .inl hlt

/-- A byte decides unless it is the same in both. -/
theorem cons_lt_cons_of_le (hle : n ≤ m) (hm : m < 256) (hrest : n = m → rest < more) :
    UInt8.ofNat n :: rest < UInt8.ofNat m :: more := by
  rcases Nat.lt_or_eq_of_le hle with hlt | rfl
  · exact cons_lt_cons_of_lt hlt hm
  · exact List.cons_lt_cons_self.mpr (hrest rfl)

theorem last_lt (hlt : n < m) (hhigh : n / 64 = m / 64) :
    UInt8.ofNat (n % 64 + 128) :: rest < UInt8.ofNat (m % 64 + 128) :: more :=
  cons_lt_cons_of_lt (by omega) (by omega)

theorem lastTwo_lt (hlt : n < m) (hhigh : n / 4096 = m / 4096) :
    UInt8.ofNat (n / 64 % 64 + 128) :: UInt8.ofNat (n % 64 + 128) :: rest <
      UInt8.ofNat (m / 64 % 64 + 128) :: UInt8.ofNat (m % 64 + 128) :: more :=
  cons_lt_cons_of_le (by omega) (by omega) fun _ => last_lt hlt (by omega)

theorem lastThree_lt (hlt : n < m) (hhigh : n / 262144 = m / 262144) :
    UInt8.ofNat (n / 4096 % 64 + 128) :: UInt8.ofNat (n / 64 % 64 + 128) ::
        UInt8.ofNat (n % 64 + 128) :: rest <
      UInt8.ofNat (m / 4096 % 64 + 128) :: UInt8.ofNat (m / 64 % 64 + 128) ::
        UInt8.ofNat (m % 64 + 128) :: more :=
  cons_lt_cons_of_le (by omega) (by omega) fun _ => lastTwo_lt hlt (by omega)

end Bytes

/-- The bytes of a smaller character come first, whatever stands behind them. -/
theorem utf8EncodeChar_append_lt {c d : Char} (h : c < d) (rest more : List UInt8) :
    String.utf8EncodeChar c ++ rest < String.utf8EncodeChar d ++ more := by
  have hlt : c.val.toNat < d.val.toNat := h
  have hmax : d.val.toNat < 1114112 := by
    rcases d.valid with hlow | ⟨-, hhigh⟩
    · omega
    · exact hhigh
  simp only [String.utf8EncodeChar]
  generalize c.val.toNat = n at hlt
  generalize d.val.toNat = m at hlt hmax
  -- the first byte of a wider character is larger; where both have one width, the bytes are
  -- compared one by one
  by_cases hone : n ≤ 127
  · rw [if_pos hone]
    split_ifs
    · exact cons_lt_cons_of_lt hlt (by omega)
    all_goals exact cons_lt_cons_of_lt (by omega) (by omega)
  by_cases htwo : n ≤ 2047
  · rw [if_neg hone, if_pos htwo, if_neg (by omega)]
    split_ifs
    · exact cons_lt_cons_of_le (by omega) (by omega) fun _ => last_lt hlt (by omega)
    all_goals exact cons_lt_cons_of_lt (by omega) (by omega)
  by_cases hthree : n ≤ 65535
  · rw [if_neg hone, if_neg htwo, if_pos hthree, if_neg (by omega), if_neg (by omega)]
    split_ifs
    · exact cons_lt_cons_of_le (by omega) (by omega) fun _ => lastTwo_lt hlt (by omega)
    · exact cons_lt_cons_of_lt (by omega) (by omega)
  · rw [if_neg hone, if_neg htwo, if_neg hthree, if_neg (by omega), if_neg (by omega),
      if_neg (by omega)]
    exact cons_lt_cons_of_le (by omega) (by omega) fun _ => lastThree_lt hlt (by omega)

theorem utf8EncodeChar_append_pos (c : Char) (rest : List UInt8) :
    [] < String.utf8EncodeChar c ++ rest := by
  cases hbytes : String.utf8EncodeChar c with
  | nil => exact absurd hbytes String.utf8EncodeChar_ne_nil
  | cons byte bytes => exact List.nil_lt_cons _ _

/-! ## The bytes of a text -/

theorem flatMap_utf8EncodeChar_lt {cs ds : List Char} (h : cs < ds) :
    cs.flatMap String.utf8EncodeChar < ds.flatMap String.utf8EncodeChar := by
  induction h with
  | nil =>
      rw [List.flatMap_cons]
      exact utf8EncodeChar_append_pos _ _
  | rel hlt =>
      rw [List.flatMap_cons, List.flatMap_cons]
      exact utf8EncodeChar_append_lt hlt _ _
  | cons _ ih =>
      rw [List.flatMap_cons, List.flatMap_cons]
      exact List.append_left_lt ih

/-- Texts stand in the order of their bytes. -/
theorem utf8_lt_utf8_iff {a b : String} : utf8 a < utf8 b ↔ a < b := by
  have hmono : ∀ {a b : String}, a < b → utf8 a < utf8 b := by
    intro a b h
    rw [utf8_eq_flatMap, utf8_eq_flatMap]
    exact flatMap_utf8EncodeChar_lt (String.lt_iff_toList_lt.mp h)
  constructor
  · intro h
    by_contra hle
    rcases lt_or_eq_of_le (not_lt.mp hle) with hlt | rfl
    · exact List.lt_asymm h (hmono hlt)
    · exact List.lt_irrefl _ h
  · exact hmono

/-- Texts of the same bytes are the same. -/
theorem utf8_inj {a b : String} : utf8 a = utf8 b ↔ a = b := by
  constructor
  · intro h
    by_contra hne
    rcases lt_or_gt_of_ne hne with hlt | hgt
    · exact List.lt_irrefl _ (h ▸ utf8_lt_utf8_iff.mpr hlt)
    · exact List.lt_irrefl _ (h ▸ utf8_lt_utf8_iff.mpr hgt)
  · exact congrArg utf8

end BlueprintPackages.Text
