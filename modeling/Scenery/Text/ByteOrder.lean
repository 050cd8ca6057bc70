import Mathlib.Data.String.Basic

/-!
# Order by characters and order by bytes

Texts are compared character by character.  Comparing their bytes in UTF-8 gives the
same order: the first byte of a character tells how many bytes there are, more of them
for larger characters, and the bytes of one length stand for the digits of the
character, the largest digit first.
-/

namespace Scenery.Text

open String (utf8EncodeChar)

theorem ofNat_cons_lt_iff {m n : Nat} (hm : m < 256) (hn : n < 256) (front back : List UInt8) :
    UInt8.ofNat m :: front < UInt8.ofNat n :: back ↔ m < n ∨ m = n ∧ front < back := by
  rw [List.cons_lt_cons_iff, UInt8.lt_iff_toNat_lt, ← UInt8.toNat_inj, UInt8.toNat_ofNat',
    UInt8.toNat_ofNat', Nat.mod_eq_of_lt hm, Nat.mod_eq_of_lt hn]

/-- The smaller of two numbers is smaller without its last digit, or else in its last digit. -/
theorem div_lt_or_mod_lt {m n : Nat} (h : m < n) :
    m / 64 < n / 64 ∨ m / 64 = n / 64 ∧ m % 64 < n % 64 := by
  omega

/-- The first of four digits that differ decides. -/
theorem digits_lt {m n : Nat} (h : m < n) :
    m / 262144 < n / 262144 ∨ m / 262144 = n / 262144 ∧
      (m / 4096 % 64 < n / 4096 % 64 ∨ m / 4096 % 64 = n / 4096 % 64 ∧
        (m / 64 % 64 < n / 64 % 64 ∨ m / 64 % 64 = n / 64 % 64 ∧ m % 64 < n % 64)) := by
  rcases div_lt_or_mod_lt h with h | h
  · rcases div_lt_or_mod_lt h with h | h
    · rcases div_lt_or_mod_lt h with h | h <;> omega
    · omega
  · omega

theorem utf8EncodeChar_append_lt {c d : Char} (h : c < d) (front back : List UInt8) :
    utf8EncodeChar c ++ front < utf8EncodeChar d ++ back := by
  have hlt : c.val.toNat < d.val.toNat := h
  have hlast : d.val.toNat < 1114112 := by
    rcases d.valid with hvalid | hvalid <;> omega
  rw [utf8EncodeChar, utf8EncodeChar]
  generalize c.val.toNat = m at hlt
  generalize d.val.toNat = n at hlt hlast
  by_cases hlong : 65535 < m
  · have hdigits := digits_lt hlt
    have hm : m / 262144 < 8 := by omega
    have hn : n / 262144 < 8 := by omega
    rw [if_neg (by omega), if_neg (by omega), if_neg (by omega), if_neg (by omega),
      if_neg (by omega), if_neg (by omega)]
    simp (disch := omega) only [List.cons_append, List.nil_append, ofNat_cons_lt_iff,
      Nat.mod_eq_of_lt hm, Nat.mod_eq_of_lt hn]
    clear hlt
    omega
  · split_ifs <;>
      simp (disch := omega) only [List.cons_append, List.nil_append, ofNat_cons_lt_iff] <;> omega

theorem exists_utf8EncodeChar_eq_cons (c : Char) :
    ∃ byte bytes, utf8EncodeChar c = byte :: bytes := by
  apply List.exists_cons_of_ne_nil
  rw [← List.length_pos_iff, String.length_utf8EncodeChar]
  exact c.utf8Size_pos

theorem flatMap_utf8EncodeChar_lt {first second : List Char} (h : first < second) :
    first.flatMap utf8EncodeChar < second.flatMap utf8EncodeChar := by
  induction first generalizing second with
  | nil =>
      cases second with
      | nil => exact absurd h (List.lt_irrefl [])
      | cons d others =>
          obtain ⟨byte, bytes, hbytes⟩ := exists_utf8EncodeChar_eq_cons d
          rw [List.flatMap_cons, hbytes]
          exact List.nil_lt_cons byte _
  | cons c rest ih =>
      cases second with
      | nil => exact absurd h (List.not_lt_nil _)
      | cons d others =>
          rw [List.flatMap_cons, List.flatMap_cons]
          rcases List.cons_lt_cons_iff.mp h with hlt | ⟨rfl, hrest⟩
          · exact utf8EncodeChar_append_lt hlt _ _
          · exact List.append_left_lt (ih hrest)

theorem toList_data_toUTF8 (text : String) :
    text.toUTF8.data.toList = text.toList.flatMap utf8EncodeChar := by
  have hbytes : text.toByteArray = text.toList.utf8Encode := by
    rw [← String.toByteArray_ofList, String.ofList_toList]
  rw [String.toUTF8, hbytes, List.utf8Encode, List.toList_data_toByteArray]

/-- In the order of characters is in the order of bytes. -/
theorem toUTF8_lt_of_lt {first second : String} (h : first < second) :
    first.toUTF8.data.toList < second.toUTF8.data.toList := by
  rw [toList_data_toUTF8, toList_data_toUTF8]
  exact flatMap_utf8EncodeChar_lt (String.lt_iff_toList_lt.mp h)

end Scenery.Text
