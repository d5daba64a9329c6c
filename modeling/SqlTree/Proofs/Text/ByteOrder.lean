import Mathlib.Data.String.Basic

/-!
# The order of texts is the order of their bytes

Texts are compared character by character, by code point. The bytes of their UTF-8 encodings,
compared one by one, give the same order: a character with a greater code point has a greater
encoding at the first byte in which the two differ, whatever follows.

## Main results

* `utf8EncodeChar_append_lt`: the encodings of two characters are in the order of the characters.
* `lt_iff_utf8_lt`: two texts are in the order of their bytes.
-/

namespace SqlTree

/-- The bytes of a text are those of its characters. -/
theorem utf8_eq_flatMap (s : String) :
    s.toUTF8.data.toList = s.toList.flatMap String.utf8EncodeChar := by
  conv => lhs; rw [← String.ofList_toList (s := s)]
  rw [String.toUTF8_eq_toByteArray, String.toByteArray_ofList, List.utf8Encode,
    List.data_toByteArray, List.toList_toArray]

theorem toNat_val_lt (c : Char) : c.val.toNat < 1114112 := by
  have h := c.valid
  rw [UInt32.isValidChar, Nat.isValidChar] at h
  omega

/-- A code point from the six bits, at most, that each byte has of it. -/
theorem eq_digits {x : Nat} (h : x < 1114112) :
    x = 262144 * (x / 262144 % 8) + 4096 * (x / 4096 % 64) + 64 * (x / 64 % 64) + x % 64 := by
  omega

/-- Bytes are compared as numbers. -/
theorem ofNat_cons_lt_cons {a b : Nat} (ha : a < 256) (hb : b < 256) (u v : List UInt8) :
    UInt8.ofNat a :: u < UInt8.ofNat b :: v ↔ a < b ∨ a = b ∧ u < v := by
  rw [List.cons_lt_cons_iff, UInt8.lt_iff_toNat_lt, ← UInt8.toNat_inj, UInt8.toNat_ofNat',
    UInt8.toNat_ofNat', Nat.mod_eq_of_lt ha, Nat.mod_eq_of_lt hb]

/-- The first byte in which the encodings of two characters differ decides their order. -/
theorem utf8EncodeChar_append_lt {c d : Char} (h : c < d) (u v : List UInt8) :
    String.utf8EncodeChar c ++ u < String.utf8EncodeChar d ++ v := by
  have hlt : c.val.toNat < d.val.toNat := h
  have hc := toNat_val_lt c
  have hd := toNat_val_lt d
  rw [String.utf8EncodeChar, String.utf8EncodeChar]
  generalize c.val.toNat = x at *
  generalize d.val.toNat = y at *
  have hx := eq_digits hc
  have hy := eq_digits hd
  -- An encoding has one to four bytes; the more there are, the greater is the first.
  by_cases huv : u < v <;> split_ifs <;>
    simp (disch := omega) only [List.cons_append, List.nil_append, ofNat_cons_lt_cons, huv,
      and_true, and_false, or_false] <;> omega

/-- The encodings of two texts that begin with the same character are in the order of the rests. -/
theorem append_lt_append_iff (w u v : List UInt8) : w ++ u < w ++ v ↔ u < v := by
  induction w with
  | nil => rfl
  | cons b w ih => rw [List.cons_append, List.cons_append, List.cons_lt_cons_self, ih]

theorem utf8EncodeChar_ne_nil (c : Char) : String.utf8EncodeChar c ≠ [] := by
  rw [String.utf8EncodeChar]
  split_ifs <;> exact List.cons_ne_nil _ _

theorem flatMap_utf8_lt_iff (cs ds : List Char) :
    cs.flatMap String.utf8EncodeChar < ds.flatMap String.utf8EncodeChar ↔ cs < ds := by
  induction cs generalizing ds with
  | nil =>
    cases ds with
    | nil => simp
    | cons d ds =>
      obtain ⟨b, bs, hbytes⟩ := List.exists_cons_of_ne_nil (utf8EncodeChar_ne_nil d)
      simp [hbytes]
  | cons c cs ih =>
    cases ds with
    | nil => simp
    | cons d ds =>
      rw [List.flatMap_cons, List.flatMap_cons, List.cons_lt_cons_iff]
      rcases lt_trichotomy c d with h | rfl | h
      · exact ⟨fun _ => .inl h, fun _ => utf8EncodeChar_append_lt h _ _⟩
      · rw [append_lt_append_iff, ih]
        simp
      · refine ⟨fun hlt => absurd hlt ?_, fun hlt => absurd hlt ?_⟩
        · exact List.lt_asymm (utf8EncodeChar_append_lt h _ _)
        · rintro (hcd | ⟨rfl, -⟩)
          · exact lt_asymm hcd h
          · exact lt_irrefl _ h

/-- **The order of texts is the order of their bytes.** -/
theorem lt_iff_utf8_lt (s t : String) : s < t ↔ s.toUTF8.data.toList < t.toUTF8.data.toList := by
  rw [utf8_eq_flatMap, utf8_eq_flatMap, flatMap_utf8_lt_iff]
  exact Iff.rfl

end SqlTree
