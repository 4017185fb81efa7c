import Mathlib.Data.List.Lex

/-!
# Byte order — texts in order of their bytes

Texts are compared character by character, and characters by their numbers. Sorted maps of programs that store texts
as bytes compare these byte by byte. The encoding is made so that both say the same: among characters of as many bytes
the bytes are digits of the number, most significant first, and a character of more bytes has a greater first byte.

* **`encoded_lt`** — the bytes of the smaller character come first, whatever follows them.
* **`lt_iff_bytes_lt`** — texts are in order exactly if their bytes are.
-/

namespace ResourceLang.Text

/-- The bytes of a text. -/
def bytes (s : String) : List UInt8 := s.toUTF8.data.toList

/-- The bytes of a text are those of its characters. -/
theorem bytes_eq_flatMap (s : String) : bytes s = s.toList.flatMap String.utf8EncodeChar := by
  have hchars : String.ofList s.toList = s := String.ofList_toList
  calc bytes s = (String.ofList s.toList).toByteArray.data.toList := by
        rw [bytes, String.toUTF8_eq_toByteArray, hchars]
    _ = s.toList.flatMap String.utf8EncodeChar := by
        rw [String.toByteArray_ofList, List.utf8Encode, List.data_toByteArray, List.toList_toArray]

/-- The bytes of the smaller character come first, whatever follows them. -/
theorem encoded_lt {c d : Char} (h : c < d) (s t : List UInt8) :
    String.utf8EncodeChar c ++ s < String.utf8EncodeChar d ++ t := by
  have hlt : c.val.toNat < d.val.toNat := h
  have hd : d.val.toNat < 1114112 := by
    rcases d.valid with hd | hd <;> omega
  simp only [String.utf8EncodeChar]
  generalize c.val.toNat = v at hlt
  generalize d.val.toNat = w at hlt hd
  -- one case for each pair of lengths: where they differ the first bytes decide, else the digits do
  split_ifs
  all_goals
    simp (disch := omega) only [List.cons_append, List.nil_append, List.cons_lt_cons_iff, UInt8.lt_iff_toNat_lt,
      ← UInt8.toNat_inj, UInt8.toNat_ofNat', Nat.mod_eq_of_lt]
    omega

/-- Characters in order are encoded in order. -/
theorem flatMap_encoded_lt {s t : List Char} (h : s < t) :
    s.flatMap String.utf8EncodeChar < t.flatMap String.utf8EncodeChar := by
  induction h with
  | @nil c rest =>
      obtain ⟨b, bs, hbytes⟩ := List.exists_cons_of_ne_nil (String.utf8EncodeChar_ne_nil (c := c))
      rw [List.flatMap_cons, hbytes]
      exact List.Lex.nil
  | rel h =>
      rw [List.flatMap_cons, List.flatMap_cons]
      exact encoded_lt h _ _
  | cons _ ih =>
      rw [List.flatMap_cons, List.flatMap_cons]
      exact List.append_left_lt ih

/-- **Texts are in order** exactly if their bytes are. -/
theorem lt_iff_bytes_lt (s t : String) : s < t ↔ bytes s < bytes t := by
  have hforward : ∀ {s t : String}, s < t → bytes s < bytes t := by
    intro s t h
    rw [bytes_eq_flatMap, bytes_eq_flatMap]
    exact flatMap_encoded_lt h
  refine ⟨hforward, fun h => ?_⟩
  by_contra hnot
  rcases eq_or_ne t s with rfl | hne
  · exact List.lt_irrefl _ h
  · exact List.lt_asymm h (hforward (Std.lt_of_le_of_ne (String.not_lt.mp hnot) hne))

end ResourceLang.Text
