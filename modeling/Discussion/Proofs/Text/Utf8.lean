import Discussion.Text.Utf8

/-!
# Texts as bytes and back

The bytes of a text are the bytes of its characters in order, and reading them gives
the characters back.
-/

namespace Discussion

namespace Utf8

/-- Bytes taken out of an array from a position on. -/
theorem toList_loop (bytes : ByteArray) (i : Nat) (found : List UInt8) :
    ByteArray.toList.loop bytes i found = found.reverse ++ bytes.data.toList.drop i := by
  induction h : bytes.size - i generalizing i found with
  | zero =>
      have hi : bytes.data.toList.length ≤ i := by
        have hsize : bytes.data.toList.length = bytes.size := rfl
        omega
      rw [ByteArray.toList.loop.eq_def, if_neg (by omega), List.drop_eq_nil_of_le hi,
        List.append_nil]
  | succ left ih =>
      have hi : i < bytes.data.toList.length := by
        have hsize : bytes.data.toList.length = bytes.size := rfl
        omega
      have hget : bytes.get! i = bytes.data.toList[i] := by
        change bytes.data[i]! = _
        rw [getElem!_pos bytes.data i (by simpa using hi)]
        simp
      rw [ByteArray.toList.loop.eq_def, if_pos (by omega), ih (i + 1) _ (by omega),
        List.drop_eq_getElem_cons hi, hget]
      simp

theorem toList_eq (bytes : ByteArray) : bytes.toList = bytes.data.toList := by
  rw [ByteArray.toList, toList_loop]
  simp

/-- The bytes of a text are those of its characters in order. -/
theorem encode_eq (s : String) : encode s = s.toList.flatMap String.utf8EncodeChar := by
  have hbytes : s.toUTF8 = (s.toList.flatMap String.utf8EncodeChar).toByteArray := by
    rw [String.toUTF8_eq_toByteArray, ← String.utf8Encode_toList]
    rfl
  rw [encode, hbytes, toList_eq, List.data_toByteArray]

/-! ## One character -/

theorem continuation?_ofNat {n : Nat} (h : n < 64) :
    continuation? (UInt8.ofNat (n + 128)) = some n := by
  have hall : ∀ n < 64, continuation? (UInt8.ofNat (n + 128)) = some n := by decide
  exact hall n h

theorem charIn?_toNat {c : Char} {low high n : Nat} (hn : n = c.toNat) (hlow : low ≤ c.toNat)
    (hhigh : c.toNat ≤ high) : charIn? low high n = some c := by
  subst hn
  rw [charIn?, if_pos ⟨hlow, hhigh, c.valid⟩, Char.ofNat_toNat]

theorem ofNat_lt_iff {n : Nat} (h : n < 256) (b : UInt8) : UInt8.ofNat n < b ↔ n < b.toNat := by
  rw [UInt8.lt_iff_toNat_lt, UInt8.toNat_ofNat_of_lt' h]

theorem toNat_ofNat {n : Nat} (h : n < 256) : (UInt8.ofNat n).toNat = n :=
  UInt8.toNat_ofNat_of_lt' h

theorem char?_of_oneByte {c : Char} (h : c.toNat < 128) (rest : Bytes) :
    char? (UInt8.ofNat c.toNat) rest = some (c, 0) := by
  have h80 : UInt8.ofNat c.toNat < 0x80 := (ofNat_lt_iff (by omega) _).mpr h
  rw [char?.eq_def, if_pos h80, toNat_ofNat (by omega), Char.ofNat_toNat]

theorem char?_of_twoBytes {c : Char} {a b : Nat} (ha : a < 32) (hb : b < 64)
    (hvalue : c.toNat = a * 64 + b) (hlow : 0x80 ≤ c.toNat) (rest : Bytes) :
    char? (UInt8.ofNat (a + 192)) (UInt8.ofNat (b + 128) :: rest) = some (c, 1) := by
  have hfirst := ofNat_lt_iff (n := a + 192) (by omega)
  have h80 : ¬ UInt8.ofNat (a + 192) < 0x80 := by rw [hfirst]; simp
  have hC0 : ¬ UInt8.ofNat (a + 192) < 0xC0 := by rw [hfirst]; simp
  have hE0 : UInt8.ofNat (a + 192) < 0xE0 := by rw [hfirst]; simp; omega
  have hchar : charIn? 0x80 0x7FF ((a + 192 - 0xC0) * 64 + b) = some c :=
    charIn?_toNat (by omega) hlow (by omega)
  rw [char?.eq_def, if_neg h80, if_neg hC0, if_pos hE0]
  simp only [continuation?_ofNat hb, toNat_ofNat (n := a + 192) (by omega), Option.bind_eq_bind,
    Option.bind_some, hchar]

theorem char?_of_threeBytes {c : Char} {a b d : Nat} (ha : a < 16) (hb : b < 64) (hd : d < 64)
    (hvalue : c.toNat = (a * 64 + b) * 64 + d) (hlow : 0x800 ≤ c.toNat) (rest : Bytes) :
    char? (UInt8.ofNat (a + 224)) (UInt8.ofNat (b + 128) :: UInt8.ofNat (d + 128) :: rest) =
      some (c, 2) := by
  have hfirst := ofNat_lt_iff (n := a + 224) (by omega)
  have h80 : ¬ UInt8.ofNat (a + 224) < 0x80 := by rw [hfirst]; simp
  have hC0 : ¬ UInt8.ofNat (a + 224) < 0xC0 := by rw [hfirst]; simp
  have hE0 : ¬ UInt8.ofNat (a + 224) < 0xE0 := by rw [hfirst]; simp
  have hF0 : UInt8.ofNat (a + 224) < 0xF0 := by rw [hfirst]; simp; omega
  have hchar : charIn? 0x800 0xFFFF (((a + 224 - 0xE0) * 64 + b) * 64 + d) = some c :=
    charIn?_toNat (by omega) hlow (by omega)
  rw [char?.eq_def, if_neg h80, if_neg hC0, if_neg hE0, if_pos hF0]
  simp only [continuation?_ofNat hb, continuation?_ofNat hd, toNat_ofNat (n := a + 224) (by omega),
    Option.bind_eq_bind, Option.bind_some, hchar]

theorem char?_of_fourBytes {c : Char} {a b d e : Nat} (ha : a < 8) (hb : b < 64) (hd : d < 64)
    (he : e < 64) (hvalue : c.toNat = ((a * 64 + b) * 64 + d) * 64 + e)
    (hlow : 0x10000 ≤ c.toNat) (hhigh : c.toNat ≤ 0x10FFFF) (rest : Bytes) :
    char? (UInt8.ofNat (a + 240))
      (UInt8.ofNat (b + 128) :: UInt8.ofNat (d + 128) :: UInt8.ofNat (e + 128) :: rest) =
      some (c, 3) := by
  have hfirst := ofNat_lt_iff (n := a + 240) (by omega)
  have h80 : ¬ UInt8.ofNat (a + 240) < 0x80 := by rw [hfirst]; simp
  have hC0 : ¬ UInt8.ofNat (a + 240) < 0xC0 := by rw [hfirst]; simp
  have hE0 : ¬ UInt8.ofNat (a + 240) < 0xE0 := by rw [hfirst]; simp
  have hF0 : ¬ UInt8.ofNat (a + 240) < 0xF0 := by rw [hfirst]; simp
  have hF8 : UInt8.ofNat (a + 240) < 0xF8 := by rw [hfirst]; simp; omega
  have hchar : charIn? 0x10000 0x10FFFF ((((a + 240 - 0xF0) * 64 + b) * 64 + d) * 64 + e) =
      some c := charIn?_toNat (by omega) hlow hhigh
  rw [char?.eq_def, if_neg h80, if_neg hC0, if_neg hE0, if_neg hF0, if_pos hF8]
  simp only [continuation?_ofNat hb, continuation?_ofNat hd, continuation?_ofNat he,
    toNat_ofNat (n := a + 240) (by omega), Option.bind_eq_bind, Option.bind_some, hchar]

/-- The bytes of a character are a first one and as many others as that one asks for. -/
theorem char?_utf8EncodeChar (c : Char) (rest : Bytes) :
    ∃ first others, String.utf8EncodeChar c = first :: others ∧
      char? first (others ++ rest) = some (c, others.length) := by
  have hvalid : c.toNat < 0x110000 := by
    have hchar := c.valid
    change c.toNat.isValidChar at hchar
    rcases hchar with hlow | ⟨-, hhigh⟩
    · omega
    · exact hhigh
  have hval : c.val.toNat = c.toNat := rfl
  simp only [String.utf8EncodeChar, hval]
  by_cases h1 : c.toNat ≤ 127
  · rw [if_pos h1]
    exact ⟨_, _, rfl, char?_of_oneByte (by omega) _⟩
  · by_cases h2 : c.toNat ≤ 2047
    · rw [if_neg h1, if_pos h2]
      exact ⟨_, _, rfl, char?_of_twoBytes (by omega) (by omega) (by omega) (by omega) _⟩
    · by_cases h3 : c.toNat ≤ 65535
      · rw [if_neg h1, if_neg h2, if_pos h3]
        exact ⟨_, _, rfl,
          char?_of_threeBytes (by omega) (by omega) (by omega) (by omega) (by omega) _⟩
      · rw [if_neg h1, if_neg h2, if_neg h3]
        exact ⟨_, _, rfl, char?_of_fourBytes (by omega) (by omega) (by omega) (by omega)
          (by omega) (by omega) (by omega) _⟩

/-! ## A whole text -/

theorem decodeOnto_encodeChars (cs : List Char) (found : List (Option Char)) :
    decodeOnto (cs.flatMap String.utf8EncodeChar) found = (cs.map some).reverse ++ found := by
  induction cs generalizing found with
  | nil => simp [decodeOnto]
  | cons c cs ih =>
      obtain ⟨first, others, hbytes, hchar⟩ :=
        char?_utf8EncodeChar c (cs.flatMap String.utf8EncodeChar)
      rw [List.flatMap_cons, hbytes, List.cons_append, decodeOnto.eq_def]
      simp only [hchar, List.drop_left, ih]
      simp

/-- The bytes of a text are read as its characters. -/
theorem decode_encode (s : String) : decode (encode s) = s.toList.map some := by
  rw [decode, encode_eq, decodeOnto_encodeChars]
  simp

/-- All bytes of a text belong to its characters. -/
theorem text?_encode (s : String) : text? (encode s) = some s.toList := by
  rw [text?, decode_encode, List.mapM_map]
  simpa using List.mapM_pure (m := Option) (f := id)

end Utf8

end Discussion
