import Tabular.Text.Input

/-!
# Encoded texts

Encoding a text as bytes and reading the bytes as marks gives the characters of the text. The first
byte of a character tells how many bytes follow it, and each of these holds six bits of the code
point.
-/

namespace Tabular.Text

theorem toNat_ofNat_of_lt {n : Nat} (small : n < 256) : (UInt8.ofNat n).toNat = n := by
  rw [UInt8.toNat_ofNat']
  omega

theorem continuation?_ofNat (n : Nat) :
    continuation? (UInt8.ofNat (n % 64 + 128)) = some (n % 64) := by
  rw [continuation?, toNat_ofNat_of_lt (by omega), if_pos (by omega), Nat.add_sub_cancel]

section

variable {n : Nat}

theorem decodeFirst?_oneByte (high : n < 0x80) (rest : List UInt8) :
    decodeFirst? (.ofNat n :: rest) = some (Char.ofNat n, 0) := by
  simp only [decodeFirst?]
  rw [toNat_ofNat_of_lt (by omega), if_pos high]

theorem decodeFirst?_twoBytes (low : 0x80 ≤ n) (high : n < 0x800) (rest : List UInt8) :
    decodeFirst? (.ofNat (n / 64 % 32 + 192) :: .ofNat (n % 64 + 128) :: rest) =
      some (Char.ofNat n, 1) := by
  have lead : (UInt8.ofNat (n / 64 % 32 + 192)).toNat = n / 64 + 192 := by
    rw [toNat_ofNat_of_lt (by omega)]
    omega
  have whole : (n / 64 + 192 - 192) * 64 + n % 64 = n := by omega
  simp only [decodeFirst?, lead, continuation?_ofNat, Option.map_some, whole]
  rw [if_neg (by omega), if_pos (by omega)]

theorem decodeFirst?_threeBytes (low : 0x800 ≤ n) (high : n < 0x10000)
    (apart : n < 0xd800 ∨ 0xe000 ≤ n) (rest : List UInt8) :
    decodeFirst? (.ofNat (n / 4096 % 16 + 224) :: .ofNat (n / 64 % 64 + 128) ::
      .ofNat (n % 64 + 128) :: rest) = some (Char.ofNat n, 2) := by
  have lead : (UInt8.ofNat (n / 4096 % 16 + 224)).toNat = n / 4096 + 224 := by
    rw [toNat_ofNat_of_lt (by omega)]
    omega
  have whole : (n / 4096 + 224 - 224) * 4096 + n / 64 % 64 * 64 + n % 64 = n := by omega
  simp only [decodeFirst?, lead, continuation?_ofNat, Option.bind_some, whole]
  rw [if_neg (by omega), if_neg (by omega), if_pos (by omega), if_pos ⟨low, apart⟩]

theorem decodeFirst?_fourBytes (low : 0x10000 ≤ n) (high : n < 0x110000) (rest : List UInt8) :
    decodeFirst? (.ofNat (n / 262144 % 8 + 240) :: .ofNat (n / 4096 % 64 + 128) ::
      .ofNat (n / 64 % 64 + 128) :: .ofNat (n % 64 + 128) :: rest) = some (Char.ofNat n, 3) := by
  have lead : (UInt8.ofNat (n / 262144 % 8 + 240)).toNat = n / 262144 + 240 := by
    rw [toNat_ofNat_of_lt (by omega)]
    omega
  have whole : n / 262144 * 262144 + n / 4096 % 64 * 4096 + n / 64 % 64 * 64 + n % 64 = n := by
    omega
  rw [decodeFirst?, lead, if_neg (by omega), if_neg (by omega), if_neg (by omega),
    if_pos (by omega)]
  -- Rewriting below the binders would make the kernel compare products with large factors.
  dsimp only
  rw [continuation?_ofNat, Option.bind_some, continuation?_ofNat, Option.bind_some,
    continuation?_ofNat, Option.bind_some, Nat.add_sub_cancel, whole, if_pos ⟨low, high⟩]

end

theorem decodeFirst?_utf8EncodeChar (c : Char) :
    ∃ byte bytes, String.utf8EncodeChar c = byte :: bytes ∧
      ∀ rest, decodeFirst? (byte :: (bytes ++ rest)) = some (c, bytes.length) := by
  obtain ⟨n, code⟩ : ∃ n, c.val.toNat = n := ⟨_, rfl⟩
  have known : Char.ofNat n = c := code ▸ Char.ofNat_toNat c
  have apart : n < 0xd800 ∨ 0xe000 ≤ n ∧ n < 0x110000 := by
    rcases c.valid with low | ⟨above, below⟩
    · exact .inl (code ▸ low)
    · exact .inr ⟨Nat.succ_le_of_lt (code ▸ above), code ▸ below⟩
  simp only [String.utf8EncodeChar, code]
  rw [← known]
  split
  · exact ⟨_, _, rfl, decodeFirst?_oneByte (by omega)⟩
  split
  · exact ⟨_, _, rfl, decodeFirst?_twoBytes (by omega) (by omega)⟩
  split
  · exact ⟨_, _, rfl, decodeFirst?_threeBytes (by omega) (by omega) (by omega)⟩
  · exact ⟨_, _, rfl, decodeFirst?_fourBytes (by omega) (by omega)⟩

theorem decodeAux_skip (bytes rest : List UInt8) :
    decodeAux bytes.length (bytes ++ rest) = decodeAux 0 rest := by
  induction bytes with
  | nil => rfl
  | cons byte bytes ih => exact ih

theorem decodeAux_utf8EncodeChar (c : Char) (rest : List UInt8) :
    decodeAux 0 (String.utf8EncodeChar c ++ rest) = .char c :: decodeAux 0 rest := by
  obtain ⟨byte, bytes, spelled, decoded⟩ := decodeFirst?_utf8EncodeChar c
  rw [spelled, List.cons_append, decodeAux, decoded]
  exact congrArg _ (decodeAux_skip bytes rest)

theorem ofBytes_flatMap_utf8EncodeChar (cs : List Char) :
    Input.ofBytes (cs.flatMap String.utf8EncodeChar) = cs.map Mark.char := by
  induction cs with
  | nil => rfl
  | cons c cs ih =>
    rw [List.flatMap_cons, Input.ofBytes, decodeAux_utf8EncodeChar, List.map_cons]
    exact congrArg _ ih

theorem toList_loop_eq_append_drop (bytes : ByteArray) (i : Nat) (read : List UInt8) :
    ByteArray.toList.loop bytes i read = read.reverse ++ bytes.data.toList.drop i := by
  fun_induction ByteArray.toList.loop bytes i read with
  | case1 i read inside ih =>
    have bound : i < bytes.data.toList.length := by simpa using inside
    have item : bytes.get! i = bytes.data.toList[i] := by simp [ByteArray.get!, inside]
    rw [ih, List.drop_eq_getElem_cons bound, item, List.reverse_cons, List.append_assoc,
      List.singleton_append]
  | case2 i read outside =>
    rw [List.drop_eq_nil_of_le (by simpa using outside), List.append_nil]

theorem toList_toUTF8 (s : String) : s.toUTF8.toList = s.toList.flatMap String.utf8EncodeChar := by
  have bytes : s.toUTF8 = (s.toList.flatMap String.utf8EncodeChar).toByteArray :=
    String.utf8Encode_toList.symm
  rw [bytes, ByteArray.toList, toList_loop_eq_append_drop, List.toList_data_toByteArray]
  rfl

/-- Reading undoes the encoding of a text. -/
theorem ofBytes_toUTF8 (s : String) : Input.ofBytes s.toUTF8.toList = Input.ofText s := by
  rw [toList_toUTF8, ofBytes_flatMap_utf8EncodeChar, Input.ofText]

end Tabular.Text
