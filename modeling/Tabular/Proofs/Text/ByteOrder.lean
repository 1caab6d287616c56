import Tabular.Proofs.Text.Encoding

/-!
# The order of encoded texts

Texts are ordered by the code points of their characters, and their encodings by bytes. The two
orders agree: of two characters with equally many bytes the smaller one has the smaller bytes, and
fewer bytes begin with a smaller one.
-/

namespace Tabular.Text

theorem cons_lt_cons_of_lt {m n : Nat} (less : m < n) (small : n < 256)
    (behind others : List UInt8) : UInt8.ofNat m :: behind < UInt8.ofNat n :: others := by
  have first : UInt8.ofNat m < UInt8.ofNat n := by
    rw [UInt8.lt_iff_toNat_lt, toNat_ofNat_of_lt small, toNat_ofNat_of_lt (by omega)]
    exact less
  exact List.cons_lt_cons_iff.mpr (.inl first)

theorem append_lt_append {first second : List UInt8} (same : first.length = second.length)
    (less : first < second) (behind others : List UInt8) :
    first ++ behind < second ++ others := by
  induction less with
  | nil => simp at same
  | cons _ ih => exact List.cons_lt_cons_iff.mpr (.inr ⟨rfl, ih (by simpa using same)⟩)
  | rel less => exact List.cons_lt_cons_iff.mpr (.inl less)

/-- The bytes of the numbers below a bound are equally many and ascend. -/
structure Ascends (bytes : Nat → List UInt8) (bound : Nat) : Prop where
  length : ∀ m n, (bytes m).length = (bytes n).length
  less : ∀ m n, m < n → n < bound → bytes m < bytes n

theorem ascends_lead {size mark : Nat} (small : size + mark ≤ 256) :
    Ascends (fun n => [.ofNat (n % size + mark)]) size where
  length _ _ := rfl
  less m n less high := by
    rw [Nat.mod_eq_of_lt high, Nat.mod_eq_of_lt (Nat.lt_trans less high)]
    exact cons_lt_cons_of_lt (by omega) (by omega) _ _

theorem Ascends.continued {bytes : Nat → List UInt8} {bound : Nat} (ascends : Ascends bytes bound) :
    Ascends (fun n => bytes (n / 64) ++ [.ofNat (n % 64 + 128)]) (bound * 64) where
  length m n := by simp [ascends.length (m / 64) (n / 64)]
  less m n less high := by
    by_cases same : m / 64 = n / 64
    · rw [same]
      exact List.append_left_lt (cons_lt_cons_of_lt (by omega) (by omega) _ _)
    · exact append_lt_append (ascends.length _ _)
        (ascends.less _ _ (by omega) (by omega)) _ _

theorem ascends_twoBytes :
    Ascends (fun n => [.ofNat (n / 64 % 32 + 192), .ofNat (n % 64 + 128)]) 0x800 :=
  (ascends_lead (by decide : 32 + 192 ≤ 256)).continued

theorem ascends_threeBytes :
    Ascends (fun n => [.ofNat (n / 4096 % 16 + 224), .ofNat (n / 64 % 64 + 128),
      .ofNat (n % 64 + 128)]) 0x10000 := by
  simpa [Nat.div_div_eq_div_mul] using
    (ascends_lead (by decide : 16 + 224 ≤ 256)).continued.continued

theorem ascends_fourBytes :
    Ascends (fun n => [.ofNat (n / 262144 % 8 + 240), .ofNat (n / 4096 % 64 + 128),
      .ofNat (n / 64 % 64 + 128), .ofNat (n % 64 + 128)]) 0x200000 := by
  simpa [Nat.div_div_eq_div_mul] using
    (ascends_lead (by decide : 8 + 240 ≤ 256)).continued.continued.continued

theorem Ascends.append_lt {bytes : Nat → List UInt8} {bound m n : Nat}
    (ascends : Ascends bytes bound) (less : m < n) (high : n < bound)
    (behind others : List UInt8) : bytes m ++ behind < bytes n ++ others :=
  append_lt_append (ascends.length m n) (ascends.less m n less high) behind others

theorem utf8EncodeChar_append_lt {c d : Char} (less : c < d) (behind others : List UInt8) :
    String.utf8EncodeChar c ++ behind < String.utf8EncodeChar d ++ others := by
  have less : c.val.toNat < d.val.toNat := UInt32.lt_iff_toNat_lt.mp (Char.lt_def.mp less)
  have bound : d.val.toNat < 0x110000 := by
    rcases d.valid with low | ⟨-, high⟩
    · exact Nat.lt_trans low (by decide)
    · exact high
  simp only [String.utf8EncodeChar]
  generalize c.val.toNat = m at *
  generalize d.val.toNat = n at *
  -- Equally many bytes ascend with the number, and otherwise the first byte decides.
  split
  · split
    · exact cons_lt_cons_of_lt less (by omega) _ _
    split
    · exact cons_lt_cons_of_lt (by omega) (by omega) _ _
    split
    · exact cons_lt_cons_of_lt (by omega) (by omega) _ _
    · exact cons_lt_cons_of_lt (by omega) (by omega) _ _
  rw [if_neg (by omega : ¬n ≤ 127)]
  split
  · split
    · exact ascends_twoBytes.append_lt less (by omega) _ _
    split
    · exact cons_lt_cons_of_lt (by omega) (by omega) _ _
    · exact cons_lt_cons_of_lt (by omega) (by omega) _ _
  rw [if_neg (by omega : ¬n ≤ 2047)]
  split
  · split
    · exact ascends_threeBytes.append_lt less (by omega) _ _
    · exact cons_lt_cons_of_lt (by omega) (by omega) _ _
  · rw [if_neg (by omega : ¬n ≤ 65535)]
    exact ascends_fourBytes.append_lt less (by omega) _ _

theorem flatMap_utf8EncodeChar_lt {cs ds : List Char} (less : cs < ds) :
    cs.flatMap String.utf8EncodeChar < ds.flatMap String.utf8EncodeChar := by
  induction less with
  | @nil d ds =>
    obtain ⟨byte, bytes, spelled, -⟩ := decodeFirst?_utf8EncodeChar d
    rw [List.flatMap_nil, List.flatMap_cons, spelled]
    exact List.nil_lt_cons _ _
  | cons _ ih =>
    rw [List.flatMap_cons, List.flatMap_cons]
    exact List.append_left_lt ih
  | rel less =>
    rw [List.flatMap_cons, List.flatMap_cons]
    exact utf8EncodeChar_append_lt less _ _

/-- The order of texts is the order of their bytes. -/
theorem toList_toUTF8_lt_iff {s t : String} : s.toUTF8.toList < t.toUTF8.toList ↔ s < t := by
  have forward {s t : String} (less : s < t) : s.toUTF8.toList < t.toUTF8.toList := by
    rw [toList_toUTF8, toList_toUTF8]
    exact flatMap_utf8EncodeChar_lt (String.lt_iff.mp less)
  refine ⟨fun less => ?_, forward⟩
  rcases Std.lt_trichotomy s t with before | same | behind
  · exact before
  · exact absurd (same ▸ less) (List.lt_irrefl _)
  · exact absurd less (List.lt_asymm (forward behind))

end Tabular.Text
