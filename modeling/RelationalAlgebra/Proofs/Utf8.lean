import Mathlib.Data.String.Basic
import Mathlib.Tactic.SplitIfs
import RelationalAlgebra.Text.Utf8

/-!
# Decoding undoes encoding

A character is encoded by one to four bytes, and which bytes these can be is just what the decoder
tests, byte by byte. So the decoder accepts exactly the encodings of texts and gives back the text
(`Utf8.decode_eq_ok_iff`). Encoding keeps the order of texts (`Utf8.encode_le_encode_iff`).
-/
namespace RelationalAlgebra.Utf8

variable {a b c d : UInt8} {x y : Char} {n : Nat} {s t : String}

/-! ### Bytes as numbers -/

theorem isContinuation_iff : isContinuation b ↔ 128 ≤ b.toNat ∧ b.toNat ≤ 191 := by
  simp [isContinuation, UInt8.le_iff_toNat_le]

theorem isSecondOfThree_iff : isSecondOfThree a b ↔ isContinuation b ∧
    (a.toNat = 224 → 160 ≤ b.toNat) ∧ (a.toNat = 237 → b.toNat ≤ 159) := by
  have h224 : a = 0xe0 ↔ a.toNat = 224 := UInt8.toNat_inj.symm
  have h237 : a = 0xed ↔ a.toNat = 237 := UInt8.toNat_inj.symm
  simp only [isSecondOfThree, h224, h237, isContinuation_iff]
  split_ifs
  · simp [UInt8.le_iff_toNat_le]
    omega
  · simp [UInt8.le_iff_toNat_le]
    omega
  · rw [isContinuation_iff]
    omega

theorem isSecondOfFour_iff : isSecondOfFour a b ↔ isContinuation b ∧
    (a.toNat = 240 → 144 ≤ b.toNat) ∧ (a.toNat = 244 → b.toNat ≤ 143) := by
  have h240 : a = 0xf0 ↔ a.toNat = 240 := UInt8.toNat_inj.symm
  have h244 : a = 0xf4 ↔ a.toNat = 244 := UInt8.toNat_inj.symm
  simp only [isSecondOfFour, h240, h244, isContinuation_iff]
  split_ifs
  · simp [UInt8.le_iff_toNat_le]
    omega
  · simp [UInt8.le_iff_toNat_le]
    omega
  · rw [isContinuation_iff]
    omega

theorem ofNat_eq_iff : UInt8.ofNat n = a ↔ n % 256 = a.toNat := by
  rw [← UInt8.toNat_inj, UInt8.toNat_ofNat']

theorem val_toNat (x : Char) : x.val.toNat = x.toNat := rfl

theorem toNat_bounds (x : Char) : x.toNat < 55296 ∨ 57343 < x.toNat ∧ x.toNat < 1114112 := x.valid

theorem eq_ofNat_iff (h : n < 55296 ∨ 57343 < n ∧ n < 1114112) :
    x = Char.ofNat n ↔ x.toNat = n := by
  constructor
  · rintro rfl
    have hvalid : n.isValidChar := h
    rw [Char.ofNat, dif_pos hvalid]
    rfl
  · rintro rfl
    exact (Char.ofNat_toNat x).symm

theorem toNat_and_mask (b : UInt8) :
    (b &&& 0x3f).toNat = b.toNat % 64 ∧ (b &&& 0x1f).toNat = b.toNat % 32 ∧
      (b &&& 0x0f).toNat = b.toNat % 16 ∧ (b &&& 0x07).toNat = b.toNat % 8 := by
  simp only [UInt8.toNat_and]
  exact ⟨Nat.and_two_pow_sub_one_eq_mod _ 6, Nat.and_two_pow_sub_one_eq_mod _ 5,
    Nat.and_two_pow_sub_one_eq_mod _ 4, Nat.and_two_pow_sub_one_eq_mod _ 3⟩

/-! ### The bytes of a character

For each length, first which numbers the bytes are, then the same in the decoder's own tests. -/

theorem encodeChar_eq_one_iff :
    String.utf8EncodeChar x = [a] ↔ a < 0x80 ∧ x = Char.ofNat a.toNat := by
  have hbytes : String.utf8EncodeChar x = [a] ↔ a.toNat < 128 ∧ x.toNat = a.toNat := by
    simp only [String.utf8EncodeChar, val_toNat]
    split_ifs <;> simp [-UInt8.ofNat_add, ofNat_eq_iff] at * <;> omega
  rw [hbytes, UInt8.lt_iff_toNat_lt]
  refine and_congr_right fun ha => (eq_ofNat_iff ?_).symm
  omega

theorem encodeChar_eq_two_iff : String.utf8EncodeChar x = [a, b] ↔
    (0xc2 ≤ a ∧ a ≤ 0xdf) ∧ isContinuation b ∧ x = assemble a 0x1f [b] := by
  have hbytes : String.utf8EncodeChar x = [a, b] ↔ (194 ≤ a.toNat ∧ a.toNat ≤ 223) ∧
      isContinuation b ∧ x.toNat = a.toNat % 32 * 64 + b.toNat % 64 := by
    have ha := a.toNat_lt
    simp only [String.utf8EncodeChar, val_toNat, isContinuation_iff]
    split_ifs <;> simp [-UInt8.ofNat_add, ofNat_eq_iff] at * <;> omega
  rw [hbytes, UInt8.le_iff_toNat_le, UInt8.le_iff_toNat_le]
  refine and_congr_right fun ha => and_congr_right fun hb => ?_
  simp only [assemble, List.foldl, toNat_and_mask]
  refine (eq_ofNat_iff ?_).symm
  omega

theorem encodeChar_eq_three_iff : String.utf8EncodeChar x = [a, b, c] ↔
    (0xe0 ≤ a ∧ a ≤ 0xef) ∧ isSecondOfThree a b ∧ isContinuation c ∧
      x = assemble a 0x0f [b, c] := by
  have hvalid := toNat_bounds x
  have hbytes : String.utf8EncodeChar x = [a, b, c] ↔ (224 ≤ a.toNat ∧ a.toNat ≤ 239) ∧
      isSecondOfThree a b ∧ isContinuation c ∧
        x.toNat = (a.toNat % 16 * 64 + b.toNat % 64) * 64 + c.toNat % 64 := by
    simp only [String.utf8EncodeChar, val_toNat, isSecondOfThree_iff, isContinuation_iff]
    split_ifs <;> simp [-UInt8.ofNat_add, ofNat_eq_iff] at * <;> omega
  rw [hbytes, UInt8.le_iff_toNat_le, UInt8.le_iff_toNat_le]
  refine and_congr_right fun ha => and_congr_right fun hb => and_congr_right fun hc => ?_
  simp only [assemble, List.foldl, toNat_and_mask]
  refine (eq_ofNat_iff ?_).symm
  rw [isSecondOfThree_iff, isContinuation_iff] at hb
  omega

theorem encodeChar_eq_four_iff : String.utf8EncodeChar x = [a, b, c, d] ↔
    (0xf0 ≤ a ∧ a ≤ 0xf4) ∧ isSecondOfFour a b ∧ isContinuation c ∧ isContinuation d ∧
      x = assemble a 0x07 [b, c, d] := by
  have hvalid := toNat_bounds x
  have hbytes : String.utf8EncodeChar x = [a, b, c, d] ↔ (240 ≤ a.toNat ∧ a.toNat ≤ 244) ∧
      isSecondOfFour a b ∧ isContinuation c ∧ isContinuation d ∧
        x.toNat = ((a.toNat % 8 * 64 + b.toNat % 64) * 64 + c.toNat % 64) * 64 + d.toNat % 64 := by
    simp only [String.utf8EncodeChar, val_toNat, isSecondOfFour_iff, isContinuation_iff]
    split_ifs <;> simp [-UInt8.ofNat_add, ofNat_eq_iff] at * <;> omega
  rw [hbytes, UInt8.le_iff_toNat_le, UInt8.le_iff_toNat_le]
  refine and_congr_right fun ha => and_congr_right fun hb => and_congr_right fun hc =>
    and_congr_right fun hd => ?_
  simp only [assemble, List.foldl, toNat_and_mask]
  refine (eq_ofNat_iff ?_).symm
  rw [isSecondOfFour_iff, isContinuation_iff] at hb
  omega

theorem encodeChar_cases (x : Char) :
    (∃ a, String.utf8EncodeChar x = [a]) ∨ (∃ a b, String.utf8EncodeChar x = [a, b]) ∨
      (∃ a b c, String.utf8EncodeChar x = [a, b, c]) ∨
      ∃ a b c d, String.utf8EncodeChar x = [a, b, c, d] := by
  simp only [String.utf8EncodeChar]
  split_ifs <;> simp

/-- Characters are in the order of their bytes, whatever follows these. -/
theorem encodeChar_lt (h : x < y) (front back : List UInt8) :
    String.utf8EncodeChar x ++ front < String.utf8EncodeChar y ++ back := by
  have hxvalid := toNat_bounds x
  have hyvalid := toNat_bounds y
  have h : x.toNat < y.toNat := h
  simp only [String.utf8EncodeChar, val_toNat]
  split_ifs <;>
    simp [-UInt8.ofNat_add, List.cons_lt_cons_iff, UInt8.lt_iff_toNat_lt, ← UInt8.toNat_inj]
  -- No byte exceeds 255, which settles a comparison of four bytes with four only after this.
  all_goals simp (disch := omega) only [Nat.mod_eq_of_lt]
  all_goals omega

/-! ### The bytes of a text -/

theorem decodeFrom_encodeChar (index : Nat) (x : Char) (rest : List UInt8) :
    decodeFrom index (String.utf8EncodeChar x ++ rest) =
      (x :: ·) <$> decodeFrom (index + (String.utf8EncodeChar x).length) rest := by
  obtain ⟨a, h⟩ | ⟨a, b, h⟩ | ⟨a, b, c, h⟩ | ⟨a, b, c, d, h⟩ := encodeChar_cases x <;>
    rw [h, decodeFrom.eq_def]
  · obtain ⟨ha, rfl⟩ := encodeChar_eq_one_iff.1 h
    simp [ha]
  · obtain ⟨ha, hb, rfl⟩ := encodeChar_eq_two_iff.1 h
    have hone : ¬a < 0x80 := by grind
    simp [hone, ha, hb]
  · obtain ⟨ha, hb, hc, rfl⟩ := encodeChar_eq_three_iff.1 h
    have hone : ¬a < 0x80 := by grind
    have htwo : ¬a ≤ 0xdf := by grind
    simp [hone, htwo, ha, hb, hc]
  · obtain ⟨ha, hb, hc, hd, rfl⟩ := encodeChar_eq_four_iff.1 h
    have hone : ¬a < 0x80 := by grind
    have htwo : ¬a ≤ 0xdf := by grind
    have hthree : ¬a ≤ 0xef := by grind
    simp [hone, htwo, hthree, ha, hb, hc, hd]

theorem map_cons_eq_ok_iff {result : Except Fault (List Char)} {cs : List Char} :
    (x :: ·) <$> result = .ok cs ↔ ∃ rest, result = .ok rest ∧ x :: rest = cs := by
  cases result <;> simp [Functor.map, Except.map]

theorem decodeFrom_eq_ok_iff (index : Nat) {bytes : List UInt8} {cs : List Char} :
    decodeFrom index bytes = .ok cs ↔ cs.flatMap String.utf8EncodeChar = bytes := by
  constructor
  · intro h
    -- The cases named are the ends of the text and of a character of each length.
    fun_induction decodeFrom index bytes generalizing cs
    case case1 => simp_all
    case case2 ha ih =>
      obtain ⟨rest, hrest, rfl⟩ := map_cons_eq_ok_iff.1 h
      rw [List.flatMap_cons, encodeChar_eq_one_iff.2 ⟨ha, rfl⟩, ih hrest]
      rfl
    case case4 ha _ _ hb ih =>
      obtain ⟨rest, hrest, rfl⟩ := map_cons_eq_ok_iff.1 h
      rw [List.flatMap_cons, encodeChar_eq_two_iff.2 ⟨by simpa using ha, hb, rfl⟩, ih hrest]
      rfl
    case case9 ha _ hb _ _ hc ih =>
      obtain ⟨rest, hrest, rfl⟩ := map_cons_eq_ok_iff.1 h
      rw [List.flatMap_cons, encodeChar_eq_three_iff.2
        ⟨by simpa using ha, by simpa using hb, hc, rfl⟩, ih hrest]
      rfl
    case case16 ha _ hb _ hc _ _ hd ih =>
      obtain ⟨rest, hrest, rfl⟩ := map_cons_eq_ok_iff.1 h
      rw [List.flatMap_cons, encodeChar_eq_four_iff.2
        ⟨by simpa using ha, by simpa using hb, by simpa using hc, hd, rfl⟩, ih hrest]
      rfl
    -- The other bytes are refused.
    all_goals cases h
  · rintro rfl
    induction cs generalizing index with
    | nil => rw [List.flatMap_nil, decodeFrom]
    | cons x cs ih => rw [List.flatMap_cons, decodeFrom_encodeChar, ih]; rfl

def encode (s : String) : List UInt8 := s.toUTF8.data.toList

theorem encode_eq (s : String) : encode s = s.toList.flatMap String.utf8EncodeChar := by
  rw [encode, String.toUTF8_eq_toByteArray, ← String.utf8Encode_toList, List.utf8Encode.eq_1]
  simp

/-- The decoder accepts the encodings of texts, and gives the text. -/
theorem decode_eq_ok_iff {bytes : List UInt8} : decode bytes = .ok s ↔ encode s = bytes := by
  rw [encode_eq, ← decodeFrom_eq_ok_iff 0, decode]
  cases decodeFrom 0 bytes with
  | error fault => simp [Functor.map, Except.map]
  | ok cs =>
    have hiff : String.ofList cs = s ↔ cs = s.toList := by
      constructor
      · rintro rfl
        exact String.toList_ofList.symm
      · rintro rfl
        exact String.ofList_toList
    simpa [Functor.map, Except.map] using hiff

theorem flatMap_encodeChar_lt {cs ds : List Char} (h : cs < ds) :
    cs.flatMap String.utf8EncodeChar < ds.flatMap String.utf8EncodeChar := by
  induction h with
  | @nil y ds =>
    rw [List.flatMap_nil, List.flatMap_cons]
    cases hy : String.utf8EncodeChar y with
    | nil => exact absurd hy (by simp)
    | cons b bytes => exact List.nil_lt_cons _ _
  | rel h =>
    exact encodeChar_lt h _ _
  | cons _ ih =>
    rw [List.flatMap_cons, List.flatMap_cons]
    exact List.append_left_lt ih

/-- Texts are in the order of their bytes. -/
theorem encode_le_encode_iff : encode s ≤ encode t ↔ s ≤ t := by
  rw [encode_eq, encode_eq, String.le_iff_toList_le]
  constructor
  · intro h
    by_contra hnot
    exact h (flatMap_encodeChar_lt (not_le.1 hnot))
  · intro h
    obtain heq | hlt := h.eq_or_lt
    · rw [heq]
      exact List.le_refl _
    · exact List.le_of_lt (flatMap_encodeChar_lt hlt)

end RelationalAlgebra.Utf8
