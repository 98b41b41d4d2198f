import GemLink.Text.Utf8

/-!
A text is read back from its bytes (`decodeLossy_encode`). The bytes of one character take a reading
from between two characters to behind that character (`foldl_next_encodeChar`), whatever was read
before.
-/

namespace GemLink.Utf8

/-! ## First bytes -/

theorem begin?_one {b : Nat} (h : b < 0x80) : begin? b = some ⟨0, 0, 0, b⟩ := by
  unfold begin?
  rw [if_pos h]

theorem begin?_two {b : Nat} (h : 0xC2 ≤ b) (h' : b ≤ 0xDF) :
    begin? b = some ⟨1, 0x80, 0xBF, b - 0xC0⟩ := by
  unfold begin?
  rw [if_neg (by omega), if_pos ⟨h, h'⟩]

/-- The second byte excludes what a shorter character could say, and the surrogates. -/
theorem begin?_three {b : Nat} (h : 0xE0 ≤ b) (h' : b ≤ 0xEF) :
    begin? b = some ⟨2, if b = 0xE0 then 0xA0 else 0x80, if b = 0xED then 0x9F else 0xBF,
      b - 0xE0⟩ := by
  unfold begin?
  rw [if_neg (by omega), if_neg (by omega)]
  split
  · next h₀ => simp [h₀]
  · split
    · next h₁ => simp [h₁]
    · rw [if_pos (by omega)]

/-- The second byte excludes what a shorter character could say, and what is beyond the last
character. -/
theorem begin?_four {b : Nat} (h : 0xF0 ≤ b) (h' : b ≤ 0xF4) :
    begin? b = some ⟨3, if b = 0xF0 then 0x90 else 0x80, if b = 0xF4 then 0x8F else 0xBF,
      b - 0xF0⟩ := by
  unfold begin?
  rw [if_neg (by omega), if_neg (by omega), if_neg (by omega), if_neg (by omega),
    if_neg (by omega)]
  split
  · next h₀ => simp [h₀]
  · split
    · next h₁ =>
      have h₂ : b ≠ 0xF4 := by omega
      simp [h₂]
    · have h₂ : b = 0xF4 := by omega
      simp [h₂]

/-! ## Characters -/

theorem next_first {parts : List (Option Char)} {b : UInt8} {begun : Begun}
    (h : begin? b.toNat = some begun) (ho : begun.owed ≠ 0) :
    Reading.next ⟨parts, none⟩ b = ⟨parts, some begun⟩ := by
  simp only [Reading.next, Reading.first, h]
  rw [if_neg ho]

theorem next_middle {parts : List (Option Char)} {b : UInt8} {owed low high bits : Nat}
    (hl : low ≤ b.toNat) (hh : b.toNat ≤ high) (ho : owed ≠ 1) :
    Reading.next ⟨parts, some ⟨owed, low, high, bits⟩⟩ b =
      ⟨parts, some ⟨owed - 1, 0x80, 0xBF, bits * 64 + (b.toNat - 0x80)⟩⟩ := by
  simp only [Reading.next]
  rw [if_pos ⟨hl, hh⟩, if_neg ho]

theorem next_last {parts : List (Option Char)} {b : UInt8} {low high bits : Nat}
    (hl : low ≤ b.toNat) (hh : b.toNat ≤ high) :
    Reading.next ⟨parts, some ⟨1, low, high, bits⟩⟩ b =
      ⟨some (Char.ofNat (bits * 64 + (b.toNat - 0x80))) :: parts, none⟩ := by
  unfold Reading.next
  dsimp only
  rw [if_pos ⟨hl, hh⟩, if_pos rfl]

theorem toNat_ofNat_of_lt {n : Nat} (h : n < 256) : (UInt8.ofNat n).toNat = n := by
  rw [UInt8.toNat_ofNat', Nat.mod_eq_of_lt h]

/-- The bytes of a character are read as that character. -/
theorem foldl_next_encodeChar (parts : List (Option Char)) (c : Char) :
    (String.utf8EncodeChar c).foldl Reading.next ⟨parts, none⟩ = ⟨some c :: parts, none⟩ := by
  have hc : Char.ofNat c.val.toNat = c := Char.ofNat_toNat c
  have hv : c.val.toNat < 0xD800 ∨ 0xDFFF < c.val.toNat ∧ c.val.toNat < 0x110000 := c.valid
  unfold String.utf8EncodeChar
  generalize c.val.toNat = v at hc hv
  dsimp only
  split
  · have h₁ : (UInt8.ofNat v).toNat = v := toNat_ofNat_of_lt (by omega)
    simp only [List.foldl_cons, List.foldl_nil, Reading.next, Reading.first, h₁,
      begin?_one (show v < 0x80 by omega), if_true, hc]
  · split
    · have h₁ : (UInt8.ofNat (v / 64 % 0x20 + 0xC0)).toNat = v / 64 + 0xC0 := by
        rw [toNat_ofNat_of_lt (by omega)]
        omega
      have h₂ : (UInt8.ofNat (v % 0x40 + 0x80)).toNat = v % 64 + 0x80 :=
        toNat_ofNat_of_lt (by omega)
      have hb := begin?_two (b := v / 64 + 0xC0) (by omega) (by omega)
      rw [← h₁] at hb
      simp only [List.foldl_cons, List.foldl_nil]
      rw [next_first hb (by simp), next_last (by omega) (by omega), h₁, h₂,
        show (v / 64 + 0xC0 - 0xC0) * 64 + (v % 64 + 0x80 - 0x80) = v by omega, hc]
    · split
      · have h₁ : (UInt8.ofNat (v / 4096 % 0x10 + 0xE0)).toNat = v / 4096 + 0xE0 := by
          rw [toNat_ofNat_of_lt (by omega)]
          omega
        have h₂ : (UInt8.ofNat (v / 64 % 0x40 + 0x80)).toNat = v / 64 % 64 + 0x80 :=
          toNat_ofNat_of_lt (by omega)
        have h₃ : (UInt8.ofNat (v % 0x40 + 0x80)).toNat = v % 64 + 0x80 :=
          toNat_ofNat_of_lt (by omega)
        have hb := begin?_three (b := v / 4096 + 0xE0) (by omega) (by omega)
        rw [← h₁] at hb
        simp only [List.foldl_cons, List.foldl_nil]
        rw [next_first hb (by simp), next_middle (by split <;> omega) (by split <;> omega)
          (by decide), next_last (by omega) (by omega), h₁, h₂, h₃,
          show ((v / 4096 + 0xE0 - 0xE0) * 64 + (v / 64 % 64 + 0x80 - 0x80)) * 64 +
            (v % 64 + 0x80 - 0x80) = v by omega, hc]
      · have h₁ : (UInt8.ofNat (v / 262144 % 0x08 + 0xF0)).toNat = v / 262144 + 0xF0 := by
          rw [toNat_ofNat_of_lt (by omega)]
          omega
        have h₂ : (UInt8.ofNat (v / 4096 % 0x40 + 0x80)).toNat = v / 4096 % 64 + 0x80 :=
          toNat_ofNat_of_lt (by omega)
        have h₃ : (UInt8.ofNat (v / 64 % 0x40 + 0x80)).toNat = v / 64 % 64 + 0x80 :=
          toNat_ofNat_of_lt (by omega)
        have h₄ : (UInt8.ofNat (v % 0x40 + 0x80)).toNat = v % 64 + 0x80 :=
          toNat_ofNat_of_lt (by omega)
        have hb := begin?_four (b := v / 262144 + 0xF0) (by omega) (by omega)
        rw [← h₁] at hb
        simp only [List.foldl_cons, List.foldl_nil]
        rw [next_first hb (by simp), next_middle (by split <;> omega) (by split <;> omega)
          (by decide), next_middle (by omega) (by omega) (by decide), next_last (by omega)
          (by omega), h₁, h₂, h₃, h₄,
          show (((v / 262144 + 0xF0 - 0xF0) * 64 + (v / 4096 % 64 + 0x80 - 0x80)) * 64 +
            (v / 64 % 64 + 0x80 - 0x80)) * 64 + (v % 64 + 0x80 - 0x80) = v by omega, hc]

/-! ## Texts -/

theorem foldl_next_flatMap (cs : List Char) (parts : List (Option Char)) :
    (cs.flatMap String.utf8EncodeChar).foldl Reading.next ⟨parts, none⟩ =
      ⟨(cs.map some).reverse ++ parts, none⟩ := by
  induction cs generalizing parts with
  | nil => rfl
  | cons c rest ih =>
    rw [List.flatMap_cons, List.foldl_append, foldl_next_encodeChar, ih, List.map_cons,
      List.reverse_cons, List.append_assoc, List.singleton_append]

/-- The bytes of a text are read without a fault as its characters. -/
theorem parts_encode (s : String) : parts (encode s) = s.toList.map some := by
  unfold parts encode
  rw [foldl_next_flatMap, Reading.finish, List.append_nil, List.reverse_reverse]

/-- A text is read back from its bytes. -/
theorem decodeLossy_encode (s : String) : decodeLossy (encode s) = s := by
  unfold decodeLossy
  rw [parts_encode, List.map_map]
  have h : ((fun part : Option Char => part.getD '\uFFFD') ∘ some) = id := rfl
  rw [h, List.map_id, String.ofList_toList]

theorem length_encode (s : String) : (encode s).length = size s := by
  unfold encode size
  rw [← String.size_toByteArray, ← String.utf8Encode_toList, List.utf8Encode,
    List.size_toByteArray]

end GemLink.Utf8
