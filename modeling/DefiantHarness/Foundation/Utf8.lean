import Mathlib.Data.String.Basic

/-! The characters of a text, read off its UTF-8 bytes by structural recursion, so that facts about
concrete texts evaluate quickly. -/
namespace Foundation

/-- The characters of UTF-8 bytes. The numbers say how many bytes the current character still
needs, and the value of those that were read. -/
def charsOfBytes : List UInt8 → Nat → Nat → List Char
  | [], _, _ => []
  | b :: bs, 0, _ =>
    if b.toNat < 0x80 then Char.ofNat b.toNat :: charsOfBytes bs 0 0
    else if b.toNat < 0xE0 then charsOfBytes bs 1 (b.toNat % 0x20)
    else if b.toNat < 0xF0 then charsOfBytes bs 2 (b.toNat % 0x10)
    else charsOfBytes bs 3 (b.toNat % 0x08)
  | b :: bs, 1, value => Char.ofNat (value * 0x40 + b.toNat % 0x40) :: charsOfBytes bs 0 0
  | b :: bs, more + 2, value => charsOfBytes bs (more + 1) (value * 0x40 + b.toNat % 0x40)

private theorem toNat_ofNat_byte {n : Nat} (small : n < 256) : (UInt8.ofNat n).toNat = n := by
  simp [Nat.mod_eq_of_lt small]

/-- The bytes of a character spell it. -/
theorem charsOfBytes_utf8EncodeChar (c : Char) (bs : List UInt8) :
    charsOfBytes (String.utf8EncodeChar c ++ bs) 0 0 = c :: charsOfBytes bs 0 0 := by
  have bound : c.val.toNat < 0x110000 := by
    have valid := c.valid
    simp only [UInt32.isValidChar, Nat.isValidChar] at valid
    omega
  have spelled : Char.ofNat c.val.toNat = c := Char.ofNat_toNat c
  unfold String.utf8EncodeChar
  dsimp only
  -- one case for each number of bytes, in which the payload bits add up to the code
  split
  · simp (disch := omega) only [List.cons_append, List.nil_append, charsOfBytes, toNat_ofNat_byte]
    rw [if_pos (by omega), spelled]
  · split
    · have code : (c.val.toNat / 64 % 32 + 192) % 32 * 64 + (c.val.toNat % 64 + 128) % 64 =
          c.val.toNat := by omega
      simp (disch := omega) only [List.cons_append, List.nil_append, charsOfBytes, toNat_ofNat_byte]
      rw [if_neg (by omega), if_pos (by omega), code, spelled]
    · split
      · have code : ((c.val.toNat / 4096 % 16 + 224) % 16 * 64 +
            (c.val.toNat / 64 % 64 + 128) % 64) * 64 + (c.val.toNat % 64 + 128) % 64 =
            c.val.toNat := by omega
        simp (disch := omega) only [List.cons_append, List.nil_append, charsOfBytes, toNat_ofNat_byte]
        rw [if_neg (by omega), if_neg (by omega), if_pos (by omega), code, spelled]
      · have code : (((c.val.toNat / 262144 % 8 + 240) % 8 * 64 +
            (c.val.toNat / 4096 % 64 + 128) % 64) * 64 + (c.val.toNat / 64 % 64 + 128) % 64) * 64 +
            (c.val.toNat % 64 + 128) % 64 = c.val.toNat := by omega
        simp (disch := omega) only [List.cons_append, List.nil_append, charsOfBytes, toNat_ofNat_byte]
        rw [if_neg (by omega), if_neg (by omega), if_neg (by omega), code, spelled]

/-- The characters of a text. -/
def charsOf (text : String) : List Char := charsOfBytes text.toByteArray.data.toList 0 0

@[simp] theorem charsOf_eq (text : String) : charsOf text = text.toList := by
  have bytes : text.toByteArray.data.toList = text.toList.flatMap String.utf8EncodeChar := by
    conv_lhs => rw [← @String.ofList_toList text]
    simp [String.ofList, List.utf8Encode]
  rw [charsOf, bytes]
  induction text.toList with
  | nil => rfl
  | cons c cs ih => rw [List.flatMap_cons, charsOfBytes_utf8EncodeChar, ih]

end Foundation
