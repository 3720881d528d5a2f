import TChat.Common.Protocol
/-!
# Salts and digests as letters

`encode_base64` and `decode_base64` of `bcrypt/bcrypt.cpp`: four letters for three bytes, in
an alphabet of its own and without padding.
-/

namespace TChat.Bcrypt

open TChat.Common

def base64Code : List UInt8 := [
  46, 47, 65, 66, 67, 68, 69, 70, 71, 72, 73, 74, 75, 76, 77, 78,
  79, 80, 81, 82, 83, 84, 85, 86, 87, 88, 89, 90, 97, 98, 99, 100,
  101, 102, 103, 104, 105, 106, 107, 108, 109, 110, 111, 112, 113, 114, 115, 116,
  117, 118, 119, 120, 121, 122, 48, 49, 50, 51, 52, 53, 54, 55, 56, 57]

def index64 : List UInt8 := [
  255, 255, 255, 255, 255, 255, 255, 255, 255, 255, 255, 255, 255, 255, 255, 255,
  255, 255, 255, 255, 255, 255, 255, 255, 255, 255, 255, 255, 255, 255, 255, 255,
  255, 255, 255, 255, 255, 255, 255, 255, 255, 255, 255, 255, 255, 255, 0, 1,
  54, 55, 56, 57, 58, 59, 60, 61, 62, 63, 255, 255, 255, 255, 255, 255,
  255, 2, 3, 4, 5, 6, 7, 8, 9, 10, 11, 12, 13, 14, 15, 16,
  17, 18, 19, 20, 21, 22, 23, 24, 25, 26, 27, 255, 255, 255, 255, 255,
  255, 28, 29, 30, 31, 32, 33, 34, 35, 36, 37, 38, 39, 40, 41, 42,
  43, 44, 45, 46, 47, 48, 49, 50, 51, 52, 53, 255, 255, 255, 255, 255]

def letter (i : UInt8) : UInt8 := base64Code.getD i.toNat 0

def char64 (c : UInt8) : UInt8 := if 127 < c then 255 else index64.getD c.toNat 255

/-- `encode_base64`, on as many bytes as `len` says. -/
def encodeBase64 : Bytes → Bytes
  | [] => []
  | [b1] => [letter (b1 >>> 2), letter ((b1 &&& 0x03) <<< 4)]
  | [b1, b2] =>
      [letter (b1 >>> 2), letter (((b1 &&& 0x03) <<< 4) ||| ((b2 >>> 4) &&& 0x0f)),
        letter ((b2 &&& 0x0f) <<< 2)]
  | b1 :: b2 :: b3 :: data =>
      letter (b1 >>> 2) ::
        letter (((b1 &&& 0x03) <<< 4) ||| ((b2 >>> 4) &&& 0x0f)) ::
        letter (((b2 &&& 0x0f) <<< 2) ||| ((b3 >>> 6) &&& 0x03)) ::
        letter (b3 &&& 0x3f) :: encodeBase64 data

/-- `decode_base64`: what it writes into a buffer of `len` bytes.  It stops at a character
that is no letter, and the end of the string is one. -/
def decodeBase64 : ℕ → Bytes → Bytes
  | len + 1, p1 :: p2 :: p =>
      let c1 := char64 p1
      let c2 := char64 p2
      if c1 = 255 ∨ c2 = 255 then []
      else
        ((c1 <<< 2) ||| ((c2 &&& 0x30) >>> 4)) ::
          match len, p with
          | len + 1, p3 :: p =>
              let c3 := char64 p3
              if c3 = 255 then []
              else
                (((c2 &&& 0x0f) <<< 4) ||| ((c3 &&& 0x3c) >>> 2)) ::
                  match len, p with
                  | len + 1, p4 :: p =>
                      let c4 := char64 p4
                      if c4 = 255 then []
                      else (((c3 &&& 0x03) <<< 6) ||| c4) :: decodeBase64 len p
                  | _, _ => []
          | _, _ => []
  | _, _ => []

/-! ## Letters -/

theorem char64_letter_fin : ∀ i : Fin 64, char64 (letter (UInt8.ofNat i)) = UInt8.ofNat i := by
  decide

theorem char64_letter {i : UInt8} (hi : i &&& 0x3f = i) : char64 (letter i) = i := by
  have hlt : i.toNat < 64 := by
    rw [← hi, UInt8.toNat_and]
    exact Nat.lt_of_le_of_lt Nat.and_le_right (by decide)
  have hvalue := char64_letter_fin ⟨i.toNat, hlt⟩
  rwa [UInt8.ofNat_toNat] at hvalue

theorem sextet_ne_255 {i : UInt8} (hi : i &&& 0x3f = i) : i ≠ 255 := by
  rintro rfl
  exact absurd hi (by decide)

theorem letter_mem {i : UInt8} (hi : i &&& 0x3f = i) : letter i ∈ base64Code := by
  have hlt : i.toNat < base64Code.length := by
    rw [← hi, UInt8.toNat_and]
    exact Nat.lt_of_le_of_lt Nat.and_le_right (by decide)
  rw [letter, List.getD_eq_getElem _ _ hlt]
  exact List.getElem_mem hlt

/-! ## The sextets of three bytes -/

section

variable (b1 b2 b3 : UInt8)

theorem sextet_first : (b1 >>> 2) &&& (0x3f : UInt8) = b1 >>> 2 := by
  rw [← UInt8.toBitVec_inj]
  ext i hi
  interval_cases i <;> simp

theorem sextet_second :
    (((b1 &&& 0x03) <<< 4) ||| ((b2 >>> 4) &&& (0x0f : UInt8))) &&& (0x3f : UInt8) =
      ((b1 &&& 0x03) <<< 4) ||| ((b2 >>> 4) &&& (0x0f : UInt8)) := by
  rw [← UInt8.toBitVec_inj]
  ext i hi
  interval_cases i <;> simp

theorem sextet_third :
    (((b2 &&& 0x0f) <<< 2) ||| ((b3 >>> 6) &&& (0x03 : UInt8))) &&& (0x3f : UInt8) =
      ((b2 &&& 0x0f) <<< 2) ||| ((b3 >>> 6) &&& (0x03 : UInt8)) := by
  rw [← UInt8.toBitVec_inj]
  ext i hi
  interval_cases i <;> simp

theorem sextet_fourth : (b3 &&& 0x3f) &&& 0x3f = b3 &&& 0x3f := by
  rw [UInt8.and_assoc, UInt8.and_self]

theorem octet_first :
    ((b1 >>> 2) <<< 2) |||
      (((((b1 &&& 0x03) <<< 4) ||| ((b2 >>> 4) &&& 0x0f)) &&& 0x30) >>> 4) = b1 := by
  rw [← UInt8.toBitVec_inj]
  ext i hi
  interval_cases i <;> simp

theorem octet_second :
    (((((b1 &&& 0x03) <<< 4) ||| ((b2 >>> 4) &&& 0x0f)) &&& 0x0f) <<< 4) |||
      (((((b2 &&& 0x0f) <<< 2) ||| ((b3 >>> 6) &&& 0x03)) &&& 0x3c) >>> 2) = b2 := by
  rw [← UInt8.toBitVec_inj]
  ext i hi
  interval_cases i <;> simp

theorem octet_third :
    (((((b2 &&& 0x0f) <<< 2) ||| ((b3 >>> 6) &&& 0x03)) &&& 0x03) <<< 6) ||| (b3 &&& 0x3f) =
      b3 := by
  rw [← UInt8.toBitVec_inj]
  ext i hi
  interval_cases i <;> simp

/-- The letters of a last byte are those of the byte with a zero behind it. -/
theorem last_sextet_one :
    (b1 &&& 0x03) <<< 4 = ((b1 &&& 0x03) <<< 4) ||| (((0 : UInt8) >>> 4) &&& 0x0f) := by
  exact UInt8.or_zero.symm

theorem last_sextet_two :
    (b2 &&& 0x0f) <<< 2 = ((b2 &&& 0x0f) <<< 2) ||| (((0 : UInt8) >>> 6) &&& 0x03) := by
  exact UInt8.or_zero.symm

end

/-! ## There and back -/

theorem decodeBase64_encodeBase64 (data more : Bytes) :
    decodeBase64 data.length (encodeBase64 data ++ more) = data := by
  induction data using encodeBase64.induct with
  | case1 => rfl
  | case2 b1 =>
      have h1 := sextet_first b1
      have h2 := sextet_second b1 0
      rw [encodeBase64, last_sextet_one]
      simp only [List.length_singleton, List.cons_append, List.nil_append, decodeBase64,
        char64_letter h1, char64_letter h2, sextet_ne_255 h1, sextet_ne_255 h2, or_self,
        if_false, octet_first]
  | case3 b1 b2 =>
      have h1 := sextet_first b1
      have h2 := sextet_second b1 b2
      have h3 := sextet_third b2 0
      rw [encodeBase64, last_sextet_two]
      simp only [List.length_cons, List.length_nil, List.cons_append, List.nil_append,
        decodeBase64, char64_letter h1, char64_letter h2, char64_letter h3, sextet_ne_255 h1,
        sextet_ne_255 h2, sextet_ne_255 h3, or_self, if_false, octet_first, octet_second]
  | case4 b1 b2 b3 data ih =>
      have h1 := sextet_first b1
      have h2 := sextet_second b1 b2
      have h3 := sextet_third b2 b3
      have h4 := sextet_fourth b3
      rw [encodeBase64]
      simp only [List.length_cons, List.cons_append, decodeBase64, char64_letter h1,
        char64_letter h2, char64_letter h3, char64_letter h4, sextet_ne_255 h1,
        sextet_ne_255 h2, sextet_ne_255 h3, sextet_ne_255 h4, or_self, if_false, octet_first,
        octet_second, octet_third, ih]

theorem encodeBase64_letters (data : Bytes) : ∀ c ∈ encodeBase64 data, c ∈ base64Code := by
  induction data using encodeBase64.induct with
  | case1 => simp [encodeBase64]
  | case2 b1 =>
      rw [encodeBase64, last_sextet_one]
      simp only [List.mem_cons, List.not_mem_nil, or_false, forall_eq_or_imp, forall_eq]
      exact ⟨letter_mem (sextet_first b1), letter_mem (sextet_second b1 0)⟩
  | case3 b1 b2 =>
      rw [encodeBase64, last_sextet_two]
      simp only [List.mem_cons, List.not_mem_nil, or_false, forall_eq_or_imp, forall_eq]
      exact ⟨letter_mem (sextet_first b1), letter_mem (sextet_second b1 b2),
        letter_mem (sextet_third b2 0)⟩
  | case4 b1 b2 b3 data ih =>
      rw [encodeBase64]
      simp only [List.mem_cons, forall_eq_or_imp]
      exact ⟨letter_mem (sextet_first b1), letter_mem (sextet_second b1 b2),
        letter_mem (sextet_third b2 b3), letter_mem (sextet_fourth b3), ih⟩

@[simp] theorem length_encodeBase64 (data : Bytes) :
    (encodeBase64 data).length = (4 * data.length + 2) / 3 := by
  induction data using encodeBase64.induct with
  | case1 => rfl
  | case2 b1 => simp [encodeBase64]
  | case3 b1 b2 => simp [encodeBase64]
  | case4 b1 b2 b3 data ih =>
      simp only [encodeBase64, List.length_cons, ih]
      omega

theorem length_decodeBase64_le (len : ℕ) (p : Bytes) : (decodeBase64 len p).length ≤ len := by
  induction len using Nat.strong_induction_on generalizing p with
  | _ len ih =>
      unfold decodeBase64
      dsimp only
      split
      · split_ifs
        · simp
        · split
          · split_ifs
            · simp
            · split
              · split_ifs
                · simp
                · rename_i len p4 p _
                  have hrest := ih len (by omega) p
                  simp only [List.length_cons]
                  omega
              · simp
          · simp
      · simp

end TChat.Bcrypt
