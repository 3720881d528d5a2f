import TChat.Bcrypt.InitState
import TChat.Common.Protocol
import TChat.Lib.Feistel
/-!
# Blowfish

`bcrypt/blowfish.cpp`: the cipher on two words, and on an array of words.
-/

namespace TChat.Bcrypt

open TChat.Common TChat.Lib

/-! ## One block -/

/-- The octet of a word that starts at the bit `shift`. -/
def octet (x shift : UInt32) : Fin 256 :=
  ⟨((x >>> shift) &&& 0xFF).toNat, by
    rw [UInt32.toNat_and]
    exact Nat.lt_of_le_of_lt Nat.and_le_right (by decide)⟩

def F (s : Vector UInt32 1024) (x : UInt32) : UInt32 :=
  ((s[(octet x 24).val] + s[0x100 + (octet x 16).val]) ^^^ s[0x200 + (octet x 8).val]) +
    s[0x300 + (octet x 0).val]

/-- The macro `BLFRND`: the value that `i` takes. -/
def blfrnd (c : BlfCtx) (i j : UInt32) (n : Fin 18) : UInt32 :=
  i ^^^ (F c.S j ^^^ c.P.get n)

def blowfishEncipher (c : BlfCtx) (block : UInt32 × UInt32) : UInt32 × UInt32 :=
  let (Xl, Xr) := block
  let Xl := Xl ^^^ c.P.get 0
  let Xr := blfrnd c Xr Xl 1
  let Xl := blfrnd c Xl Xr 2
  let Xr := blfrnd c Xr Xl 3
  let Xl := blfrnd c Xl Xr 4
  let Xr := blfrnd c Xr Xl 5
  let Xl := blfrnd c Xl Xr 6
  let Xr := blfrnd c Xr Xl 7
  let Xl := blfrnd c Xl Xr 8
  let Xr := blfrnd c Xr Xl 9
  let Xl := blfrnd c Xl Xr 10
  let Xr := blfrnd c Xr Xl 11
  let Xl := blfrnd c Xl Xr 12
  let Xr := blfrnd c Xr Xl 13
  let Xl := blfrnd c Xl Xr 14
  let Xr := blfrnd c Xr Xl 15
  let Xl := blfrnd c Xl Xr 16
  (Xr ^^^ c.P.get 17, Xl)

def blowfishDecipher (c : BlfCtx) (block : UInt32 × UInt32) : UInt32 × UInt32 :=
  let (Xl, Xr) := block
  let Xl := Xl ^^^ c.P.get 17
  let Xr := blfrnd c Xr Xl 16
  let Xl := blfrnd c Xl Xr 15
  let Xr := blfrnd c Xr Xl 14
  let Xl := blfrnd c Xl Xr 13
  let Xr := blfrnd c Xr Xl 12
  let Xl := blfrnd c Xl Xr 11
  let Xr := blfrnd c Xr Xl 10
  let Xl := blfrnd c Xl Xr 9
  let Xr := blfrnd c Xr Xl 8
  let Xl := blfrnd c Xl Xr 7
  let Xr := blfrnd c Xr Xl 6
  let Xl := blfrnd c Xl Xr 5
  let Xr := blfrnd c Xr Xl 4
  let Xl := blfrnd c Xl Xr 3
  let Xr := blfrnd c Xr Xl 2
  let Xl := blfrnd c Xl Xr 1
  (Xr ^^^ c.P.get 0, Xl)

/-! ## The network behind the two -/

section

variable (c : BlfCtx) (block : UInt32 × UInt32)

def roundFunction (n : Fin 18) (x : UInt32) : UInt32 := F c.S x ^^^ c.P.get n

def roundFunctions : List (UInt32 → UInt32) :=
  [1, 2, 3, 4, 5, 6, 7, 8, 9, 10, 11, 12, 13, 14, 15, 16].map (roundFunction c)

/-- A network between two keys that are mixed into the left half: one before the rounds,
one after them when the halves are swapped back. -/
def whitened (before after : UInt32) (fs : List (UInt32 → UInt32)) :
    UInt32 × UInt32 :=
  let rounds := feistel (· ^^^ ·) fs (block.1 ^^^ before, block.2)
  (rounds.2 ^^^ after, rounds.1)

theorem blowfishEncipher_eq :
    blowfishEncipher c block = whitened block (c.P.get 0) (c.P.get 17) (roundFunctions c) := rfl

theorem blowfishDecipher_eq :
    blowfishDecipher c block =
      whitened block (c.P.get 17) (c.P.get 0) (roundFunctions c).reverse := rfl

theorem xor_xor_cancel (x y : UInt32) : (x ^^^ y) ^^^ y = x := by
  rw [UInt32.xor_assoc, UInt32.xor_self, UInt32.xor_zero]

/-- The opposite rounds between the opposite keys undo a network. -/
theorem whitened_whitened (before after : UInt32) (fs : List (UInt32 → UInt32)) :
    whitened (whitened block before after fs) after before fs.reverse = block := by
  have hundo := feistel_reverse xor_xor_cancel fs (block.1 ^^^ before, block.2)
  rw [Prod.swap] at hundo
  rw [whitened, whitened, xor_xor_cancel, hundo]
  apply Prod.ext
  · exact xor_xor_cancel block.1 before
  · rfl

theorem blowfishDecipher_blowfishEncipher :
    blowfishDecipher c (blowfishEncipher c block) = block := by
  rw [blowfishEncipher_eq, blowfishDecipher_eq]
  exact whitened_whitened block _ _ _

theorem blowfishEncipher_blowfishDecipher :
    blowfishEncipher c (blowfishDecipher c block) = block := by
  have hundo := whitened_whitened block (c.P.get 17) (c.P.get 0) (roundFunctions c).reverse
  rw [List.reverse_reverse] at hundo
  rw [blowfishEncipher_eq, blowfishDecipher_eq]
  exact hundo

end

/-! ## An array of words -/

/-- The loop of `blf_enc` and `blf_dec`, which moves along the array by two words a block:
`none` where the array ends before the blocks do. -/
def forBlocks (f : UInt32 × UInt32 → UInt32 × UInt32) :
    ℕ → List UInt32 → Option (List UInt32)
  | 0, data => some data
  | blocks + 1, l :: r :: data =>
      (forBlocks f blocks data).map fun rest => (f (l, r)).1 :: (f (l, r)).2 :: rest
  | _ + 1, _ => none

def blfEnc (c : BlfCtx) (data : List UInt32) (blocks : ℕ) : Option (List UInt32) :=
  forBlocks (blowfishEncipher c) blocks data

def blfDec (c : BlfCtx) (data : List UInt32) (blocks : ℕ) : Option (List UInt32) :=
  forBlocks (blowfishDecipher c) blocks data

section

variable {f g : UInt32 × UInt32 → UInt32 × UInt32} {m n : ℕ} {data : List UInt32}

theorem forBlocks_of_fits (hfits : 2 * n ≤ data.length) :
    ∃ out, forBlocks f n data = some out ∧ out.length = data.length ∧
      out.drop (2 * n) = data.drop (2 * n) := by
  induction n generalizing data with
  | zero => exact ⟨data, rfl, rfl, rfl⟩
  | succ n ih =>
      match data with
      | [] | [_] => simp only [List.length_nil, List.length_singleton] at hfits; omega
      | l :: r :: data =>
          simp only [List.length_cons] at hfits
          obtain ⟨out, hout, hlength, hdrop⟩ := @ih data (by omega)
          refine ⟨(f (l, r)).1 :: (f (l, r)).2 :: out, by rw [forBlocks, hout]; rfl, ?_, ?_⟩
          · rw [List.length_cons, List.length_cons, hlength]
            rfl
          · rw [Nat.mul_add]
            exact hdrop

theorem forBlocks_add {out : List UInt32} (h : forBlocks f (m + n) data = some out) :
    forBlocks f m (data.take (2 * m)) = some (out.take (2 * m)) ∧
      forBlocks f n (data.drop (2 * m)) = some (out.drop (2 * m)) := by
  induction m generalizing data out with
  | zero =>
      rw [Nat.zero_add] at h
      exact ⟨rfl, h⟩
  | succ m ih =>
      match data with
      | [] | [_] =>
          rw [Nat.succ_add_eq_add_succ] at h
          simp [forBlocks] at h
      | l :: r :: data =>
          rw [Nat.succ_add, forBlocks, Option.map_eq_some_iff] at h
          obtain ⟨rest, hrest, rfl⟩ := h
          have hsplit := ih hrest
          rw [Nat.mul_add]
          simp only [Nat.mul_one, List.take_succ_cons, List.drop_succ_cons, forBlocks]
          exact ⟨by rw [hsplit.1]; rfl, hsplit.2⟩

/-- Blocks whose function is undone are undone block by block. -/
theorem forBlocks_forBlocks {out : List UInt32} (hundo : ∀ block, g (f block) = block)
    (h : forBlocks f n data = some out) : forBlocks g n out = some data := by
  induction n generalizing data out with
  | zero =>
      rw [forBlocks, Option.some_inj] at h
      rw [h]
      rfl
  | succ n ih =>
      match data with
      | [] | [_] => simp [forBlocks] at h
      | l :: r :: data =>
          rw [forBlocks, Option.map_eq_some_iff] at h
          obtain ⟨rest, hrest, rfl⟩ := h
          rw [forBlocks, ih hrest, Prod.mk.eta, hundo]
          rfl

end

/-- Enciphered blocks come back in any two portions, and so do deciphered ones; the words
behind them stay. -/
theorem blfDec_blfEnc (c : BlfCtx) (data : List UInt32) (m n : ℕ)
    (hfits : 2 * (m + n) ≤ data.length) :
    (∃ enc, blfEnc c data (m + n) = some enc ∧ enc.length = data.length ∧
      enc.drop (2 * (m + n)) = data.drop (2 * (m + n)) ∧
      blfDec c (enc.take (2 * m)) m = some (data.take (2 * m)) ∧
      blfDec c (enc.drop (2 * m)) n = some (data.drop (2 * m))) ∧
    ∃ dec, blfDec c data (m + n) = some dec ∧ dec.length = data.length ∧
      dec.drop (2 * (m + n)) = data.drop (2 * (m + n)) ∧
      blfEnc c dec (m + n) = some data ∧
      blfEnc c (dec.take (2 * m)) m = some (data.take (2 * m)) ∧
      blfEnc c (dec.drop (2 * m)) n = some (data.drop (2 * m)) := by
  obtain ⟨enc, henc, hlength, hdrop⟩ := @forBlocks_of_fits (blowfishEncipher c) _ _ hfits
  obtain ⟨dec, hdec, hlength', hdrop'⟩ := @forBlocks_of_fits (blowfishDecipher c) _ _ hfits
  have hback := forBlocks_forBlocks (blowfishDecipher_blowfishEncipher c) henc
  have hback' := forBlocks_forBlocks (blowfishEncipher_blowfishDecipher c) hdec
  exact ⟨⟨enc, henc, hlength, hdrop, forBlocks_add hback⟩, dec, hdec, hlength', hdrop', hback',
    forBlocks_add hback'⟩

/-- Ten words, one block of them and then the other four. -/
theorem blfDec_blfEnc_five :
    ∃ enc, blfEnc blowfishInitstate [0, 1, 2, 3, 4, 5, 6, 7, 8, 9] (1 + 4) = some enc ∧
      blfDec blowfishInitstate (enc.take 2) 1 = some [0, 1] ∧
      blfDec blowfishInitstate (enc.drop 2) 4 = some [2, 3, 4, 5, 6, 7, 8, 9] := by
  obtain ⟨⟨enc, henc, -, -, hfirst, hothers⟩, -⟩ :=
    blfDec_blfEnc blowfishInitstate [0, 1, 2, 3, 4, 5, 6, 7, 8, 9] 1 4 (by decide)
  exact ⟨enc, henc, hfirst, hothers⟩

end TChat.Bcrypt
