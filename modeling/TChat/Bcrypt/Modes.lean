import TChat.Bcrypt.Blowfish
import TChat.Lib.Chaining
/-!
# The modes of Blowfish

`bcrypt/blowfish.cpp`: the cipher on bytes, block by block (ECB) and with each block mixed into
the next one (CBC).  The bytes are changed in place, and `none` stands for an access outside
of the array.
-/

namespace TChat.Bcrypt

open TChat.Common TChat.Lib

/-- The eight bytes of a block. -/
abbrev Octets := Vector UInt8 8

/-- The word that four bytes make, the first one the highest. -/
def wordOf (a b c d : UInt8) : UInt32 :=
  a.toUInt32 <<< 24 ||| b.toUInt32 <<< 16 ||| c.toUInt32 <<< 8 ||| d.toUInt32

def byteOf (x shift : UInt32) : UInt8 := ((x >>> shift) &&& 0xFF).toUInt8

def wordsOf (block : Octets) : UInt32 × UInt32 :=
  (wordOf block[0] block[1] block[2] block[3], wordOf block[4] block[5] block[6] block[7])

def octetsOf (words : UInt32 × UInt32) : Octets :=
  #v[byteOf words.1 24, byteOf words.1 16, byteOf words.1 8, byteOf words.1 0,
    byteOf words.2 24, byteOf words.2 16, byteOf words.2 8, byteOf words.2 0]

def onOctets (f : UInt32 × UInt32 → UInt32 × UInt32) (block : Octets) : Octets :=
  octetsOf (f (wordsOf block))

/-- The loop over `data[j] ^= iv[j]`. -/
def xorOctets (block iv : Octets) : Octets := Vector.zipWith (· ^^^ ·) block iv

/-- The loop that moves `data` along by eight bytes a round.  `last` is the block before, as
the round has left it. -/
def forOctets (round : Octets → Octets → Octets) (len i : UInt32) (last : Octets)
    (data : Bytes) : Option Bytes :=
  if i < len then
    match data with
    | a :: b :: c :: d :: e :: f :: g :: h :: data =>
        let block := round last #v[a, b, c, d, e, f, g, h]
        (forOctets round len (i + 8) block data).map (block.toList ++ ·)
    | _ => none
  else some data

def blfEcbEncrypt (c : BlfCtx) (data : Bytes) (len : UInt32) : Option Bytes :=
  forOctets (fun _ block => onOctets (blowfishEncipher c) block) len 0 (Vector.replicate 8 0) data

def blfEcbDecrypt (c : BlfCtx) (data : Bytes) (len : UInt32) : Option Bytes :=
  forOctets (fun _ block => onOctets (blowfishDecipher c) block) len 0 (Vector.replicate 8 0) data

def cbcEncryptOctets (c : BlfCtx) (iv block : Octets) : Octets :=
  onOctets (blowfishEncipher c) (xorOctets block iv)

def cbcDecryptOctets (c : BlfCtx) (iv block : Octets) : Octets :=
  xorOctets (onOctets (blowfishDecipher c) block) iv

/-- `blf_cbc_encrypt`.  The block before is not written again, so `iv` still points to what
its round has left. -/
def blfCbcEncrypt (c : BlfCtx) (iv : Octets) (data : Bytes) (len : UInt32) : Option Bytes :=
  forOctets (cbcEncryptOctets c) len 0 iv data

def octetsAt? (data : Bytes) (p : ℤ) : Option Octets :=
  if 0 ≤ p then
    match data.drop p.toNat with
    | a :: b :: c :: d :: e :: f :: g :: h :: _ => some #v[a, b, c, d, e, f, g, h]
    | _ => none
  else none

def replaceOctets (data : Bytes) (p : ℤ) (block : Octets) : Bytes :=
  data.take p.toNat ++ block.toList ++ data.drop (p.toNat + 8)

/-- The loop of `blf_cbc_decrypt`, which goes back to the first block: where `data` points to
behind it, and the bytes. -/
def blfCbcDecryptLoop (c : BlfCtx) (i : UInt32) (p : ℤ) (data : Bytes) : Option (ℤ × Bytes) :=
  if h : 8 ≤ i then do
    let block ← octetsAt? data p
    let iv ← octetsAt? data (p - 8)
    blfCbcDecryptLoop c (i - 8) (p - 8) (replaceOctets data p (cbcDecryptOctets c iv block))
  else some (p, data)
termination_by i.toNat
decreasing_by
  rw [UInt32.le_iff_toNat_le] at h
  rw [UInt32.toNat_sub_of_le _ _ (UInt32.le_iff_toNat_le.mpr h)]
  exact Nat.sub_lt_of_pos_le (by decide) h

def blfCbcDecrypt (c : BlfCtx) (iva : Octets) (data : Bytes) (len : UInt32) : Option Bytes := do
  let (p, data) ← blfCbcDecryptLoop c (len - 8) (len.toNat - 8) data
  let block ← octetsAt? data p
  some (replaceOctets data p (cbcDecryptOctets c iva block))

/-! ## The bytes of a block -/

section

variable (a b c d : UInt8) (x shift : UInt32) (block : Octets)

theorem byteOf_wordOf_first : byteOf (wordOf a b c d) 24 = a := by
  rw [← UInt8.toBitVec_inj]
  ext i hi
  interval_cases i <;> simp [byteOf, wordOf]

theorem byteOf_wordOf_second : byteOf (wordOf a b c d) 16 = b := by
  rw [← UInt8.toBitVec_inj]
  ext i hi
  interval_cases i <;> simp [byteOf, wordOf]

theorem byteOf_wordOf_third : byteOf (wordOf a b c d) 8 = c := by
  rw [← UInt8.toBitVec_inj]
  ext i hi
  interval_cases i <;> simp [byteOf, wordOf]

theorem byteOf_wordOf_fourth : byteOf (wordOf a b c d) 0 = d := by
  rw [← UInt8.toBitVec_inj]
  ext i hi
  interval_cases i <;> simp [byteOf, wordOf]

theorem toUInt32_byteOf : (byteOf x shift).toUInt32 = (x >>> shift) &&& 0xFF := by
  have hlt : ((x >>> shift) &&& 0xFF).toNat < 2 ^ 8 := by
    rw [UInt32.toNat_and]
    exact Nat.lt_of_le_of_lt Nat.and_le_right (by decide)
  rw [← UInt32.toNat_inj, byteOf, UInt8.toNat_toUInt32, UInt32.toNat_toUInt8,
    Nat.mod_eq_of_lt hlt]

theorem wordOf_byteOf : wordOf (byteOf x 24) (byteOf x 16) (byteOf x 8) (byteOf x 0) = x := by
  rw [wordOf, toUInt32_byteOf, toUInt32_byteOf, toUInt32_byteOf, toUInt32_byteOf,
    ← UInt32.toBitVec_inj]
  ext i hi
  interval_cases i <;> simp

theorem eq_octets : block =
    #v[block[0], block[1], block[2], block[3], block[4], block[5], block[6], block[7]] := by
  ext i hi
  interval_cases i <;> rfl

theorem octetsOf_wordsOf : octetsOf (wordsOf block) = block := by
  rw [octetsOf, wordsOf]
  simp only [byteOf_wordOf_first, byteOf_wordOf_second, byteOf_wordOf_third,
    byteOf_wordOf_fourth]
  exact (eq_octets block).symm

theorem wordsOf_octetsOf (words : UInt32 × UInt32) : wordsOf (octetsOf words) = words := by
  apply Prod.ext
  · exact wordOf_byteOf words.1
  · exact wordOf_byteOf words.2

/-- What is undone on words is undone on bytes. -/
theorem onOctets_onOctets {f g : UInt32 × UInt32 → UInt32 × UInt32}
    (hundo : ∀ words, g (f words) = words) : onOctets g (onOctets f block) = block := by
  rw [onOctets, onOctets, wordsOf_octetsOf, hundo, octetsOf_wordsOf]

theorem xorOctets_xorOctets (iv : Octets) : xorOctets (xorOctets block iv) iv = block := by
  ext i hi
  simp [xorOctets]

theorem toList_octets : block.toList =
    [block[0], block[1], block[2], block[3], block[4], block[5], block[6], block[7]] := by
  conv_lhs => rw [eq_octets block]
  rfl

end

/-! ## The blocks of an array -/

def bytesOf (blocks : List Octets) : Bytes := blocks.flatMap (·.toList)

section

variable {block block' : Octets} {blocks : List Octets} {data front rest : Bytes} {n : ℕ}

theorem bytesOf_cons : bytesOf (block :: blocks) = block.toList ++ bytesOf blocks := rfl

theorem bytesOf_append (more : List Octets) :
    bytesOf (blocks ++ more) = bytesOf blocks ++ bytesOf more :=
  List.flatMap_append

theorem bytesOf_concat : bytesOf (blocks ++ [block]) = bytesOf blocks ++ block.toList := by
  rw [bytesOf_append, bytesOf_cons]
  exact congrArg _ (List.append_nil _)

@[simp] theorem length_bytesOf : (bytesOf blocks).length = 8 * blocks.length := by
  induction blocks with
  | nil => rfl
  | cons block blocks ih =>
      rw [bytesOf_cons, List.length_append, Vector.length_toList, ih, List.length_cons]
      omega

theorem exists_blocks (h : 8 * n ≤ data.length) :
    ∃ blocks tail, data = bytesOf blocks ++ tail ∧ blocks.length = n := by
  induction n generalizing data with
  | zero => exact ⟨[], data, rfl, rfl⟩
  | succ n ih =>
      have hfirst : (data.take 8).length = 8 := by
        rw [List.length_take]
        omega
      obtain ⟨blocks, tail, hrest, hlength⟩ := @ih (data.drop 8) (by rw [List.length_drop]; omega)
      refine ⟨⟨(data.take 8).toArray, hfirst⟩ :: blocks, tail, ?_, ?_⟩
      · rw [bytesOf_cons, List.append_assoc, ← hrest]
        exact (List.take_append_drop 8 data).symm
      · rw [List.length_cons, hlength]

theorem octetsAt?_append :
    octetsAt? (front ++ (block.toList ++ rest)) front.length = some block := by
  rw [octetsAt?, if_pos (Int.natCast_nonneg _), Int.toNat_natCast, List.drop_left, toList_octets]
  exact congrArg some (eq_octets block).symm

theorem replaceOctets_append :
    replaceOctets (front ++ (block.toList ++ rest)) front.length block' =
      front ++ (block'.toList ++ rest) := by
  have hlength : front.length + 8 = (front ++ block.toList).length := by
    rw [List.length_append, Vector.length_toList]
  rw [replaceOctets, Int.toNat_natCast, List.take_left, hlength, ← List.append_assoc front,
    List.drop_left, List.append_assoc]

theorem octetsAt?_first : octetsAt? (bytesOf (block :: blocks) ++ rest) 0 = some block := by
  rw [bytesOf_cons, List.append_assoc]
  exact @octetsAt?_append block [] _

theorem replaceOctets_first : replaceOctets (bytesOf (block :: blocks) ++ rest) 0 block' =
    bytesOf (block' :: blocks) ++ rest := by
  rw [bytesOf_cons, bytesOf_cons, List.append_assoc, List.append_assoc]
  exact @replaceOctets_append block block' [] _

/-! ## The loops -/

variable {round : Octets → Octets → Octets} {len i : UInt32} {last : Octets} {c : BlfCtx}

theorem forOctets_done (hi : len.toNat ≤ i.toNat) :
    forOctets round len i last data = some data := by
  have hlt : ¬i < len := by
    rw [UInt32.lt_iff_toNat_lt]
    omega
  unfold forOctets
  rw [if_neg hlt]

theorem forOctets_round (hi : i.toNat < len.toNat) :
    forOctets round len i last (block.toList ++ rest) =
      (forOctets round len (i + 8) (round last block) rest).map
        ((round last block).toList ++ ·) := by
  have hlt : i < len := UInt32.lt_iff_toNat_lt.mpr hi
  rw [toList_octets]
  conv_lhs => unfold forOctets
  rw [if_pos hlt]
  dsimp only [List.cons_append, List.nil_append]
  rw [← eq_octets block]

theorem toNat_add_eight (i : UInt32) : (i + 8).toNat = (i.toNat + 8) % 2 ^ 32 :=
  UInt32.toNat_add i 8

theorem toNat_sub_eight (hi : 8 ≤ i.toNat) : (i - 8).toNat = i.toNat - 8 :=
  UInt32.toNat_sub_of_le _ _ (UInt32.le_iff_toNat_le.mpr hi)

theorem forOctets_bytesOf (hlen : i.toNat + 8 * blocks.length = len.toNat) :
    forOctets round len i last (bytesOf blocks ++ rest) =
      some (bytesOf (chain round last blocks) ++ rest) := by
  have hlt := len.toNat_lt
  induction blocks generalizing i last with
  | nil => exact forOctets_done hlen.ge
  | cons block blocks ih =>
      rw [List.length_cons] at hlen
      have hnext := toNat_add_eight i
      rw [bytesOf_cons, List.append_assoc, forOctets_round (by omega), ih (by omega), chain,
        bytesOf_cons, List.append_assoc]
      rfl

theorem blfCbcDecryptLoop_done {p : ℤ} (hi : i.toNat < 8) :
    blfCbcDecryptLoop c i p data = some (p, data) := by
  have hlt : ¬(8 : UInt32) ≤ i := by
    rw [UInt32.le_iff_toNat_le]
    exact Nat.not_le.mpr hi
  rw [blfCbcDecryptLoop, dif_neg hlt]

theorem blfCbcDecryptLoop_again {p : ℤ} {iv : Octets} (hi : 8 ≤ i.toNat)
    (hblock : octetsAt? data p = some block) (hiv : octetsAt? data (p - 8) = some iv) :
    blfCbcDecryptLoop c i p data =
      blfCbcDecryptLoop c (i - 8) (p - 8)
        (replaceOctets data p (cbcDecryptOctets c iv block)) := by
  have hle : (8 : UInt32) ≤ i := UInt32.le_iff_toNat_le.mpr hi
  rw [blfCbcDecryptLoop, dif_pos hle, hblock, hiv]
  rfl

theorem exists_previous (block : Octets) (blocks : List Octets) :
    ∃ before, block :: blocks = before ++ [blocks.getLastD block] ∧
      before.length = blocks.length := by
  have hsplit := List.dropLast_append_getLast (List.cons_ne_nil block blocks)
  rw [List.getLast_eq_getLastD] at hsplit
  refine ⟨_, hsplit.symm, ?_⟩
  rw [List.length_dropLast, List.length_cons, Nat.add_sub_cancel]

/-- The loop of `blf_cbc_decrypt` on all blocks but the first.  It goes back, so the block
before the one it is at is still enciphered. -/
theorem blfCbcDecryptLoop_bytesOf (hi : i.toNat = 8 * blocks.length) :
    blfCbcDecryptLoop c i (8 * blocks.length : ℕ) (block.toList ++ (bytesOf blocks ++ rest)) =
      some (0, block.toList ++ (bytesOf (unchain (cbcDecryptOctets c) block blocks) ++ rest)) := by
  induction blocks using List.reverseRecOn generalizing i rest with
  | nil => exact blfCbcDecryptLoop_done (hi ▸ by decide)
  | append_singleton blocks last ih =>
      rw [List.length_append, List.length_singleton, Nat.mul_add] at hi ⊢
      obtain ⟨before, hbefore, hlength⟩ := exists_previous block blocks
      generalize hlast : blocks.getLastD block = previous at hbefore
      have hfront : (block.toList ++ bytesOf blocks).length = 8 * blocks.length + 8 * 1 := by
        rw [List.length_append, Vector.length_toList, length_bytesOf]
        omega
      have hsame : (block.toList ++ bytesOf blocks) ++ (last.toList ++ rest) =
          bytesOf before ++ (previous.toList ++ (last.toList ++ rest)) := by
        rw [← bytesOf_cons, hbefore, bytesOf_concat, List.append_assoc]
      have hblock := @octetsAt?_append last (block.toList ++ bytesOf blocks) rest
      have hiv := @octetsAt?_append previous (bytesOf before) (last.toList ++ rest)
      have hreplace (out : Octets) :=
        @replaceOctets_append last out (block.toList ++ bytesOf blocks) rest
      have hcast : ((8 * blocks.length + 8 * 1 : ℕ) : ℤ) - 8 = (8 * blocks.length : ℕ) := by omega
      have hnext : (i - 8).toNat = 8 * blocks.length := by
        rw [toNat_sub_eight (by omega), hi]
        rfl
      rw [hfront] at hblock hreplace
      rw [length_bytesOf, hlength, ← hsame, ← hcast] at hiv
      rw [bytesOf_concat, List.append_assoc, ← List.append_assoc block.toList,
        blfCbcDecryptLoop_again (by omega) hblock hiv, hreplace, hcast, List.append_assoc,
        ih hnext, unchain_concat, hlast, bytesOf_concat, List.append_assoc]

/-! ## There and back -/

variable {iv iv' : Octets}

theorem cbcDecryptOctets_cbcEncryptOctets :
    cbcDecryptOctets c iv' (cbcEncryptOctets c iv block) = xorOctets (xorOctets block iv) iv' := by
  rw [cbcDecryptOctets, cbcEncryptOctets, onOctets_onOctets _ (blowfishDecipher_blowfishEncipher c)]

theorem cbcEncryptOctets_cbcDecryptOctets :
    cbcEncryptOctets c iv (cbcDecryptOctets c iv block) = block := by
  rw [cbcDecryptOctets, cbcEncryptOctets, xorOctets_xorOctets,
    onOctets_onOctets _ (blowfishEncipher_blowfishDecipher c)]

theorem blfCbcEncrypt_bytesOf (hlen : len.toNat = 8 * blocks.length) :
    blfCbcEncrypt c iv (bytesOf blocks ++ rest) len =
      some (bytesOf (chain (cbcEncryptOctets c) iv blocks) ++ rest) :=
  forOctets_bytesOf (by rw [hlen]; exact Nat.zero_add _)

theorem blfCbcDecrypt_bytesOf (hlen : len.toNat = 8 * (block :: blocks).length) :
    blfCbcDecrypt c iv (bytesOf (block :: blocks) ++ rest) len =
      some (bytesOf (unchain (cbcDecryptOctets c) iv (block :: blocks)) ++ rest) := by
  rw [List.length_cons] at hlen
  have hi : (len - 8).toNat = 8 * blocks.length := by
    rw [toNat_sub_eight (by omega), hlen]
    rfl
  have hp : (len.toNat : ℤ) - 8 = (8 * blocks.length : ℕ) := by omega
  have hloop : blfCbcDecryptLoop c (len - 8) (8 * blocks.length : ℕ)
      (bytesOf (block :: blocks) ++ rest) =
        some (0, bytesOf (block :: unchain (cbcDecryptOctets c) block blocks) ++ rest) := by
    rw [bytesOf_cons, bytesOf_cons, List.append_assoc, List.append_assoc]
    exact blfCbcDecryptLoop_bytesOf hi
  rw [blfCbcDecrypt, hp, hloop, unchain]
  simp only [bind, Option.bind_some, octetsAt?_first, replaceOctets_first]

end

/-- ECB there and back, for any number of blocks in an array. -/
theorem blfEcbDecrypt_blfEcbEncrypt (c : BlfCtx) (data : Bytes) (len : UInt32)
    (hblocks : 8 ∣ len.toNat) (hfits : len.toNat ≤ data.length) :
    ∃ enc, blfEcbEncrypt c data len = some enc ∧ blfEcbDecrypt c enc len = some data := by
  obtain ⟨n, hn⟩ := hblocks
  obtain ⟨blocks, rest, rfl, rfl⟩ := exists_blocks (hn ▸ hfits)
  have hundo (block : Octets) :
      onOctets (blowfishDecipher c) (onOctets (blowfishEncipher c) block) = block :=
    onOctets_onOctets block (blowfishDecipher_blowfishEncipher c)
  refine ⟨_, forOctets_bytesOf (hn ▸ Nat.zero_add _), ?_⟩
  rw [blfEcbDecrypt, forOctets_bytesOf (by rw [hn, length_chain]; exact Nat.zero_add _),
    chain_const, chain_const, List.map_map]
  simp only [Function.comp_def, hundo, List.map_id']

/-- CBC there and back, for any number of blocks in an array.  With another `iv` the first
block alone comes out different. -/
theorem blfCbcDecrypt_blfCbcEncrypt (c : BlfCtx) (iv iv' : Octets) (data : Bytes) (len : UInt32)
    (hblocks : 8 ∣ len.toNat) (hpos : 0 < len.toNat) (hfits : len.toNat ≤ data.length) :
    ∃ enc, blfCbcEncrypt c iv data len = some enc ∧ enc.length = data.length ∧
      enc.drop len.toNat = data.drop len.toNat ∧ blfCbcDecrypt c iv enc len = some data ∧
      (∃ block, octetsAt? data 0 = some block ∧
        blfCbcDecrypt c iv' enc len =
          some (replaceOctets data 0 (xorOctets (xorOctets block iv) iv'))) ∧
      ∃ dec, blfCbcDecrypt c iv data len = some dec ∧ blfCbcEncrypt c iv dec len = some data := by
  obtain ⟨n, hn⟩ := hblocks
  obtain ⟨blocks, rest, rfl, rfl⟩ := exists_blocks (hn ▸ hfits)
  cases blocks with
  | nil => exact absurd hpos (by rw [hn]; decide)
  | cons block blocks =>
      have hundo (last block : Octets) :
          cbcDecryptOctets c last (cbcEncryptOctets c last block) = block := by
        rw [cbcDecryptOctets_cbcEncryptOctets, xorOctets_xorOctets]
      have hundo' (last block : Octets) :
          cbcEncryptOctets c last (cbcDecryptOctets c last block) = block :=
        cbcEncryptOctets_cbcDecryptOctets
      have hlength : len.toNat =
          8 * (cbcEncryptOctets c iv block ::
            chain (cbcEncryptOctets c) (cbcEncryptOctets c iv block) blocks).length := by
        rw [hn, List.length_cons, List.length_cons, length_chain]
      refine ⟨_, blfCbcEncrypt_bytesOf hn, ?_, ?_, ?_, ⟨block, octetsAt?_first, ?_⟩, _,
        blfCbcDecrypt_bytesOf hn, ?_⟩
      · simp
      · rw [List.drop_left' (by simp [hn]), List.drop_left' (by simp [hn])]
      · rw [chain, blfCbcDecrypt_bytesOf hlength, unchain, hundo, unchain_chain hundo]
      · rw [chain, blfCbcDecrypt_bytesOf hlength, unchain, cbcDecryptOctets_cbcEncryptOctets,
          unchain_chain hundo, replaceOctets_first]
      · rw [blfCbcEncrypt_bytesOf (by rw [hn, length_unchain]), chain_unchain hundo']

theorem blfCbcDecrypt_blfCbcEncrypt_two : ∃ enc,
    blfCbcEncrypt blowfishInitstate (Vector.replicate 8 7) (literal "sixteen letters.+") 16 =
        some enc ∧
      blfCbcDecrypt blowfishInitstate (Vector.replicate 8 7) enc 16 =
        some (literal "sixteen letters.+") := by
  obtain ⟨enc, henc, -, -, hdec, -⟩ := blfCbcDecrypt_blfCbcEncrypt blowfishInitstate
    (Vector.replicate 8 7) (Vector.replicate 8 0) (literal "sixteen letters.+") 16 (by decide)
    (by decide) (by decide)
  exact ⟨enc, henc, hdec⟩

/-! ## Out of range -/

section

variable {round : Octets → Octets → Octets} {len i : UInt32} {last : Octets} {data : Bytes}
  {c : BlfCtx} {p : ℤ}

theorem forOctets_short (hi : i.toNat < len.toNat) (hdata : data.length < 8) :
    forOctets round len i last data = none := by
  have hlt : i < len := UInt32.lt_iff_toNat_lt.mpr hi
  unfold forOctets
  rw [if_pos hlt]
  split
  · simp only [List.length_cons] at hdata
    omega
  · rfl

theorem exists_first (h : 8 ≤ data.length) : ∃ (block : Octets) (rest : Bytes),
    data = block.toList ++ rest ∧ data.length = rest.length + 8 := by
  obtain ⟨blocks, rest, rfl, hone⟩ := @exists_blocks data 1 h
  obtain ⟨block, rfl⟩ := List.length_eq_one_iff.mp hone
  refine ⟨block, rest, ?_, ?_⟩
  · rw [bytesOf_cons, List.append_assoc]
    rfl
  · rw [List.length_append, length_bytesOf, hone, Nat.add_comm]

/-- The loop needs all of the block in which `len` lies. -/
theorem forOctets_eq_none_iff (hlen : len.toNat ≤ 2 ^ 32 - 8) :
    forOctets round len i last data = none ↔
      data.length < 8 * ((len.toNat - i.toNat + 7) / 8) := by
  induction hn : data.length using Nat.strong_induction_on generalizing i last data with
  | h n ih =>
      subst hn
      by_cases hi : i.toNat < len.toNat
      · by_cases hdata : data.length < 8
        · rw [forOctets_short hi hdata]
          simp only [true_iff]
          omega
        · obtain ⟨block, rest, rfl, hlength⟩ := exists_first (Nat.not_lt.mp hdata)
          have hnext := toNat_add_eight i
          rw [forOctets_round hi, Option.map_eq_none_iff, ih _ (by omega) rfl, hlength]
          omega
      · rw [forOctets_done (Nat.not_lt.mp hi)]
        simp only [reduceCtorEq, false_iff]
        omega

/-- Past the last multiple of 8 the counter of the loop starts again. -/
theorem forOctets_endless (hlen : 2 ^ 32 - 8 < len.toNat) (hi : 8 ∣ i.toNat) :
    forOctets round len i last data = none := by
  have hlt : i.toNat < len.toNat := by
    have hi' := i.toNat_lt
    omega
  induction hn : data.length using Nat.strong_induction_on generalizing i last data with
  | h n ih =>
      subst hn
      by_cases hdata : data.length < 8
      · exact forOctets_short hlt hdata
      · obtain ⟨block, rest, rfl, hlength⟩ := exists_first (Nat.not_lt.mp hdata)
        have hnext := toNat_add_eight i
        have hnext' := (i + 8).toNat_lt
        rw [forOctets_round hlt, ih _ (by omega) (by omega) (by omega) rfl]
        rfl

theorem octetsAt?_eq_none_iff : octetsAt? data p = none ↔ p < 0 ∨ data.length < p + 8 := by
  by_cases hp : 0 ≤ p
  · have hlength : (data.drop p.toNat).length = data.length - p.toNat := List.length_drop
    rw [octetsAt?, if_pos hp]
    by_cases hshort : (data.drop p.toNat).length < 8
    · split
      next hdrop =>
        rw [hdrop] at hshort
        simp only [List.length_cons] at hshort
        omega
      next =>
        simp only [true_iff]
        omega
    · obtain ⟨block, rest, hdrop, -⟩ := exists_first (Nat.not_lt.mp hshort)
      rw [hdrop, toList_octets]
      simp only [List.cons_append, reduceCtorEq, false_iff]
      omega
  · rw [octetsAt?, if_neg hp]
    simp only [true_iff]
    omega

theorem length_replaceOctets {block : Octets} (hp : 0 ≤ p) (hfits : p + 8 ≤ data.length) :
    (replaceOctets data p block).length = data.length := by
  rw [replaceOctets, List.length_append, List.length_append, List.length_take, List.length_drop,
    Vector.length_toList]
  omega

theorem exists_octetsAt (hp : 0 ≤ p) (hfits : p + 8 ≤ data.length) :
    ∃ block, octetsAt? data p = some block := by
  apply Option.ne_none_iff_exists'.mp
  rw [Ne, octetsAt?_eq_none_iff]
  omega

theorem blfCbcDecryptLoop_outOfRange (hi : 8 ≤ i.toNat) (h : octetsAt? data p = none) :
    blfCbcDecryptLoop c i p data = none := by
  have hle : (8 : UInt32) ≤ i := UInt32.le_iff_toNat_le.mpr hi
  rw [blfCbcDecryptLoop, dif_pos hle, h]
  rfl

theorem blfCbcDecryptLoop_inRange (hfits : i.toNat + 8 ≤ data.length) :
    ∃ (p : ℤ) (data' : Bytes), blfCbcDecryptLoop c i i.toNat data = some (p, data') ∧
      0 ≤ p ∧ p ≤ i.toNat ∧ data'.length = data.length := by
  induction hn : i.toNat using Nat.strong_induction_on generalizing i data with
  | h n ih =>
      subst hn
      by_cases hi : 8 ≤ i.toNat
      · have hnext := toNat_sub_eight hi
        have hcast : ((i.toNat : ℤ) - 8) = (i - 8).toNat := by omega
        obtain ⟨block, hblock⟩ := @exists_octetsAt data i.toNat (by omega) (by omega)
        obtain ⟨iv, hiv⟩ := @exists_octetsAt data (i.toNat - 8) (by omega) (by omega)
        have hlength := @length_replaceOctets data i.toNat (cbcDecryptOctets c iv block)
          (by omega) (by omega)
        obtain ⟨p, data', hloop, hp, hle, hdata'⟩ :=
          @ih (i - 8).toNat (by omega) (i - 8)
            (replaceOctets data i.toNat (cbcDecryptOctets c iv block)) (by omega) rfl
        refine ⟨p, data', ?_, hp, by omega, hdata'.trans hlength⟩
        rw [blfCbcDecryptLoop_again hi hblock hiv, hcast, hloop]
      · exact ⟨_, _, blfCbcDecryptLoop_done (Nat.not_le.mp hi), Int.natCast_nonneg _, Int.le_refl _,
          rfl⟩

theorem blfCbcDecrypt_outOfRange {iv : Octets} (h : octetsAt? data (len.toNat - 8) = none) :
    blfCbcDecrypt c iv data len = none := by
  by_cases hi : 8 ≤ (len - 8).toNat
  · rw [blfCbcDecrypt, blfCbcDecryptLoop_outOfRange hi h]
    rfl
  · rw [blfCbcDecrypt, blfCbcDecryptLoop_done (Nat.not_le.mp hi)]
    simp only [bind, Option.bind_some, h, Option.bind_none]

theorem blfCbcDecrypt_eq_none_iff {iv : Octets} :
    blfCbcDecrypt c iv data len = none ↔ len.toNat < 8 ∨ data.length < len.toNat := by
  constructor
  · intro h
    by_contra hfits
    have hi := @toNat_sub_eight len (by omega)
    have hcast : (len.toNat : ℤ) - 8 = (len - 8).toNat := by omega
    obtain ⟨p, data', hloop, hp, hle, hlength⟩ :=
      @blfCbcDecryptLoop_inRange (len - 8) data c (by omega)
    obtain ⟨block, hblock⟩ := @exists_octetsAt data' p hp (by omega)
    rw [blfCbcDecrypt, hcast, hloop] at h
    simp only [bind, Option.bind_some, hblock, reduceCtorEq] at h
  · intro h
    apply blfCbcDecrypt_outOfRange
    rw [octetsAt?_eq_none_iff]
    omega

/-- Exactly when the two functions leave the array.  Enciphering nothing does nothing, but
deciphering less than a block starts in front of the array. -/
theorem cbc_outOfRange_iff (c : BlfCtx) (iv : Octets) (data : Bytes) (len : UInt32) :
    (blfCbcEncrypt c iv data len = none ↔
      2 ^ 32 - 8 < len.toNat ∨ data.length < 8 * ((len.toNat + 7) / 8)) ∧
    (blfCbcDecrypt c iv data len = none ↔ len.toNat < 8 ∨ data.length < len.toNat) := by
  constructor
  · by_cases hlen : len.toNat ≤ 2 ^ 32 - 8
    · rw [blfCbcEncrypt, forOctets_eq_none_iff hlen]
      have hzero : (0 : UInt32).toNat = 0 := rfl
      omega
    · rw [blfCbcEncrypt, forOctets_endless (Nat.not_le.mp hlen) (by decide)]
      simp only [true_iff]
      exact .inl (Nat.not_le.mp hlen)
  · exact blfCbcDecrypt_eq_none_iff

end

end TChat.Bcrypt
