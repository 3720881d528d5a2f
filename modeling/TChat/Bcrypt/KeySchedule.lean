import TChat.Bcrypt.Blowfish
import TChat.Lib.Counting
import TChat.Lib.Cycle
/-!
# The key schedule

How `bcrypt/blowfish.cpp` works the bytes of a key, and of a salt, into its tables.  Bytes
that run out are read again from the start.
-/

namespace TChat.Bcrypt

open TChat.Common TChat.Lib

/-! ## The bytes of a key -/

/-- A pointer to bytes, and the number of them that is read before the first comes again. -/
structure KeyBytes where
  data : Bytes
  databytes : ℕ
  nonempty : data ≠ []
  fits : databytes ≤ data.length

namespace KeyBytes

/-- `if (j >= databytes) j = 0`. -/
def position (key : KeyBytes) (j : ℕ) : ℕ := if key.databytes ≤ j then 0 else j

theorem position_lt (key : KeyBytes) (j : ℕ) : key.position j < key.data.length := by
  have hpos : 0 < key.data.length := List.length_pos_iff.mpr key.nonempty
  have hfits := key.fits
  unfold position
  split <;> omega

/-- One round of the loop in `Blowfish_stream2word`. -/
def shiftIn (key : KeyBytes) (s : UInt32 × ℕ) : UInt32 × ℕ :=
  ((s.1 <<< 8) ||| (key.data.get ⟨key.position s.2, key.position_lt s.2⟩).toUInt32,
    key.position s.2 + 1)

end KeyBytes

/-- `Blowfish_stream2word`: the word, and the value that `*current` takes. -/
def blowfishStream2word (key : KeyBytes) (current : ℕ) : UInt32 × ℕ :=
  key.shiftIn^[4] (0, current)

/-! ## The tables -/

/-- A round of the loop over the subkeys, with the position in the key. -/
def xorSubkey (key : KeyBytes) (s : BlfCtx × ℕ) (i : Fin 18) : BlfCtx × ℕ :=
  let (temp, j) := blowfishStream2word key s.2
  ({ s.1 with P := s.1.P.set i (s.1.P.get i ^^^ temp) }, j)

def xorKey (key : KeyBytes) (c : BlfCtx) : BlfCtx :=
  ((List.finRange 18).foldl (xorSubkey key) (c, 0)).1

/-- The tables, and the two words `datal` and `datar` that run through them. -/
structure Chain where
  c : BlfCtx
  data : UInt32 × UInt32

namespace Chain

def encipher (s : Chain) : Chain := { s with data := blowfishEncipher s.c s.data }

def storeP (s : Chain) (i : Fin 9) : Chain :=
  { s with c.P := (s.c.P.set (2 * i) s.data.1).set (2 * i + 1) s.data.2 }

def storeS (s : Chain) (i : Fin 4) (k : Fin 128) : Chain :=
  { s with
    c.S := (s.c.S.set (256 * i + 2 * k) s.data.1).set (256 * i + 2 * k + 1) s.data.2 }

def absorb (data : KeyBytes) (s : Chain × ℕ) : Chain × ℕ :=
  let (l, j) := blowfishStream2word data s.2
  let (r, j) := blowfishStream2word data j
  ({ s.1 with data := (s.1.data.1 ^^^ l, s.1.data.2 ^^^ r) }, j)

/-- A round of the loops over `P` and `S` in `Blowfish_expandstate`. -/
def saltP (data : KeyBytes) (s : Chain × ℕ) (i : Fin 9) : Chain × ℕ :=
  let (s, j) := absorb data s
  (s.encipher.storeP i, j)

def saltS (data : KeyBytes) (i : Fin 4) (s : Chain × ℕ) (k : Fin 128) : Chain × ℕ :=
  let (s, j) := absorb data s
  (s.encipher.storeS i k, j)

end Chain

def blowfishExpand0state (c : BlfCtx) (key : KeyBytes) : BlfCtx :=
  let s : Chain := ⟨xorKey key c, 0, 0⟩
  let s := (List.finRange 9).foldl (fun s i => s.encipher.storeP i) s
  let s := (List.finRange 4).foldl
    (fun s i => (List.finRange 128).foldl (fun s k => s.encipher.storeS i k) s) s
  s.c

def blowfishExpandstate (c : BlfCtx) (data key : KeyBytes) : BlfCtx :=
  let s : Chain × ℕ := (⟨xorKey key c, 0, 0⟩, 0)
  let s := (List.finRange 9).foldl (Chain.saltP data) s
  let s := (List.finRange 4).foldl
    (fun s i => (List.finRange 128).foldl (Chain.saltS data i) s) s
  s.1.c

def blfKey (key : KeyBytes) : BlfCtx := blowfishExpand0state blowfishInitstate key

/-! ## What the tables take from a key -/

namespace KeyBytes

variable (key : KeyBytes) (n : ℕ)

/-- The bytes that are read before the first comes again. -/
def period : Bytes := key.data.take (max 1 key.databytes)

theorem length_period : key.period.length = max 1 key.databytes := by
  have hpos : 0 < key.data.length := List.length_pos_iff.mpr key.nonempty
  have hfits := key.fits
  rw [period, List.length_take]
  omega

theorem period_ne_nil : key.period ≠ [] := by
  apply List.ne_nil_of_length_pos
  rw [length_period]
  omega

/-- The byte that is read as number `n`. -/
def byteAt : UInt8 := cycleAt key.period key.period_ne_nil n

/-- The value of `j` before that byte is read. -/
def cursor : ℕ := (fun j => key.position j + 1)^[n] 0

theorem cursor_succ : key.cursor (n + 1) = key.position (key.cursor n) + 1 :=
  Function.iterate_succ_apply' ..

theorem position_cursor : key.position (key.cursor n) = n % key.period.length := by
  rw [length_period]
  induction n with
  | zero =>
      rw [Nat.zero_mod, position]
      exact ite_self 0
  | succ n ih =>
      have hdiv := Nat.div_add_mod n (max 1 key.databytes)
      have hlt : n % max 1 key.databytes < max 1 key.databytes := Nat.mod_lt n (by omega)
      rw [cursor_succ, ih, position]
      by_cases hlast : key.databytes ≤ n % max 1 key.databytes + 1
      · have hround : n + 1 = max 1 key.databytes * (n / max 1 key.databytes + 1) := by
          rw [Nat.mul_add]
          omega
        rw [if_pos hlast, hround, Nat.mul_mod_right]
      · have hround : n + 1 = n / max 1 key.databytes * max 1 key.databytes +
            (n % max 1 key.databytes + 1) := by
          rw [Nat.mul_comm]
          omega
        rw [if_neg hlast, hround, Nat.mul_add_mod_of_lt (by omega)]

theorem get_position_cursor :
    key.data.get ⟨key.position (key.cursor n), key.position_lt (key.cursor n)⟩ =
      key.byteAt n := by
  have htake : key.byteAt n = (key.data.take (max 1 key.databytes)).get
      ⟨n % key.period.length, Nat.mod_lt n (List.length_pos_iff.mpr key.period_ne_nil)⟩ := rfl
  rw [htake]
  simp only [List.get_eq_getElem, List.getElem_take, position_cursor]

def wordAt : UInt32 :=
  (List.range 4).foldl (fun temp i => (temp <<< 8) ||| (key.byteAt (n + i)).toUInt32) 0

theorem shiftIn_cursor (temp : UInt32) :
    key.shiftIn (temp, key.cursor n) =
      ((temp <<< 8) ||| (key.byteAt n).toUInt32, key.cursor (n + 1)) := by
  rw [shiftIn, get_position_cursor, cursor_succ]

theorem blowfishStream2word_cursor :
    blowfishStream2word key (key.cursor n) = (key.wordAt n, key.cursor (n + 4)) := by
  simp only [blowfishStream2word, Function.iterate_succ_apply, Function.iterate_zero_apply,
    shiftIn_cursor]
  rfl

end KeyBytes

section

variable {key key' data : KeyBytes} {c : BlfCtx}

theorem xorKey_eq :
    xorKey key c = (List.finRange 18).foldl
      (fun c i => { c with P := c.P.set i (c.P.get i ^^^ key.wordAt (4 * i)) }) c := by
  have hround : ∀ (c : BlfCtx) (i : Fin 18),
      xorSubkey key (c, key.cursor (4 * i)) i =
        ({ c with P := c.P.set i (c.P.get i ^^^ key.wordAt (4 * i)) },
          key.cursor (4 * (i + 1))) := by
    intro c i
    rw [xorSubkey, key.blowfishStream2word_cursor, Nat.mul_add]
  exact congrArg Prod.fst (foldl_finRange_counter (fun i => key.cursor (4 * i)) hround)

/-- Only the first 72 bytes that are read of a key find their way into the subkeys. -/
theorem xorKey_congr (h : ∀ n < 72, key.byteAt n = key'.byteAt n) :
    xorKey key c = xorKey key' c := by
  rw [xorKey_eq, xorKey_eq]
  apply List.foldl_ext
  intro c i _
  have hword : key.wordAt (4 * i) = key'.wordAt (4 * i) := by
    apply List.foldl_ext
    intro temp k hk
    rw [List.mem_range] at hk
    rw [h (4 * i + k) (by omega)]
  rw [hword]

theorem blowfishExpand0state_congr (h : ∀ n < 72, key.byteAt n = key'.byteAt n) :
    blowfishExpand0state c key = blowfishExpand0state c key' := by
  simp only [blowfishExpand0state, xorKey_congr h]

/-- A key and its repetitions are one key. -/
theorem blfKey_repeated {k : ℕ} (hdata : key'.period = (List.replicate k key.period).flatten) :
    blfKey key' = blfKey key := by
  apply blowfishExpand0state_congr
  intro n _
  have hne : (List.replicate k key.period).flatten ≠ [] := hdata ▸ key'.period_ne_nil
  rw [KeyBytes.byteAt, KeyBytes.byteAt, ← cycleAt_flatten_replicate key.period_ne_nil hne]
  congr 1

theorem blowfishExpandstate_congr (h : ∀ n < 72, key.byteAt n = key'.byteAt n) :
    blowfishExpandstate c data key = blowfishExpandstate c data key' := by
  simp only [blowfishExpandstate, xorKey_congr h]

/-! ## Without a salt -/

theorem blowfishStream2word_zero (hzero : ∀ byte ∈ data.data, byte = 0) (current : ℕ) :
    (blowfishStream2word data current).1 = 0 := by
  have hshift : ∀ j, (data.shiftIn (0, j)).1 = 0 := by
    intro j
    have hbyte := hzero _ (List.get_mem data.data ⟨data.position j, data.position_lt j⟩)
    rw [KeyBytes.shiftIn, hbyte]
    simp
  have hword : ∀ k j, (data.shiftIn^[k] (0, j)).1 = 0 := by
    intro k
    induction k with
    | zero => exact fun _ => rfl
    | succ k ih =>
        intro j
        rw [Function.iterate_succ_apply, ← Prod.mk.eta (p := data.shiftIn (0, j)), hshift]
        exact ih _
  exact hword 4 current

theorem Chain.absorb_zero (hzero : ∀ byte ∈ data.data, byte = 0) (s : Chain × ℕ) :
    (Chain.absorb data s).1 = s.1 := by
  simp only [Chain.absorb, blowfishStream2word_zero hzero, UInt32.xor_zero]

/-- `Blowfish_expand0state` is `Blowfish_expandstate` with nothing but zeros for a salt. -/
theorem blowfishExpandstate_zero (hzero : ∀ byte ∈ data.data, byte = 0) :
    blowfishExpandstate c data key = blowfishExpand0state c key := by
  have hP : ∀ s : Chain × ℕ,
      (List.finRange 9).foldl (fun s i => s.encipher.storeP i) s.1 =
        ((List.finRange 9).foldl (Chain.saltP data) s).1 := by
    intro s
    apply List.foldl_hom Prod.fst
    intro s i
    simp only [Chain.saltP, Chain.absorb_zero hzero]
  have hbox : ∀ (s : Chain × ℕ) (i : Fin 4),
      (List.finRange 128).foldl (fun s k => s.encipher.storeS i k) s.1 =
        ((List.finRange 128).foldl (Chain.saltS data i) s).1 := by
    intro s i
    apply List.foldl_hom Prod.fst
    intro s k
    simp only [Chain.saltS, Chain.absorb_zero hzero]
  have hS : ∀ s : Chain × ℕ,
      (List.finRange 4).foldl
        (fun s i => (List.finRange 128).foldl (fun s k => s.encipher.storeS i k) s) s.1 =
      ((List.finRange 4).foldl
        (fun s i => (List.finRange 128).foldl (Chain.saltS data i) s) s).1 := by
    intro s
    apply List.foldl_hom Prod.fst
    exact hbox
  rw [blowfishExpandstate, blowfishExpand0state, ← hS, ← hP]

/-- One zero byte for a salt, and the key "a". -/
theorem blowfishExpandstate_zero_one :
    blowfishExpandstate blowfishInitstate ⟨[0], 1, by decide, by decide⟩
        ⟨[97], 1, by decide, by decide⟩ =
      blowfishExpand0state blowfishInitstate ⟨[97], 1, by decide, by decide⟩ :=
  blowfishExpandstate_zero (by simp)

end

end TChat.Bcrypt
