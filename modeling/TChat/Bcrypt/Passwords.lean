import TChat.Bcrypt.Hash
/-!
# What a password hash is good for

A hash that `node_bcrypt` writes is a salt from which it writes the same hash again, so the
password of a stored hash is recognised.
-/

namespace TChat.Bcrypt

open TChat.Common TChat.Lib

/-! ## The text in front of the letters -/

section

variable {minor : UInt8} {logr : ℕ} {text : Bytes}

/-- The minor versions that `node_bcrypt` knows. -/
def KnownMinor (minor : UInt8) : Prop := minor = 0 ∨ minor = 97 ∨ minor = 98

theorem atoi_twoDigits (hlogr : logr < 32) :
    atoi (twoDigits logr ++ dollar :: text) = logr := by
  have hdigits : ∀ d1 d2 : UInt8, isDigit d1 → isDigit d2 → isSpace d1 = false → d1 ≠ 43 →
      d1 ≠ 45 → atoi (d1 :: d2 :: dollar :: text) = (d1 - 48).toNat * 10 + (d2 - 48).toNat := by
    intro d1 d2 h1 h2 hspace hplus hminus
    have hdollar : isDigit dollar = false := rfl
    simp [atoi, digitsValue, hspace, hplus, hminus, h1, h2, hdollar]
  rw [twoDigits]
  interval_cases logr <;> exact hdigits _ _ rfl rfl rfl (by decide) (by decide)

theorem readRounds_twoDigits (hmin : 4 ≤ logr) (hmax : logr ≤ 31)
    (htext : 22 ≤ (text.takeWhile (· ≠ 0)).length) :
    readRounds minor (twoDigits logr ++ dollar :: text) = some (some ⟨minor, logr, text⟩) := by
  have hatoi := @atoi_twoDigits logr text (by omega)
  have hrounds : ¬2 ^ logr < bcryptMinRounds := by
    have hpow : 2 ^ 4 ≤ 2 ^ logr := Nat.pow_le_pow_right (by decide) hmin
    rw [bcryptMinRounds]
    omega
  have hlong : ¬(text.takeWhile (· ≠ 0)).length * 3 / 4 < bcryptMaxSalt := by
    rw [bcryptMaxSalt]
    omega
  have hrange : ¬((31 : ℤ) < logr ∨ (logr : ℤ) < 0) := by omega
  rw [twoDigits] at hatoi ⊢
  simp only [List.cons_append, List.nil_append] at hatoi ⊢
  rw [readRounds]
  simp only [hatoi, hrange, Int.toNat_natCast, hrounds, hlong, ne_eq, not_true_eq_false,
    if_false]

theorem readSetting_settingHeader (hminor : KnownMinor minor) (hmin : 4 ≤ logr)
    (hmax : logr ≤ 31) (htext : 22 ≤ ((text ++ [0]).takeWhile (· ≠ 0)).length) :
    readSetting (settingHeader minor logr ++ text) =
      some (some ⟨minor, logr, text ++ [0]⟩) := by
  have hmod : logr % 32 = logr := Nat.mod_eq_of_lt (by omega)
  have hread := fun minor => @readRounds_twoDigits minor logr (text ++ [0]) hmin hmax htext
  have hversion : ¬(bcryptVersion < bcryptVersion ∧ bcryptVersion < 128) := by decide
  rcases hminor with rfl | rfl | rfl
  · simpa [readSetting, settingHeader, hmod, hversion] using hread 0
  · simpa [readSetting, settingHeader, hmod, hversion, dollar] using hread 97
  · simpa [readSetting, settingHeader, hmod, hversion, dollar] using hread 98

theorem readRounds_some {p : Bytes} {setting : Setting}
    (h : readRounds minor p = some (some setting)) :
    setting.minor = minor ∧ 4 ≤ setting.logr ∧ setting.logr ≤ 31 := by
  unfold readRounds at h
  split at h
  · rename_i d1 d2 separator text
    dsimp only at h
    split_ifs at h with hseparator hrange hpow hlong <;> simp at h
    subst h
    have hmin : 4 ≤ (atoi (d1 :: d2 :: separator :: text)).toNat := by
      by_contra hlt
      have hle : 2 ^ (atoi (d1 :: d2 :: separator :: text)).toNat ≤ 2 ^ 3 :=
        Nat.pow_le_pow_right (by decide) (by omega)
      rw [bcryptMinRounds] at hpow
      omega
    have hmax : (atoi (d1 :: d2 :: separator :: text)).toNat ≤ 31 := by omega
    exact ⟨rfl, hmin, hmax⟩
  · simp at h

theorem readSetting_some {salt : Bytes} {setting : Setting}
    (h : readSetting salt = some (some setting)) :
    KnownMinor setting.minor ∧ 4 ≤ setting.logr ∧ setting.logr ≤ 31 := by
  unfold readSetting at h
  split at h
  · split_ifs at h with hversion hseparator hknown
    · simp at h
    · obtain ⟨hminor, hlogr⟩ := readRounds_some h
      exact ⟨Or.inl hminor, hlogr⟩
    · obtain ⟨hminor, hlogr⟩ := readRounds_some h
      exact ⟨Or.inr (hminor ▸ hknown), hlogr⟩
    · simp at h
  · split_ifs at h
    simp at h
  · simp at h

end

/-! ## The text of a hash -/

section

variable {key : Bytes} {minor : UInt8} {logr : ℕ} {csalt garbage : Salt} {out : Bytes}

@[simp] theorem length_streamWords (data : KeyBytes) (n j : ℕ) :
    (streamWords data n j).length = n := by
  induction n generalizing j with
  | zero => rfl
  | succ n ih => simp [streamWords, ih]

theorem length_flatMap_wordBytes (words : List UInt32) :
    (words.flatMap wordBytes).length = 4 * words.length := by
  induction words with
  | nil => rfl
  | cons word words ih =>
      rw [List.flatMap_cons, List.length_append, ih, List.length_cons, Nat.mul_succ,
        Nat.add_comm]
      rfl

theorem encryptText_isSome (state : BlfCtx) :
    ∃ text, encryptText state = some text ∧ text.length = 4 * bcryptBlocks := by
  have hrounds : ∀ n, ∃ cdata : List UInt32,
      (fun cdata : Option (List UInt32) =>
          cdata.bind fun cdata => blfEnc state cdata (bcryptBlocks / 2))^[n]
        (some (streamWords ciphertext bcryptBlocks 0)) = some cdata ∧
      cdata.length = bcryptBlocks := by
    intro n
    induction n with
    | zero => exact ⟨_, rfl, length_streamWords ..⟩
    | succ n ih =>
        obtain ⟨cdata, hcdata, hlength⟩ := ih
        have hfits : 2 * (bcryptBlocks / 2) ≤ cdata.length := by
          rw [hlength]
          decide
        obtain ⟨next, hnext, hkept, -⟩ := @forBlocks_of_fits (blowfishEncipher state) _ _ hfits
        refine ⟨next, ?_, hkept.trans hlength⟩
        rw [Function.iterate_succ_apply', hcdata]
        exact hnext
  obtain ⟨cdata, hcdata, hlength⟩ := hrounds 64
  refine ⟨cdata.flatMap wordBytes, ?_, by rw [length_flatMap_wordBytes, hlength]⟩
  rw [encryptText, hcdata]
  rfl

theorem hashText_eq_some (h : hashText key minor logr csalt = some out) :
    ∃ digest : Bytes, digest.length = 23 ∧
      out = settingHeader minor logr ++ encodeBase64 csalt.bytes ++ encodeBase64 digest := by
  obtain ⟨text, htext, rfl⟩ := Option.map_eq_some_iff.mp h
  obtain ⟨text', htext', hlength⟩ := encryptText_isSome
    (setUp logr csalt.key (passwordKey minor key))
  obtain rfl := Option.some.inj (htext.symm.trans htext')
  refine ⟨text.take 23, ?_, rfl⟩
  rw [List.length_take, hlength]
  rfl

theorem hashText_isSome (key : Bytes) (minor : UInt8) (logr : ℕ) (csalt : Salt) :
    ∃ out, hashText key minor logr csalt = some out := by
  obtain ⟨text, htext, -⟩ := encryptText_isSome (setUp logr csalt.key (passwordKey minor key))
  rw [hashText, htext]
  exact ⟨_, rfl⟩

theorem zero_notMem_base64Code : (0 : UInt8) ∉ base64Code := by decide

theorem takeWhile_encodeBase64 (data more : Bytes) :
    ((encodeBase64 data ++ more).takeWhile (· ≠ 0)) =
      encodeBase64 data ++ more.takeWhile (· ≠ 0) := by
  apply List.takeWhile_append_of_pos
  intro c hc
  have hne : c ≠ 0 := by
    rintro rfl
    exact zero_notMem_base64Code (encodeBase64_letters data 0 hc)
  simpa using hne

theorem length_encodeBase64_salt (csalt : Salt) : (encodeBase64 csalt.bytes).length = 22 := by
  rw [length_encodeBase64, csalt.length_bytes]
  rfl

/-- The letters of a salt are decoded over whatever `csalt` held. -/
theorem decode_encodeBase64 (garbage csalt : Salt) (more : Bytes) :
    garbage.decode (encodeBase64 csalt.bytes ++ more) = csalt := by
  have hdecode := decodeBase64_encodeBase64 csalt.bytes more
  rw [csalt.length_bytes] at hdecode
  obtain ⟨bytes, hbytes⟩ := csalt
  simp only [Salt.decode, Salt.mk.injEq] at hdecode ⊢
  rw [hdecode, hbytes, List.drop_eq_nil_of_le garbage.length_bytes.le, List.append_nil]

theorem readSetting_hashText (hminor : KnownMinor minor) (hmin : 4 ≤ logr) (hmax : logr ≤ 31)
    (h : hashText key minor logr csalt = some out) (more : Bytes) :
    ∃ text, readSetting (out ++ more) =
      some (some ⟨minor, logr, encodeBase64 csalt.bytes ++ text⟩) := by
  obtain ⟨digest, -, rfl⟩ := hashText_eq_some h
  have htext : 22 ≤ ((encodeBase64 csalt.bytes ++ (encodeBase64 digest ++ more) ++
      [0]).takeWhile (· ≠ 0)).length := by
    rw [List.append_assoc, takeWhile_encodeBase64, List.length_append,
      length_encodeBase64_salt]
    omega
  refine ⟨encodeBase64 digest ++ more ++ [0], ?_⟩
  rw [List.append_assoc, List.append_assoc, readSetting_settingHeader hminor hmin hmax htext]
  simp

/-- Hashing with a hash for a salt uses the salt the hash was made with. -/
theorem nodeBcrypt_hashText (hminor : KnownMinor minor) (hmin : 4 ≤ logr) (hmax : logr ≤ 31)
    (h : hashText key minor logr csalt = some out) (key' more : Bytes) :
    nodeBcrypt key' garbage (out ++ more) = hashText key' minor logr csalt := by
  obtain ⟨text, htext⟩ := readSetting_hashText hminor hmin hmax h more
  rw [nodeBcrypt, htext, Option.bind_some]
  dsimp only
  rw [decode_encodeBase64]

theorem nodeBcrypt_eq_some {salt : Bytes} (h : nodeBcrypt key garbage salt = some out) :
    out = errorText ∨ ∃ minor logr csalt, KnownMinor minor ∧ 4 ≤ logr ∧ logr ≤ 31 ∧
      hashText key minor logr csalt = some out := by
  obtain ⟨setting, hsetting, h⟩ := Option.bind_eq_some_iff.mp h
  cases setting with
  | none => exact Or.inl (Option.some.inj h).symm
  | some setting =>
      obtain ⟨hminor, hmin, hmax⟩ := readSetting_some hsetting
      exact Or.inr ⟨_, _, _, hminor, hmin, hmax, h⟩

end

/-! ## The part of a password that counts -/

section

variable {p q : Bytes} {minor : UInt8} {logr n : ℕ} {csalt : Salt}

theorem setUp_congr {key key' : KeyBytes} (h : ∀ n < 72, key.byteAt n = key'.byteAt n)
    (logr : ℕ) (csalt : KeyBytes) : setUp logr csalt key = setUp logr csalt key' := by
  simp only [setUp, blowfishExpandstate_congr h, blowfishExpand0state_congr h]

theorem hashText_congr
    (h : ∀ n < 72, (passwordKey minor p).byteAt n = (passwordKey minor q).byteAt n) :
    hashText p minor logr csalt = hashText q minor logr csalt := by
  rw [hashText, hashText, setUp_congr h]

/-- With minor version `b` the password is cut to 72 bytes, and its NUL is one of the bytes. -/
theorem byteAt_passwordKey_b (hn : n < 72) :
    (passwordKey 98 p).byteAt n = cycleAt (p.take 72 ++ [0]) (concat_ne_nil _ 0) n := by
  have hdatabytes : max 1 (passwordKey 98 p).databytes = min p.length 72 + 1 :=
    Nat.max_eq_right (Nat.le_add_left ..)
  by_cases hlong : p.length ≤ 72
  · have hperiod : (passwordKey 98 p).period = p.take 72 ++ [0] := by
      rw [KeyBytes.period, hdatabytes, List.take_of_length_le hlong, Nat.min_eq_left hlong]
      exact List.take_of_length_le (by simp [passwordKey])
    simp only [KeyBytes.byteAt, hperiod]
  · have hperiod : (passwordKey 98 p).period = p.take 73 := by
      rw [KeyBytes.period, hdatabytes, Nat.min_eq_right (by omega)]
      exact List.take_append_of_le_length (by omega)
    have htake : n < (p.take 72).length := by
      rw [List.length_take]
      omega
    have htake' : n < (p.take 73).length := by
      rw [List.length_take]
      omega
    simp only [KeyBytes.byteAt, hperiod]
    rw [cycleAt_concat_of_lt htake, cycleAt_of_lt _ htake', List.getElem_take,
      List.getElem_take]

/-- With minor version `a` the length is counted in a byte: where it wraps to zero only the
first byte of the password is read. -/
theorem byteAt_passwordKey_a_wrap (hwrap : p.length % 256 = 255) (hne : p ≠ []) :
    (passwordKey 97 p).byteAt n = p.head hne := by
  have hzero : keyLength 97 p.length = 0 := by
    rw [keyLength, if_pos (by decide), if_pos (by decide)]
    omega
  have hperiod : (passwordKey 97 p).period = [p.head hne] := by
    rw [KeyBytes.period, passwordKey]
    dsimp only
    rw [hzero]
    cases p with
    | nil => exact absurd rfl hne
    | cons byte p => rfl
  have hmem : (passwordKey 97 p).byteAt n ∈ (passwordKey 97 p).period := cycleAt_mem _
  rwa [hperiod, List.mem_singleton] at hmem

/-- Without a minor version the password's NUL is not read. -/
theorem byteAt_passwordKey_zero (hne : p ≠ []) (hshort : p.length < 256) :
    (passwordKey 0 p).byteAt n = cycleAt p hne n := by
  have hlength : keyLength 0 p.length = p.length := by
    rw [keyLength, if_pos (by decide), if_neg (by decide)]
    omega
  have hpos : 0 < p.length := List.length_pos_iff.mpr hne
  have hperiod : (passwordKey 0 p).period = p := by
    rw [KeyBytes.period, passwordKey]
    dsimp only
    rw [hlength, Nat.max_eq_right hpos, List.take_append_of_le_length le_rfl, List.take_length]
  simp only [KeyBytes.byteAt, hperiod]

end

/-! ## Hashing and recognising -/

section

variable {p q hash salt out : Bytes} {garbage garbage' seed : Salt} {rounds : UInt32}

theorem length_settingHeader {minor : UInt8} (logr : ℕ) (hminor : minor ≠ 0) :
    (settingHeader minor logr).length = 7 := by
  rw [settingHeader, if_neg hminor]
  rfl

theorem zero_notMem_settingHeader {minor : UInt8} (logr : ℕ) :
    0 ∉ settingHeader minor logr := by
  have hdigits : ∀ n < 32, (0 : UInt8) ∉ twoDigits n := by
    intro n hn
    interval_cases n <;> decide
  have hmod := hdigits (logr % 32) (Nat.mod_lt logr (by decide))
  by_cases hminor : minor = 0
  · simp [settingHeader, hminor, hmod, dollar, bcryptVersion]
  · simp [settingHeader, hminor, hmod, dollar, bcryptVersion, Ne.symm hminor]

theorem length_hashText {key : Bytes} {minor : UInt8} {logr : ℕ} {csalt : Salt}
    (hminor : minor ≠ 0) (h : hashText key minor logr csalt = some out) :
    out.length = 60 ∧ 0 ∉ out := by
  obtain ⟨digest, hdigest, rfl⟩ := hashText_eq_some h
  have hletters : ∀ data, (0 : UInt8) ∉ encodeBase64 data :=
    fun data hmem => zero_notMem_base64Code (encodeBase64_letters data 0 hmem)
  constructor
  · rw [List.length_append, List.length_append, length_settingHeader logr hminor,
      length_encodeBase64_salt, length_encodeBase64, hdigest]
  · simp only [List.mem_append, not_or]
    exact ⟨⟨zero_notMem_settingHeader logr, hletters _⟩, hletters _⟩

theorem inBuffer_eq_self (h : out.length = 60) : inBuffer out = out := by
  rw [inBuffer, List.take_append_of_le_length h.ge, List.take_of_length_le h.le]

/-- The salt of `bcrypt_gensalt` is accepted, with the rounds cut to what is allowed. -/
theorem readSetting_bcryptGensalt (logRounds : UInt8) (seed : Salt) :
    ∃ text, readSetting (bcryptGensalt 98 logRounds seed) =
      some (some ⟨98, max 4 (min 31 logRounds.toNat), encodeBase64 seed.bytes ++ text⟩) := by
  have hclamp : (if logRounds < 4 then 4 else if 31 < logRounds then 31 else logRounds).toNat =
      max 4 (min 31 logRounds.toNat) := by
    split_ifs with hlow hhigh
    · have hlow' : logRounds.toNat < 4 := hlow
      change 4 = _
      omega
    · have hhigh' : 31 < logRounds.toNat := hhigh
      change 31 = _
      omega
    · have hlow' : ¬logRounds.toNat < 4 := hlow
      have hhigh' : ¬31 < logRounds.toNat := hhigh
      omega
  have htext : 22 ≤ ((encodeBase64 seed.bytes ++ [0]).takeWhile (· ≠ 0)).length := by
    rw [takeWhile_encodeBase64, List.length_append, length_encodeBase64_salt]
    omega
  have hread := @readSetting_settingHeader 98 (max 4 (min 31 logRounds.toNat))
    (encodeBase64 seed.bytes) (Or.inr (Or.inr rfl)) (by omega) (by omega) htext
  refine ⟨[0], ?_⟩
  rw [bcryptGensalt, hclamp, ← hread]
  rfl

theorem generateHash_eq (p : Bytes) (rounds : UInt32) (seed garbage : Salt) :
    generateHash p rounds seed garbage =
      hashText p 98 (max 4 (min 31 rounds.toUInt8.toNat)) seed := by
  obtain ⟨text, htext⟩ := readSetting_bcryptGensalt rounds.toUInt8 seed
  obtain ⟨out, hout⟩ := hashText_isSome p 98 (max 4 (min 31 rounds.toUInt8.toNat)) seed
  rw [generateHash, nodeBcrypt, htext, Option.bind_some]
  dsimp only
  rw [decode_encodeBase64, hout, Option.map_some,
    inBuffer_eq_self (length_hashText (by decide) hout).1]

theorem bcryptGetRounds_hashText {key : Bytes} {minor : UInt8} {logr : ℕ} {csalt : Salt}
    (hminor : KnownMinor minor) (hlogr : logr < 32)
    (h : hashText key minor logr csalt = some out) : bcryptGetRounds out = some ↑logr := by
  obtain ⟨digest, -, rfl⟩ := hashText_eq_some h
  have hatoi := @atoi_twoDigits logr (encodeBase64 csalt.bytes ++ encodeBase64 digest ++ [0]) hlogr
  rw [settingHeader, Nat.mod_eq_of_lt hlogr]
  rcases hminor with rfl | rfl | rfl <;> exact congrArg some hatoi

/-- A hash tells the rounds that were asked for, cut to what is allowed. -/
theorem bcryptGetRounds_generateHash (p : Bytes) (rounds : UInt32) (seed garbage : Salt) :
    (generateHash p rounds seed garbage).bind bcryptGetRounds =
      some ↑(max 4 (min 31 rounds.toUInt8.toNat)) := by
  obtain ⟨hash, hhash⟩ := hashText_isSome p 98 (max 4 (min 31 rounds.toUInt8.toNat)) seed
  rw [generateHash_eq, hhash, Option.bind_some]
  exact bcryptGetRounds_hashText (.inr (.inr rfl)) (by omega) hhash

theorem validatePassword_hashText {logr : ℕ} {csalt : Salt} (hmin : 4 ≤ logr)
    (hmax : logr ≤ 31) (h : hashText p 98 logr csalt = some hash) (q : Bytes) (garbage : Salt) :
    validatePassword q hash garbage =
      some (decide (hashText q 98 logr csalt = some hash)) := by
  have hnode : nodeBcrypt q garbage (hash ++ []) = hashText q 98 logr csalt :=
    nodeBcrypt_hashText (Or.inr (Or.inr rfl)) hmin hmax h q []
  rw [List.append_nil] at hnode
  obtain ⟨out, hout⟩ := hashText_isSome q 98 logr csalt
  rw [validatePassword, hnode, hout, Option.map_some,
    inBuffer_eq_self (length_hashText (by decide) hout).1]
  simp only [Option.some_inj, beq_eq_decide, decide_eq_decide]
  exact eq_comm

def zeroSalt : Salt := ⟨List.replicate bcryptMaxSalt 0, List.length_replicate⟩

/-- A hash recognises the password it was made of, whatever rounds were asked for and
whatever the random bytes and the memory behind `csalt` were. -/
theorem validatePassword_generateHash (p : Bytes) (rounds : UInt32)
    (seed garbage garbage' : Salt) :
    ∃ hash, generateHash p rounds seed garbage = some hash ∧ hash.length = 60 ∧ 0 ∉ hash ∧
      validatePassword p hash garbage' = some true := by
  obtain ⟨hash, hhash⟩ := hashText_isSome p 98 (max 4 (min 31 rounds.toUInt8.toNat)) seed
  have hlength := length_hashText (by decide) hhash
  refine ⟨hash, (generateHash_eq ..).trans hhash, hlength.1, hlength.2, ?_⟩
  rw [validatePassword_hashText (by omega) (by omega) hhash, decide_eq_true hhash]

/-- A hash that `node_bcrypt` wrote for a salt that it accepted is a salt for itself. -/
theorem nodeBcrypt_nodeBcrypt (h : nodeBcrypt p garbage salt = some out)
    (haccepted : out ≠ errorText) : nodeBcrypt p garbage' out = some out := by
  rcases nodeBcrypt_eq_some h with herror | ⟨minor, logr, csalt, hminor, hmin, hmax, hhash⟩
  · exact absurd herror haccepted
  · have hnode : nodeBcrypt p garbage' (out ++ []) = hashText p minor logr csalt :=
      nodeBcrypt_hashText hminor hmin hmax hhash p []
    rwa [List.append_nil, hhash] at hnode

theorem nodeBcrypt_nodeBcrypt_a : ∃ out, nodeBcrypt [97] zeroSalt
    (bcryptGensalt 98 4 zeroSalt) = some out ∧ nodeBcrypt [97] zeroSalt out = some out := by
  obtain ⟨out, hout⟩ := hashText_isSome [97] 98 4 zeroSalt
  obtain ⟨text, htext⟩ := readSetting_bcryptGensalt 4 zeroSalt
  have hnode : nodeBcrypt [97] zeroSalt (bcryptGensalt 98 4 zeroSalt) = some out := by
    rw [nodeBcrypt, htext, Option.bind_some]
    dsimp only
    rw [decode_encodeBase64]
    exact hout
  have haccepted : out ≠ errorText := by
    rintro rfl
    exact absurd (length_hashText (by decide) hout).1 (by decide)
  exact ⟨out, hnode, nodeBcrypt_nodeBcrypt hnode haccepted⟩

theorem inBuffer_eq_append (h : out.length ≤ 60) :
    inBuffer out = out ++ List.replicate (60 - out.length) 0 := by
  rw [inBuffer, List.take_append, List.take_of_length_le h, List.take_replicate,
    Nat.min_eq_left (by omega)]

theorem length_hashText_le {minor : UInt8} {logr : ℕ} {csalt : Salt}
    (h : hashText p minor logr csalt = some out) : out.length ≤ 60 := by
  by_cases hminor : minor = 0
  · obtain ⟨digest, hdigest, rfl⟩ := hashText_eq_some h
    have hheader : (settingHeader minor logr).length = 6 := by
      rw [hminor]
      rfl
    rw [List.length_append, List.length_append, hheader, length_encodeBase64_salt,
      length_encodeBase64, hdigest]
    decide
  · exact (length_hashText hminor h).1.le

/-- The string that is left where a salt is refused is itself refused for a salt. -/
theorem nodeBcrypt_inBuffer_errorText :
    nodeBcrypt p garbage (inBuffer errorText) = some errorText := by
  have hread : readSetting (inBuffer errorText) = some none := rfl
  rw [nodeBcrypt, hread]
  rfl

/-- A string recognises a password exactly when it is what is left where a salt is refused,
or a hash of the password. -/
theorem validatePassword_eq_true_iff :
    validatePassword p hash garbage = some true ↔
      hash = inBuffer errorText ∨
        ∃ minor logr csalt out, KnownMinor minor ∧ 4 ≤ logr ∧ logr ≤ 31 ∧
          hashText p minor logr csalt = some out ∧ hash = inBuffer out := by
  constructor
  · intro h
    obtain ⟨text, htext, heq⟩ := Option.map_eq_some_iff.mp h
    obtain rfl : hash = inBuffer text := by simpa using heq
    rcases nodeBcrypt_eq_some htext with
      rfl | ⟨minor, logr, csalt, hminor, hmin, hmax, hhash⟩
    · exact .inl rfl
    · exact .inr ⟨minor, logr, csalt, text, hminor, hmin, hmax, hhash, rfl⟩
  · rintro (rfl | ⟨minor, logr, csalt, out, hminor, hmin, hmax, hhash, rfl⟩)
    · rw [validatePassword, nodeBcrypt_inBuffer_errorText, Option.map_some, beq_self_eq_true]
    · have hnode : nodeBcrypt p garbage (inBuffer out) = some out := by
        rw [inBuffer_eq_append (length_hashText_le hhash),
          nodeBcrypt_hashText hminor hmin hmax hhash, hhash]
      rw [validatePassword, hnode, Option.map_some, beq_self_eq_true]

theorem readSetting_minor {setting : Setting} (h : readSetting salt = some (some setting)) :
    (setting.minor = 0 ∧ salt[2]? = some dollar) ∨ salt[2]? = some setting.minor := by
  unfold readSetting at h
  split at h
  · rename_i version separator rest hsalt
    have hget : separator ≠ 0 → salt[2]? = some separator := by
      intro hne
      have hthird : (salt ++ [0])[2]? = some separator := by
        rw [← List.getElem?_drop (i := 1) (j := 1), hsalt]
        rfl
      rw [List.getElem?_append] at hthird
      split_ifs at hthird with hlt
      · exact hthird
      · exfalso
        rcases hindex : 2 - salt.length with - | index
        · rw [hindex] at hthird
          exact hne (Option.some.inj hthird).symm
        · rw [hindex] at hthird
          simp at hthird
    split_ifs at h with hversion hseparator hknown
    · simp at h
    · left
      exact ⟨(readRounds_some h).1, hseparator ▸ hget (by rw [hseparator]; decide)⟩
    · right
      rw [(readRounds_some h).1]
      exact hget (by rcases hknown with rfl | rfl <;> decide)
    · simp at h
  · split_ifs at h
    simp at h
  · simp at h

theorem nodeBcrypt_congr {minor : UInt8}
    (hminor : ∀ setting, readSetting salt = some (some setting) → setting.minor = minor)
    (hsame : ∀ n < 72, (passwordKey minor p).byteAt n = (passwordKey minor q).byteAt n) :
    nodeBcrypt p garbage salt = nodeBcrypt q garbage salt := by
  rw [nodeBcrypt, nodeBcrypt]
  apply Option.bind_congr
  intro found hfound
  cases found with
  | none => dsimp only
  | some setting =>
      dsimp only
      rw [hminor setting hfound, hashText_congr hsame]

theorem minor_of_getElem? {minor : UInt8} (hthird : salt[2]? = some minor)
    (hne : minor ≠ dollar) (setting : Setting)
    (h : readSetting salt = some (some setting)) : setting.minor = minor := by
  rcases readSetting_minor h with ⟨-, hdollar⟩ | hminor
  · exact absurd (Option.some.inj (hthird.symm.trans hdollar)) hne
  · exact Option.some.inj (hminor.symm.trans hthird)

theorem minor_of_dollar (hthird : salt[2]? = some dollar) (setting : Setting)
    (h : readSetting salt = some (some setting)) : setting.minor = 0 := by
  rcases readSetting_minor h with ⟨hzero, -⟩ | hminor
  · exact hzero
  · have hknown := (readSetting_some h).1
    rw [KnownMinor, Option.some.inj (hminor.symm.trans hthird)] at hknown
    exact absurd hknown (by decide)

theorem validatePassword_congr (hb : hash[2]? = some 98)
    (hsame : ∀ n < 72, (passwordKey 98 p).byteAt n = (passwordKey 98 q).byteAt n) :
    validatePassword p hash garbage = validatePassword q hash garbage := by
  rw [validatePassword, validatePassword,
    nodeBcrypt_congr (minor_of_getElem? hb (by decide)) hsame]

/-- Against a hash of minor version `b`, only the first 72 bytes of a password count. -/
theorem validatePassword_take (hb : hash[2]? = some 98) (hsame : p.take 72 = q.take 72) :
    validatePassword p hash garbage = validatePassword q hash garbage := by
  apply validatePassword_congr hb
  intro n hn
  simp only [byteAt_passwordKey_b hn, hsame]

theorem getElem?_hashText {logr : ℕ} {csalt : Salt}
    (h : hashText p 98 logr csalt = some hash) : hash[2]? = some 98 := by
  obtain ⟨digest, -, rfl⟩ := hashText_eq_some h
  rfl

theorem validatePassword_take_72 : ∃ hash,
    hashText (List.replicate 72 97) 98 4 zeroSalt = some hash ∧
      validatePassword (List.replicate 73 97) hash zeroSalt = some true := by
  obtain ⟨hash, hhash⟩ := hashText_isSome (List.replicate 72 97) 98 4 zeroSalt
  have hsame : (List.replicate 72 (97 : UInt8)).take 72 = (List.replicate 73 97).take 72 := rfl
  refine ⟨hash, hhash, ?_⟩
  rw [← validatePassword_take (getElem?_hashText hhash) hsame,
    validatePassword_hashText (by decide) (by decide) hhash, decide_eq_true hhash]

/-- Against a hash of minor version `b`, a password and its repetitions with a NUL in between
are as good as each other, as long as they are short. -/
theorem validatePassword_repeated (hb : hash[2]? = some 98) {k : ℕ}
    (hshort : (k + 1) * (p.length + 1) ≤ 73) :
    validatePassword ((List.replicate k (p ++ [0])).flatten ++ p) hash garbage =
      validatePassword p hash garbage := by
  have hconcat : (List.replicate k (p ++ [0])).flatten ++ p ++ [0] =
      (List.replicate (k + 1) (p ++ [0])).flatten := by
    rw [List.replicate_succ', List.flatten_append, List.append_assoc]
    simp
  have hlength : ((List.replicate k (p ++ [0])).flatten ++ p ++ [0]).length =
      (k + 1) * (p.length + 1) := by
    rw [hconcat]
    simp
  rw [List.length_append, List.length_singleton] at hlength
  have hp : p.length ≤ 72 := by
    have hle : p.length + 1 ≤ (k + 1) * (p.length + 1) :=
      Nat.le_mul_of_pos_left (p.length + 1) (Nat.succ_pos k)
    omega
  apply validatePassword_congr hb
  intro n hn
  rw [byteAt_passwordKey_b hn, byteAt_passwordKey_b hn]
  have htake : ((List.replicate k (p ++ [0])).flatten ++ p).take 72 ++ [0] =
      (List.replicate (k + 1) (p ++ [0])).flatten := by
    rw [List.take_of_length_le (by omega), hconcat]
  simp only [htake, List.take_of_length_le hp]
  exact cycleAt_flatten_replicate _ _

theorem validatePassword_repeated_a : ∃ hash, hashText [97] 98 4 zeroSalt = some hash ∧
    validatePassword [97, 0, 97] hash zeroSalt = some true := by
  obtain ⟨hash, hhash⟩ := hashText_isSome [97] 98 4 zeroSalt
  have hrepeated : validatePassword [97, 0, 97] hash zeroSalt =
      validatePassword [97] hash zeroSalt :=
    @validatePassword_repeated [97] _ _ (getElem?_hashText hhash) 1 (by decide)
  refine ⟨hash, hhash, ?_⟩
  rw [hrepeated, validatePassword_hashText (by decide) (by decide) hhash, decide_eq_true hhash]

/-- With a salt of minor version `a`, passwords whose length is one short of a multiple of 256
have the same hash as soon as they begin with the same byte. -/
theorem nodeBcrypt_wrap (ha : salt[2]? = some 97) (hp : p.length % 256 = 255)
    (hq : q.length % 256 = 255) (hhead : p.head? = q.head?) :
    nodeBcrypt p garbage salt = nodeBcrypt q garbage salt := by
  have hpne : p ≠ [] := List.ne_nil_of_length_pos (by omega)
  have hqne : q ≠ [] := List.ne_nil_of_length_pos (by omega)
  rw [List.head?_eq_some_head hpne, List.head?_eq_some_head hqne, Option.some_inj] at hhead
  apply nodeBcrypt_congr (minor_of_getElem? ha (by decide))
  intro n _
  rw [byteAt_passwordKey_a_wrap hp hpne, byteAt_passwordKey_a_wrap hq hqne, hhead]

theorem nodeBcrypt_wrap_255 :
    nodeBcrypt (List.replicate 255 97) zeroSalt (encodeSalt zeroSalt 97 4) =
      nodeBcrypt (List.replicate 511 97) zeroSalt (encodeSalt zeroSalt 97 4) :=
  nodeBcrypt_wrap rfl (by rw [List.length_replicate]) (by rw [List.length_replicate])
    (by rw [List.head?_replicate, List.head?_replicate, if_neg (by decide), if_neg (by decide)])

/-- With a salt that has no minor version, a password and its repetitions have the same
hash, as long as they are short. -/
theorem nodeBcrypt_repeated (hnone : salt[2]? = some dollar) (hne : p ≠ []) {k : ℕ}
    (hshort : (k + 1) * p.length < 256) :
    nodeBcrypt (List.replicate (k + 1) p).flatten garbage salt = nodeBcrypt p garbage salt := by
  have hpos : 0 < p.length := List.length_pos_iff.mpr hne
  have hlength : (List.replicate (k + 1) p).flatten.length = (k + 1) * p.length := by simp
  have hle : p.length ≤ (k + 1) * p.length := Nat.le_mul_of_pos_left p.length (Nat.succ_pos k)
  have hne' : (List.replicate (k + 1) p).flatten ≠ [] :=
    List.ne_nil_of_length_pos (by omega)
  apply nodeBcrypt_congr (minor_of_dollar hnone)
  intro n _
  rw [byteAt_passwordKey_zero hne' (by omega), byteAt_passwordKey_zero hne (by omega),
    cycleAt_flatten_replicate hne hne']

theorem nodeBcrypt_repeated_ab :
    nodeBcrypt [97, 98, 97, 98] zeroSalt (settingHeader 0 4 ++ List.replicate 22 46) =
      nodeBcrypt [97, 98] zeroSalt (settingHeader 0 4 ++ List.replicate 22 46) :=
  @nodeBcrypt_repeated [97, 98] _ _ rfl (by decide) 1 (by decide)

end

end TChat.Bcrypt
