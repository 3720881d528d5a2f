import TChat.Bcrypt.Base64
import TChat.Bcrypt.KeySchedule
/-!
# Password hashes

`bcrypt/bcrypt.cpp`.  A `std::string` is a byte list, the NUL behind it is written where it
is read, and reading behind that NUL gives `none`.  What the array `csalt` holds before it is
written, and the bytes of `arc4random_buf`, are parameters.
-/

namespace TChat.Bcrypt

open TChat.Common

/-! ## Numbers in text -/

def isSpace (c : UInt8) : Bool := c = 32 ∨ (9 ≤ c ∧ c ≤ 13)

def isDigit (c : UInt8) : Bool := 48 ≤ c ∧ c ≤ 57

/-- The number that the digits at the start of a text spell. -/
def digitsValue (p : Bytes) : ℕ :=
  (p.takeWhile isDigit).foldl (fun n c => n * 10 + (c - 48).toNat) 0

def atoi (p : Bytes) : ℤ :=
  match p.dropWhile isSpace with
  | [] => 0
  | c :: p =>
      if c = 43 then digitsValue p
      else if c = 45 then -(digitsValue p)
      else digitsValue (c :: p)

/-- `snprintf` with `"%2.2u"`, for a number below 100. -/
def twoDigits (n : ℕ) : Bytes := [UInt8.ofNat (48 + n / 10), UInt8.ofNat (48 + n % 10)]

/-! ## Salts -/

def dollar : UInt8 := 36

def bcryptVersion : UInt8 := 50

def bcryptMaxSalt : ℕ := 16

def bcryptBlocks : ℕ := 6

def bcryptMinRounds : ℕ := 16

/-- What a salt is about: its minor version, the logarithm of the rounds, and the text
behind the third `'$'`. -/
structure Setting where
  minor : UInt8
  logr : ℕ
  text : Bytes

/-- `csalt`: the bytes of a salt. -/
structure Salt where
  bytes : Bytes
  length_bytes : bytes.length = bcryptMaxSalt

def encodeSalt (csalt : Salt) (minor : UInt8) (logr : ℕ) : Bytes :=
  [dollar, bcryptVersion, minor, dollar] ++ twoDigits (logr % 32) ++ [dollar] ++
    encodeBase64 csalt.bytes

def bcryptGensalt (minor logRounds : UInt8) (seed : Salt) : Bytes :=
  let logRounds := if logRounds < 4 then 4 else if 31 < logRounds then 31 else logRounds
  encodeSalt seed minor logRounds.toNat

/-- The part of `node_bcrypt` from the number of rounds on. -/
def readRounds (minor : UInt8) : Bytes → Option (Option Setting)
  | d1 :: d2 :: separator :: text =>
      let n := atoi (d1 :: d2 :: separator :: text)
      if separator ≠ dollar then some none
      else if 31 < n ∨ n < 0 then some none
      else if 2 ^ n.toNat < bcryptMinRounds then some none
      else if (text.takeWhile (· ≠ 0)).length * 3 / 4 < bcryptMaxSalt then some none
      else some (some ⟨minor, n.toNat, text⟩)
  | _ => none

/-- How `node_bcrypt` reads a salt.  The inner `none` stands for the answer `":"`. -/
def readSetting (salt : Bytes) : Option (Option Setting) :=
  match (salt ++ [0]).drop 1 with
  | version :: separator :: rest =>
      -- `char` is signed, so the bytes from 128 on are below the version
      if bcryptVersion < version ∧ version < 128 then some none
      else if separator = dollar then readRounds 0 rest
      else if separator = 97 ∨ separator = 98 then readRounds separator (rest.drop 1)
      else some none
  | [version] => if bcryptVersion < version ∧ version < 128 then some none else none
  | [] => none

/-! ## Hashes -/

def keyLength (minor : UInt8) (size : ℕ) : ℕ :=
  if minor ≤ 97 then (size + if 97 ≤ minor then 1 else 0) % 256
  else min size 72 + 1

theorem keyLength_le (minor : UInt8) (size : ℕ) : keyLength minor size ≤ size + 1 := by
  unfold keyLength
  split_ifs <;> omega

/-- The password as the key schedule reads it, with the NUL of `c_str`. -/
def passwordKey (minor : UInt8) (key : Bytes) : KeyBytes where
  data := key ++ [0]
  databytes := keyLength minor key.length
  nonempty := by simp
  fits := by
    rw [List.length_append]
    exact keyLength_le minor key.length

def Salt.key (csalt : Salt) : KeyBytes where
  data := csalt.bytes
  databytes := bcryptMaxSalt
  nonempty := by
    rintro h
    exact absurd csalt.length_bytes (by rw [h]; decide)
  fits := csalt.length_bytes.ge

def Salt.decode (csalt : Salt) (text : Bytes) : Salt where
  bytes :=
    let decoded := decodeBase64 bcryptMaxSalt text
    decoded ++ csalt.bytes.drop decoded.length
  length_bytes := by
    have hle := length_decodeBase64_le bcryptMaxSalt text
    rw [List.length_append, List.length_drop, csalt.length_bytes]
    omega

def ciphertext : KeyBytes where
  data := [79, 114, 112, 104, 101, 97, 110, 66, 101, 104, 111, 108, 100, 101, 114, 83, 99,
    114, 121, 68, 111, 117, 98, 116, 0]
  databytes := 4 * bcryptBlocks
  nonempty := by simp
  fits := by decide

def streamWords (data : KeyBytes) : ℕ → ℕ → List UInt32
  | 0, _ => []
  | n + 1, j =>
      let (word, j) := blowfishStream2word data j
      word :: streamWords data n j

/-- The bytes of a word, as the last loop of `node_bcrypt` takes it apart. -/
def wordBytes (word : UInt32) : Bytes :=
  [(word >>> 8 >>> 8 >>> 8).toUInt8, (word >>> 8 >>> 8).toUInt8, (word >>> 8).toUInt8,
    word.toUInt8]

/-- The state of the cipher when the text is encrypted. -/
def setUp (logr : ℕ) (csalt key : KeyBytes) : BlfCtx :=
  let state := blowfishExpandstate blowfishInitstate csalt key
  (fun state => blowfishExpand0state (blowfishExpand0state state key) csalt)^[2 ^ logr] state

/-- `ciphertext` at the end. -/
def encryptText (state : BlfCtx) : Option Bytes :=
  let cdata := streamWords ciphertext bcryptBlocks 0
  ((fun cdata => cdata.bind fun cdata => blfEnc state cdata (bcryptBlocks / 2))^[64]
    (some cdata)).map fun cdata => cdata.flatMap wordBytes

/-- What `node_bcrypt` writes in front of the letters. -/
def settingHeader (minor : UInt8) (logr : ℕ) : Bytes :=
  [dollar, bcryptVersion] ++ (if minor = 0 then [] else [minor]) ++ [dollar] ++
    twoDigits (logr % 32) ++ [dollar]

/-- What `node_bcrypt` writes when it accepts the salt. -/
def hashText (key : Bytes) (minor : UInt8) (logr : ℕ) (csalt : Salt) : Option Bytes :=
  (encryptText (setUp logr csalt.key (passwordKey minor key))).map fun text =>
    settingHeader minor logr ++ encodeBase64 csalt.bytes ++
      encodeBase64 (text.take (4 * bcryptBlocks - 1))

/-- The answer `":"`. -/
def errorText : Bytes := [58]

/-- `node_bcrypt`: the string that it writes. -/
def nodeBcrypt (key : Bytes) (garbage : Salt) (salt : Bytes) : Option Bytes :=
  (readSetting salt).bind fun
    | none => some errorText
    | some setting => hashText key setting.minor setting.logr (garbage.decode setting.text)

/-- A string of 61 NULs, after `text` and its NUL were written over its start and it was cut
to 60. -/
def inBuffer (text : Bytes) : Bytes := (text ++ List.replicate 61 0).take 60

def generateHash (password : Bytes) (rounds : UInt32) (seed garbage : Salt) : Option Bytes :=
  (nodeBcrypt password garbage (bcryptGensalt 98 rounds.toUInt8 seed)).map inBuffer

def validatePassword (password hash : Bytes) (garbage : Salt) : Option Bool :=
  (nodeBcrypt password garbage hash).map fun text => hash == inBuffer text

/-- `bcrypt_get_rounds`, with what `atoi` returns. -/
def bcryptGetRounds (hash : Bytes) : Option ℤ :=
  match hash ++ [0] with
  | first :: rest =>
      if first ≠ dollar then some 0
      else
        match rest with
        | version :: rest =>
            if version = 0 then some 0
            else
              match rest with
              | minor :: rest =>
                  match if minor ≠ 0 ∧ minor ≠ dollar then rest else minor :: rest with
                  | separator :: rest => if separator ≠ dollar then some 0 else some (atoi rest)
                  | [] => none
              | [] => none
        | [] => none
  | [] => none

end TChat.Bcrypt
