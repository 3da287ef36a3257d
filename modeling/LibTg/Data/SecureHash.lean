import LibTg.Data.BlockHash
import Mathlib.Data.Nat.NthRoot.Defs
import Mathlib.Data.Nat.Sqrt

/-!
# The secure hash standard

SHA-1, SHA-256 and the keyed hash HMAC as the standards define them: a message schedule of words
that are computed from the sixteen before them, a round function for each word, and the digest
written with the most significant byte first. The constants are roots of small primes, not tables.
The last section is about the sixteen words that an implementation keeps of the schedule.
-/

namespace LibTg.SecureHash

/-! ## Words -/

/-- The word that bytes spell, the most significant first. -/
def beWord (bytes : Bytes) : UInt32 := UInt32.ofNat (beNat bytes)

/-- The bytes of a word, the most significant first. -/
def wordBytes (word : UInt32) : Bytes := beBytes 4 word.toNat

def blockWord (block : Bytes) (index : ℕ) : UInt32 := beWord ((block.drop (4 * index)).take 4)

def rotateRight (word : UInt32) (count : ℕ) : UInt32 := ⟨word.toBitVec.rotateRight count⟩

def rotateLeft (word : UInt32) (count : ℕ) : UInt32 := ⟨word.toBitVec.rotateLeft count⟩

/-- Bit by bit the second or the third word, as the first one says. -/
def choose (x y z : UInt32) : UInt32 := (x &&& y) ^^^ (~~~x &&& z)

/-- The exclusive or of three words. -/
def parity (x y z : UInt32) : UInt32 := x ^^^ y ^^^ z

/-- Bit by bit what two of the three words agree on. -/
def majority (x y z : UInt32) : UInt32 := (x &&& y) ^^^ (x &&& z) ^^^ (y &&& z)

/-- The words of a message schedule: sixteen from the block, and then every word mixed from the
sixteen before it, which are numbered backwards. -/
def schedule (mix : (ℕ → UInt32) → UInt32) (block : Bytes) (time : ℕ) : UInt32 :=
  if time < 16 then blockWord block time
  else mix fun back ↦ if 0 < back ∧ back ≤ time then schedule mix block (time - back) else 0
termination_by time
decreasing_by omega

/-- A byte as two hexadecimal digits. -/
def hexByte (byte : UInt8) : List Char :=
  [Nat.digitChar (byte.toNat / 16), Nat.digitChar (byte.toNat % 16)]

/-! ## SHA-256 -/

/-- The eight words of a chaining value, which are also the working variables. -/
structure Words8 where
  a : UInt32
  b : UInt32
  c : UInt32
  d : UInt32
  e : UInt32
  f : UInt32
  g : UInt32
  h : UInt32
  deriving DecidableEq, Repr

def Words8.add (x y : Words8) : Words8 :=
  ⟨x.a + y.a, x.b + y.b, x.c + y.c, x.d + y.d, x.e + y.e, x.f + y.f, x.g + y.g, x.h + y.h⟩

def Words8.toBytes (x : Words8) : Bytes :=
  wordBytes x.a ++ wordBytes x.b ++ wordBytes x.c ++ wordBytes x.d ++ wordBytes x.e ++
    wordBytes x.f ++ wordBytes x.g ++ wordBytes x.h

/-- The first sixty-four primes. -/
def primes64 : List ℕ :=
  [2, 3, 5, 7, 11, 13, 17, 19, 23, 29, 31, 37, 41, 43, 47, 53, 59, 61, 67, 71, 73, 79, 83, 89, 97,
    101, 103, 107, 109, 113, 127, 131, 137, 139, 149, 151, 157, 163, 167, 173, 179, 181, 191, 193,
    197, 199, 211, 223, 227, 229, 233, 239, 241, 251, 257, 263, 269, 271, 277, 281, 283, 293, 307,
    311]

/-- The first 32 bits of the fraction of a prime's cube root. -/
def cubeFraction (prime : ℕ) : UInt32 := UInt32.ofNat (Nat.nthRoot 3 (prime * 2 ^ 96))

/-- The first 32 bits of the fraction of a prime's square root. -/
def squareFraction (prime : ℕ) : UInt32 := UInt32.ofNat (Nat.sqrt (prime * 2 ^ 64))

def sha256Start : Words8 :=
  ⟨squareFraction 2, squareFraction 3, squareFraction 5, squareFraction 7, squareFraction 11,
    squareFraction 13, squareFraction 17, squareFraction 19⟩

def sha256Mix (before : ℕ → UInt32) : UInt32 :=
  (rotateRight (before 2) 17 ^^^ rotateRight (before 2) 19 ^^^ (before 2 >>> 10)) + before 7 +
    (rotateRight (before 15) 7 ^^^ rotateRight (before 15) 18 ^^^ (before 15 >>> 3)) + before 16

def sha256Round (constant word : UInt32) (x : Words8) : Words8 :=
  let first := x.h + (rotateRight x.e 6 ^^^ rotateRight x.e 11 ^^^ rotateRight x.e 25) +
    choose x.e x.f x.g + constant + word
  let second := (rotateRight x.a 2 ^^^ rotateRight x.a 13 ^^^ rotateRight x.a 22) +
    majority x.a x.b x.c
  ⟨first + second, x.a, x.b, x.c, x.d + first, x.e, x.f, x.g⟩

def sha256Compress (chain : Words8) (block : Bytes) : Words8 :=
  chain.add (loop (fun time ↦ sha256Round (cubeFraction (primes64.getD time 0))
    (schedule sha256Mix block time)) 64 chain)

/-- The SHA-256 digest of a message. -/
def sha256 (message : Bytes) : Bytes :=
  (digest sha256Compress 64 8 sha256Start message).toBytes

/-! ## SHA-1 -/

/-- The five words of a chaining value, which are also the working variables. -/
structure Words5 where
  a : UInt32
  b : UInt32
  c : UInt32
  d : UInt32
  e : UInt32
  deriving DecidableEq, Repr

def Words5.add (x y : Words5) : Words5 := ⟨x.a + y.a, x.b + y.b, x.c + y.c, x.d + y.d, x.e + y.e⟩

def Words5.toBytes (x : Words5) : Bytes :=
  wordBytes x.a ++ wordBytes x.b ++ wordBytes x.c ++ wordBytes x.d ++ wordBytes x.e

def sha1Start : Words5 := ⟨0x67452301, 0xefcdab89, 0x98badcfe, 0x10325476, 0xc3d2e1f0⟩

def sha1Mix (before : ℕ → UInt32) : UInt32 :=
  rotateLeft (before 3 ^^^ before 8 ^^^ before 14 ^^^ before 16) 1

/-- A quarter of the square root of a small number, to thirty bits. -/
def sha1Constant (time : ℕ) : UInt32 :=
  UInt32.ofNat (Nat.sqrt ((if time < 20 then 2 else if time < 40 then 3 else if time < 60 then 5
    else 10) * 2 ^ 60))

def sha1Function (time : ℕ) : UInt32 → UInt32 → UInt32 → UInt32 :=
  if time < 20 then choose else if time < 40 then parity else if time < 60 then majority else parity

def sha1Round (time : ℕ) (word : UInt32) (x : Words5) : Words5 :=
  ⟨rotateLeft x.a 5 + sha1Function time x.b x.c x.d + x.e + sha1Constant time + word, x.a,
    rotateLeft x.b 30, x.c, x.d⟩

def sha1Compress (chain : Words5) (block : Bytes) : Words5 :=
  chain.add (loop (fun time ↦ sha1Round time (schedule sha1Mix block time)) 80 chain)

/-- The SHA-1 digest of a message. -/
def sha1 (message : Bytes) : Bytes := (digest sha1Compress 64 8 sha1Start message).toBytes

/-! ## Keyed hashes -/

/-- A key as long as a block: a longer key is hashed first. -/
def hmacKey (hash : Bytes → Bytes) (width : ℕ) (key : Bytes) : Bytes :=
  let short := if width < key.length then hash key else key
  short ++ List.replicate (width - short.length) 0

/-- HMAC of a message under a key, for a hash function over blocks of `width` bytes. -/
def hmac (hash : Bytes → Bytes) (width : ℕ) (key message : Bytes) : Bytes :=
  hash ((hmacKey hash width key).map (· ^^^ 0x5c) ++
    hash ((hmacKey hash width key).map (· ^^^ 0x36) ++ message))

/-! ## Bytes of words -/

theorem getElem_leBytes {width value index : ℕ} (hindex : index < (leBytes width value).length) :
    (leBytes width value)[index] = UInt8.ofNat (value / 256 ^ index) := by
  induction width generalizing value index with
  | zero => exact absurd hindex (Nat.not_lt_zero _)
  | succ width ih =>
    cases index with
    | zero => rw [Nat.pow_zero, Nat.div_one]; rfl
    | succ index =>
      rw [Nat.pow_succ', ← Nat.div_div_eq_div_mul]
      exact ih _

theorem beBytes_eq_map (width value : ℕ) :
    beBytes width value =
      (List.range width).map fun index ↦ UInt8.ofNat (value / 256 ^ (width - 1 - index)) := by
  apply List.ext_getElem
  · rw [length_beBytes, List.length_map, List.length_range]
  · intro index hindex _
    simp only [beBytes, List.getElem_reverse, getElem_leBytes, length_leBytes, List.getElem_map,
      List.getElem_range]

theorem schedule_of_lt {mix : (ℕ → UInt32) → UInt32} {block : Bytes} {time : ℕ}
    (htime : time < 16) : schedule mix block time = blockWord block time := by
  rw [schedule, if_pos htime]

theorem schedule_of_le {mix : (ℕ → UInt32) → UInt32} {block : Bytes} {time : ℕ}
    (htime : 16 ≤ time) :
    schedule mix block time = mix fun back ↦
      if 0 < back ∧ back ≤ time then schedule mix block (time - back) else 0 := by
  rw [schedule, if_neg (by omega)]

/-! ## The last sixteen words -/

/-- Sixteen words, which an index modulo sixteen finds. -/
abbrev Window := Vector UInt32 16

def Window.read (window : Window) (index : ℕ) : UInt32 :=
  have := Nat.mod_lt index (Nat.succ_pos 15)
  window[index % 16]

def Window.write (window : Window) (index : ℕ) (value : UInt32) : Window :=
  window.set (index % 16) value (Nat.mod_lt index (Nat.succ_pos 15))

theorem Window.read_congr (window : Window) {first second : ℕ} (h : first % 16 = second % 16) :
    window.read first = window.read second := by
  simp only [Window.read, h]

theorem Window.write_congr (window : Window) {first second : ℕ} (h : first % 16 = second % 16)
    (value : UInt32) : window.write first value = window.write second value := by
  simp only [Window.write, h]

theorem Window.read_write (window : Window) (first second : ℕ) (value : UInt32) :
    (window.write first value).read second =
      if second % 16 = first % 16 then value else window.read second := by
  simp only [Window.read, Window.write, Vector.getElem_set, eq_comm]

/-- The sixteen words before a time, each at its number modulo sixteen. -/
def Holds (words : ℕ → UInt32) (time : ℕ) (window : Window) : Prop :=
  ∀ index < time, time ≤ index + 16 → window.read index = words index

theorem holds_zero (words : ℕ → UInt32) (window : Window) : Holds words 0 window :=
  fun _ hlt ↦ absurd hlt (Nat.not_lt_zero _)

/-- The next word takes the place of the oldest. -/
theorem Holds.write {words : ℕ → UInt32} {window : Window} {time : ℕ}
    (h : Holds words time window) {value : UInt32} (hvalue : value = words time) :
    Holds words (time + 1) (window.write time value) := by
  intro index hlt hle
  rw [Window.read_write]
  by_cases heq : index = time
  · rw [heq, if_pos rfl, hvalue]
  · rw [if_neg (by omega), h index (by omega) (by omega)]

/-- Where an earlier word is found. -/
theorem Holds.read {words : ℕ → UInt32} {window : Window} {time : ℕ}
    (h : Holds words time window) (back index : ℕ) (hpos : 0 < back) (hback : back ≤ 16) (htime : back ≤ time)
    (hindex : index % 16 = (time - back) % 16) : window.read index = words (time - back) := by
  rw [window.read_congr hindex, h (time - back) (by omega) (by omega)]

end LibTg.SecureHash
