import LibTg.Data.SecureHash
import Mathlib.Data.Nat.Bitwise

/-!
# The library's own SHA-256

The streaming SHA-256 of `crypto/sha256.c`. It keeps sixteen words of the message schedule and
renames the working variables every four rounds in place of moving them. Whatever pieces a message
is appended in, the digest is the standard's.
-/

namespace LibTg.Crypto

open SecureHash

/-! ## The functions of the source -/

def rotr (x n : UInt32) : UInt32 := (x >>> n) ||| (x <<< (32 - n))

def step1 (e f g : UInt32) : UInt32 :=
  (rotr e 6 ^^^ rotr e 11 ^^^ rotr e 25) + ((e &&& f) ^^^ (~~~e &&& g))

def step2 (a b c : UInt32) : UInt32 :=
  (rotr a 2 ^^^ rotr a 13 ^^^ rotr a 22) + ((a &&& b) ^^^ (a &&& c) ^^^ (b &&& c))

/-- The word at the front of the bytes. -/
def loadWord : Bytes → UInt32
  | byte0 :: byte1 :: byte2 :: byte3 :: _ =>
    (byte0.toUInt32 <<< 24) ||| (byte1.toUInt32 <<< 16) ||| (byte2.toUInt32 <<< 8) |||
      byte3.toUInt32
  | _ => 0

/-- The next sixteen words of the schedule, in the place of the last sixteen. -/
def updateW (i : ℕ) (buffer : Bytes) (w : Window) : Window :=
  loop (fun j w ↦
    if i < 16 then w.write j (loadWord (buffer.drop (4 * j)))
    else
      let a := w.read (j + 1)
      let b := w.read (j + 14)
      let s0 := rotr a 7 ^^^ rotr a 18 ^^^ (a >>> 3)
      let s1 := rotr b 17 ^^^ rotr b 19 ^^^ (b >>> 10)
      w.write j (w.read j + (w.read (j + 9) + s0 + s1))) 16 w

/-- The round constants. -/
def sha256K : List UInt32 :=
  [0x428a2f98, 0x71374491, 0xb5c0fbcf, 0xe9b5dba5, 0x3956c25b, 0x59f111f1, 0x923f82a4, 0xab1c5ed5,
    0xd807aa98, 0x12835b01, 0x243185be, 0x550c7dc3, 0x72be5d74, 0x80deb1fe, 0x9bdc06a7, 0xc19bf174,
    0xe49b69c1, 0xefbe4786, 0x0fc19dc6, 0x240ca1cc, 0x2de92c6f, 0x4a7484aa, 0x5cb0a9dc, 0x76f988da,
    0x983e5152, 0xa831c66d, 0xb00327c8, 0xbf597fc7, 0xc6e00bf3, 0xd5a79147, 0x06ca6351, 0x14292967,
    0x27b70a85, 0x2e1b2138, 0x4d2c6dfc, 0x53380d13, 0x650a7354, 0x766a0abb, 0x81c2c92e, 0x92722c85,
    0xa2bfe8a1, 0xa81a664b, 0xc24b8b70, 0xc76c51a3, 0xd192e819, 0xd6990624, 0xf40e3585, 0x106aa070,
    0x19a4c116, 0x1e376c08, 0x2748774c, 0x34b0bcb5, 0x391c0cb3, 0x4ed8aa4a, 0x5b9cca4f, 0x682e6ff3,
    0x748f82ee, 0x78a5636f, 0x84c87814, 0x8cc70208, 0x90befffa, 0xa4506ceb, 0xbef9a3f7, 0xc67178f2]

/-- One pass of the inner loop: four rounds, each with the variables renamed by one place. -/
def fourRounds (i j : ℕ) (w : Window) (x : Words8) : Words8 :=
  let temp := x.h + step1 x.e x.f x.g + sha256K.getD (i + j + 0) 0 + w.read (j + 0)
  let h := temp + x.d
  let d := temp + step2 x.a x.b x.c
  let temp := x.g + step1 h x.e x.f + sha256K.getD (i + j + 1) 0 + w.read (j + 1)
  let g := temp + x.c
  let c := temp + step2 d x.a x.b
  let temp := x.f + step1 g h x.e + sha256K.getD (i + j + 2) 0 + w.read (j + 2)
  let f := temp + x.b
  let b := temp + step2 c d x.a
  let temp := x.e + step1 f g h + sha256K.getD (i + j + 3) 0 + w.read (j + 3)
  let e := temp + x.a
  let a := temp + step2 b c d
  ⟨a, b, c, d, e, f, g, h⟩

/-- `struct sha256`: fewer than sixty-four bytes are in the buffer between two calls. -/
structure Sha256 where
  state : Words8
  buffer : Vector UInt8 64
  nBits : UInt64
  bufferCounter : Fin 64

/-- One pass of the outer loop: sixteen words and their rounds. -/
def sixteenRounds (buffer : Bytes) (pass : ℕ) (loc : Window × Words8) : Window × Words8 :=
  let w := updateW (16 * pass) buffer loc.1
  (w, loop (fun part ↦ fourRounds (16 * pass) (4 * part) w) 4 loc.2)

/-- The array of schedule words starts without a value; its first pass writes every word. -/
def sha256Block (sha : Sha256) : Sha256 :=
  let loc := loop (sixteenRounds sha.buffer.toList) 4 (Vector.replicate 16 0, sha.state)
  { sha with state := sha.state.add loc.2 }

/-- The buffer's bytes keep the value they had. -/
def sha256Init (buffer : Vector UInt8 64) : Sha256 where
  state := ⟨0x6a09e667, 0xbb67ae85, 0x3c6ef372, 0xa54ff53a, 0x510e527f, 0x9b05688c, 0x1f83d9ab,
    0x5be0cd19⟩
  buffer := buffer
  nBits := 0
  bufferCounter := 0

def sha256AppendByte (sha : Sha256) (byte : UInt8) : Sha256 :=
  let sha :=
    { sha with buffer := sha.buffer.set sha.bufferCounter byte, nBits := sha.nBits + 8 }
  if h : sha.bufferCounter.val + 1 = 64 then sha256Block { sha with bufferCounter := 0 }
  else { sha with bufferCounter := ⟨sha.bufferCounter.val + 1, by omega⟩ }

def sha256Append (sha : Sha256) (bytes : Bytes) : Sha256 := bytes.foldl sha256AppendByte sha

/-- The loop over zeros, for at most `fuel` rounds. -/
def sha256Fill : ℕ → Sha256 → Option Sha256
  | 0, _ => none
  | fuel + 1, sha =>
    if sha.bufferCounter.val = 56 then some sha else sha256Fill fuel (sha256AppendByte sha 0)

def sha256Finalize (sha : Sha256) : Option Sha256 :=
  (sha256Fill 64 (sha256AppendByte sha 0x80)).map fun filled ↦
    loop (fun i filled ↦
      sha256AppendByte filled ((sha.nBits >>> UInt64.ofNat (8 * (7 - i))) &&& 0xff).toUInt8) 8
      filled

def stateWords (x : Words8) : List UInt32 := [x.a, x.b, x.c, x.d, x.e, x.f, x.g, x.h]

def wordByte (word j : UInt32) : UInt8 := ((word >>> (j * 8)) &&& 0xff).toUInt8

def sha256FinalizeBytes (sha : Sha256) : Option Bytes :=
  (sha256Finalize sha).map fun done ↦
    (stateWords done.state).flatMap fun word ↦ [3, 2, 1, 0].map (wordByte word)

def wordNibble (word j : UInt32) : Char :=
  "0123456789abcdef".toList.getD ((word >>> (j * 4)) &&& 0xf).toNat '0'

def sha256FinalizeHex (sha : Sha256) : Option (List Char) :=
  (sha256Finalize sha).map fun done ↦
    (stateWords done.state).flatMap fun word ↦ [7, 6, 5, 4, 3, 2, 1, 0].map (wordNibble word)

def sha256Bytes (buffer : Vector UInt8 64) (source : Bytes) : Option Bytes :=
  sha256FinalizeBytes (sha256Append (sha256Init buffer) source)

def sha256Hex (buffer : Vector UInt8 64) (source : Bytes) : Option (List Char) :=
  sha256FinalizeHex (sha256Append (sha256Init buffer) source)

/-! ## Words and constants -/

theorem rotr_eq (x : UInt32) {count : ℕ} (hpos : 0 < count) (hlt : count < 32) :
    rotr x (UInt32.ofNat count) = rotateRight x count := by
  have hcount : (UInt32.ofNat count).toNat = count := by
    rw [UInt32.toNat_ofNat']
    omega
  have hright : (32 - UInt32.ofNat count).toNat = 32 - count := by
    rw [UInt32.toNat_sub, hcount]
    have : (32 : UInt32).toNat = 32 := rfl
    omega
  have hmod : (32 - count) % 32 = 32 - count := Nat.mod_eq_of_lt (by omega)
  apply UInt32.toNat_inj.mp
  rw [rotr, UInt32.toNat_or, UInt32.toNat_shiftRight, UInt32.toNat_shiftLeft, hcount, hright,
    Nat.mod_eq_of_lt hlt, hmod]
  change _ = (x.toBitVec.rotateRight count).toNat
  rw [BitVec.toNat_rotateRight, Nat.mod_eq_of_lt hlt]
  rfl

/-- A byte moved up in a word. -/
theorem toNat_shifted (byte : UInt8) {count : ℕ} (hcount : count ≤ 24) :
    (byte.toUInt32 <<< UInt32.ofNat count).toNat = 2 ^ count * byte.toNat := by
  have hbyte := byte.toNat_lt
  have hshift : (UInt32.ofNat count).toNat % 32 = count := by
    rw [UInt32.toNat_ofNat']
    omega
  have hpow : 2 ^ count ≤ 2 ^ 24 := Nat.pow_le_pow_right (by decide) hcount
  have hlt : 2 ^ count * byte.toNat < 2 ^ 32 :=
    calc 2 ^ count * byte.toNat ≤ 2 ^ 24 * 255 := Nat.mul_le_mul hpow (by omega)
      _ < 2 ^ 32 := by decide
  rw [UInt32.toNat_shiftLeft, hshift, UInt8.toNat_toUInt32, Nat.shiftLeft_eq, Nat.mul_comm,
    Nat.mod_eq_of_lt hlt]

/-- Four bytes side by side. -/
theorem or_bytes {a b c d : ℕ} (hb : b < 256) (hc : c < 256) (hd : d < 256) :
    2 ^ 24 * a ||| 2 ^ 16 * b ||| 2 ^ 8 * c ||| d = d + 256 * (c + 256 * (b + 256 * a)) := by
  have hfirst : 2 ^ 24 * a ||| 2 ^ 16 * b = 2 ^ 16 * (2 ^ 8 * a + b) := by
    rw [← Nat.two_pow_add_eq_or_of_lt (by omega)]
    ring
  have hsecond : 2 ^ 16 * (2 ^ 8 * a + b) ||| 2 ^ 8 * c = 2 ^ 8 * (2 ^ 16 * a + 2 ^ 8 * b + c) := by
    rw [← Nat.two_pow_add_eq_or_of_lt (by omega)]
    ring
  rw [hfirst, hsecond, ← Nat.two_pow_add_eq_or_of_lt (by omega)]
  ring

theorem loadWord_eq {bytes : Bytes} (hlength : 4 ≤ bytes.length) :
    loadWord bytes = beWord (bytes.take 4) := by
  match bytes, hlength with
  | byte0 :: byte1 :: byte2 :: byte3 :: rest, _ =>
    have hbytes : beNat [byte0, byte1, byte2, byte3] =
        byte3.toNat + 256 * (byte2.toNat + 256 * (byte1.toNat + 256 * byte0.toNat)) := rfl
    have hlt := beNat_lt [byte0, byte1, byte2, byte3]
    have hword : (beWord [byte0, byte1, byte2, byte3]).toNat =
        beNat [byte0, byte1, byte2, byte3] := by
      rw [beWord, UInt32.toNat_ofNat']
      exact Nat.mod_eq_of_lt (by simpa using hlt)
    apply UInt32.toNat_inj.mp
    rw [List.take_succ_cons, List.take_succ_cons, List.take_succ_cons, List.take_succ_cons,
      List.take_zero, hword, hbytes, loadWord, UInt32.toNat_or, UInt32.toNat_or, UInt32.toNat_or,
      UInt8.toNat_toUInt32]
    calc (byte0.toUInt32 <<< UInt32.ofNat 24).toNat ||| (byte1.toUInt32 <<< UInt32.ofNat 16).toNat |||
            (byte2.toUInt32 <<< UInt32.ofNat 8).toNat ||| byte3.toNat
        = 2 ^ 24 * byte0.toNat ||| 2 ^ 16 * byte1.toNat ||| 2 ^ 8 * byte2.toNat ||| byte3.toNat := by
          rw [toNat_shifted byte0 (by decide), toNat_shifted byte1 (by decide),
            toNat_shifted byte2 (by decide)]
      _ = _ := or_bytes byte1.toNat_lt byte2.toNat_lt byte3.toNat_lt

/-- The table holds the fractions that the standard asks for. -/
theorem sha256K_eq : sha256K = primes64.map cubeFraction := by decide +kernel

theorem getD_sha256K {time : ℕ} (htime : time < 64) :
    sha256K.getD time 0 = cubeFraction (primes64.getD time 0) := by
  have hlength : primes64.length = 64 := rfl
  rw [sha256K_eq, List.getD_eq_getElem _ _ (by simpa [hlength] using htime), List.getElem_map,
    List.getD_eq_getElem _ _ (by simpa [hlength] using htime)]

theorem sha256Init_state (buffer : Vector UInt8 64) : (sha256Init buffer).state = sha256Start := by
  have hstart : (⟨0x6a09e667, 0xbb67ae85, 0x3c6ef372, 0xa54ff53a, 0x510e527f, 0x9b05688c,
    0x1f83d9ab, 0x5be0cd19⟩ : Words8) = sha256Start := by decide +kernel
  exact hstart

/-! ## The message schedule -/

theorem sha256Mix_eq (a b c d : UInt32) :
    d + (c + (rotr a 7 ^^^ rotr a 18 ^^^ (a >>> 3)) + (rotr b 17 ^^^ rotr b 19 ^^^ (b >>> 10))) =
      (rotateRight b 17 ^^^ rotateRight b 19 ^^^ (b >>> 10)) + c +
        (rotateRight a 7 ^^^ rotateRight a 18 ^^^ (a >>> 3)) + d := by
  have h7 : rotr a 7 = rotateRight a 7 := rotr_eq a (by decide) (by decide)
  have h18 : rotr a 18 = rotateRight a 18 := rotr_eq a (by decide) (by decide)
  have h17 : rotr b 17 = rotateRight b 17 := rotr_eq b (by decide) (by decide)
  have h19 : rotr b 19 = rotateRight b 19 := rotr_eq b (by decide) (by decide)
  rw [h7, h18, h17, h19]
  ac_rfl

/-- A pass that starts with the sixteen words before it ends with its own. -/
theorem holds_updateW {block : Bytes} (hblock : block.length = 64) {pass : ℕ} {w : Window}
    (hw : Holds (schedule sha256Mix block) (16 * pass) w) :
    Holds (schedule sha256Mix block) (16 * pass + 16) (updateW (16 * pass) block w) := by
  refine loop_invariant (fun j w ↦ Holds (schedule sha256Mix block) (16 * pass + j) w) hw ?_
  intro j w hj hw
  have hplace : (16 * pass + j) % 16 = j % 16 := by omega
  have hvalue : ∀ value, value = schedule sha256Mix block (16 * pass + j) →
      Holds (schedule sha256Mix block) (16 * pass + j + 1) (w.write j value) := by
    intro value hvalue
    rw [← w.write_congr hplace]
    exact hw.write hvalue
  by_cases hfirst : 16 * pass < 16
  · have hpass : pass = 0 := by omega
    have hlength : 4 ≤ (block.drop (4 * j)).length := by
      rw [List.length_drop, hblock]
      omega
    rw [if_pos hfirst]
    apply hvalue
    rw [hpass, Nat.mul_zero, Nat.zero_add, schedule_of_lt hj, blockWord, loadWord_eq hlength]
  · have h15 := hw.read 15 (j + 1) (by omega) (by omega) (by omega) (by omega)
    have h7 := hw.read 7 (j + 9) (by omega) (by omega) (by omega) (by omega)
    have h2 := hw.read 2 (j + 14) (by omega) (by omega) (by omega) (by omega)
    have h16 := hw.read 16 j (by omega) (by omega) (by omega) (by omega)
    rw [if_neg hfirst]
    apply hvalue
    rw [schedule_of_le (by omega), sha256Mix, sha256Mix_eq, h15, h7, h2, h16]
    rw [if_pos ⟨by decide, by omega⟩, if_pos ⟨by decide, by omega⟩, if_pos ⟨by decide, by omega⟩,
      if_pos ⟨by decide, by omega⟩]

/-! ## Rounds -/

theorem step1_eq (e f g : UInt32) :
    step1 e f g =
      (rotateRight e 6 ^^^ rotateRight e 11 ^^^ rotateRight e 25) + choose e f g := by
  have h6 : rotr e 6 = rotateRight e 6 := rotr_eq e (by decide) (by decide)
  have h11 : rotr e 11 = rotateRight e 11 := rotr_eq e (by decide) (by decide)
  have h25 : rotr e 25 = rotateRight e 25 := rotr_eq e (by decide) (by decide)
  rw [step1, h6, h11, h25, choose]

theorem step2_eq (a b c : UInt32) :
    step2 a b c =
      (rotateRight a 2 ^^^ rotateRight a 13 ^^^ rotateRight a 22) + majority a b c := by
  have h2 : rotr a 2 = rotateRight a 2 := rotr_eq a (by decide) (by decide)
  have h13 : rotr a 13 = rotateRight a 13 := rotr_eq a (by decide) (by decide)
  have h22 : rotr a 22 = rotateRight a 22 := rotr_eq a (by decide) (by decide)
  rw [step2, h2, h13, h22, majority]

/-- A round as the source writes it: only two of the variables get a new value. -/
theorem sha256Round_eq (constant word : UInt32) (x : Words8) :
    sha256Round constant word x =
      ⟨x.h + step1 x.e x.f x.g + constant + word + step2 x.a x.b x.c, x.a, x.b, x.c,
        x.h + step1 x.e x.f x.g + constant + word + x.d, x.e, x.f, x.g⟩ := by
  rw [sha256Round, step1_eq, step2_eq]
  congr 1 <;> ac_rfl

/-- Four rounds in which the variables change their roles are four rounds in which they move. -/
theorem fourRounds_eq (i j : ℕ) (w : Window) (x : Words8) :
    fourRounds i j w x =
      loop (fun index ↦ sha256Round (sha256K.getD (i + j + index) 0) (w.read (j + index))) 4 x := by
  rw [loop_succ, loop_succ, loop_succ, loop_succ, loop_zero, sha256Round_eq _ _ x, sha256Round_eq,
    sha256Round_eq, sha256Round_eq]
  rfl

/-- One pass over sixteen words. -/
theorem loop_fourRounds {block : Bytes} {pass : ℕ} (hpass : pass < 4) {w : Window}
    (hw : Holds (schedule sha256Mix block) (16 * pass + 16) w) (x : Words8) :
    loop (fun part ↦ fourRounds (16 * pass) (4 * part) w) 4 x =
      loop (fun index ↦ sha256Round (cubeFraction (primes64.getD (16 * pass + index) 0))
        (schedule sha256Mix block (16 * pass + index))) 16 x := by
  have hword : ∀ index < 16, w.read index = schedule sha256Mix block (16 * pass + index) := by
    intro index hindex
    have hcongr : w.read index = w.read (16 * pass + index) := w.read_congr (by omega)
    rw [hcongr]
    exact hw _ (by omega) (by omega)
  rw [← loop_nested _ 4 4]
  refine loop_congr x fun part state hpart ↦ ?_
  rw [fourRounds_eq]
  refine loop_congr state fun index state hindex ↦ ?_
  rw [hword _ (by omega), Nat.add_assoc, getD_sha256K (by omega)]

/-- All passes over a block are the sixty-four rounds of the standard. -/
theorem sha256Block_state (sha : Sha256) :
    (sha256Block sha).state = sha256Compress sha.state sha.buffer.toList := by
  have hlength : sha.buffer.toList.length = 64 := by simp
  have hpasses := loop_related (sixteenRounds sha.buffer.toList)
    (fun pass ↦ loop (fun index ↦
      sha256Round (cubeFraction (primes64.getD (16 * pass + index) 0))
        (schedule sha256Mix sha.buffer.toList (16 * pass + index))) 16)
    (fun pass loc x ↦
      Holds (schedule sha256Mix sha.buffer.toList) (16 * pass) loc.1 ∧ loc.2 = x)
    4 (Vector.replicate 16 0, sha.state) sha.state ⟨holds_zero _ _, rfl⟩ ?_
  · have hrounds := loop_nested (fun time ↦ sha256Round (cubeFraction (primes64.getD time 0))
      (schedule sha256Mix sha.buffer.toList time)) 16 4 sha.state
    exact congrArg sha.state.add (hpasses.2.trans hrounds)
  · intro pass loc x hpass h
    have hnext := holds_updateW hlength h.1
    refine ⟨hnext, ?_⟩
    rw [sixteenRounds, loop_fourRounds hpass hnext, h.2]

/-! ## The stream -/

/-- The bytes that wait for their block. -/
def pendingBytes (sha : Sha256) : Bytes := sha.buffer.toList.take sha.bufferCounter

theorem length_pendingBytes (sha : Sha256) : (pendingBytes sha).length = sha.bufferCounter := by
  have hlt := sha.bufferCounter.isLt
  rw [pendingBytes, List.length_take, Vector.length_toList]
  omega

/-- The new byte stands behind the pending ones. -/
theorem take_set_buffer (sha : Sha256) (byte : UInt8) :
    (sha.buffer.set sha.bufferCounter byte).toList.take (sha.bufferCounter + 1) =
      pendingBytes sha ++ [byte] := by
  rw [Vector.toList_set, take_set_succ (by simp), pendingBytes]

theorem appendByte_spec (sha : Sha256) (byte : UInt8) :
    ((sha256AppendByte sha byte).state, pendingBytes (sha256AppendByte sha byte)) =
      absorbByte sha256Compress 64 (sha.state, pendingBytes sha) byte := by
  have htake := take_set_buffer sha byte
  rw [absorbByte, List.length_append, length_pendingBytes, List.length_singleton, ← htake,
    sha256AppendByte]
  by_cases hfull : sha.bufferCounter.val + 1 = 64
  · have hall : (sha.buffer.set sha.bufferCounter byte).toList.take (sha.bufferCounter + 1) =
        (sha.buffer.set sha.bufferCounter byte).toList :=
      List.take_of_length_le (by rw [Vector.length_toList, hfull])
    rw [dif_pos hfull, if_pos hfull, hall, sha256Block_state]
    rfl
  · rw [dif_neg hfull, if_neg hfull]
    rfl

/-- The stream as a byte-wise implementation of the standard's block hash. -/
def sha256Stream : Streaming Sha256 Words8 sha256Compress 64 where
  push := sha256AppendByte
  chain := Sha256.state
  pending := pendingBytes
  push_spec := appendByte_spec

theorem sha256Fill_eq (fuel : ℕ) (sha : Sha256) :
    sha256Fill fuel sha = sha256Stream.fillTo 56 fuel sha := by
  induction fuel generalizing sha with
  | zero => rfl
  | succ fuel ih =>
    have hlength : (sha256Stream.pending sha).length = sha.bufferCounter := length_pendingBytes sha
    rw [sha256Fill, Streaming.fillTo, hlength, ih]
    rfl

theorem nBits_append (sha : Sha256) (bytes : Bytes) :
    (sha256Append sha bytes).nBits = sha.nBits + UInt64.ofNat (8 * bytes.length) := by
  have hbyte : ∀ (sha : Sha256) byte, (sha256AppendByte sha byte).nBits = sha.nBits + 8 := by
    intro sha byte
    rw [sha256AppendByte]
    split <;> rfl
  induction bytes generalizing sha with
  | nil => rw [List.length_nil, Nat.mul_zero]; exact (UInt64.add_zero _).symm
  | cons byte rest ih =>
    have hsum : UInt64.ofNat (8 * (byte :: rest).length) =
        8 + UInt64.ofNat (8 * rest.length) := by
      rw [List.length_cons, Nat.mul_succ, Nat.add_comm, UInt64.ofNat_add]
      rfl
    rw [hsum, ← UInt64.add_assoc, ← hbyte sha byte]
    exact ih _

/-- The low byte of a number that is shifted down. -/
theorem low_byte (value count : ℕ) :
    (value >>> (8 * count) &&& 255) % 2 ^ 8 = value / 256 ^ count % 2 ^ 8 := by
  rw [Nat.and_two_pow_sub_one_eq_mod (n := 8), Nat.mod_mod, Nat.shiftRight_eq_div_pow, Nat.pow_mul]

/-- One byte of the length field. -/
theorem lengthByte_eq (bits : UInt64) {count : ℕ} (hcount : count < 8) :
    ((bits >>> UInt64.ofNat (8 * count)) &&& 0xff).toUInt8 =
      UInt8.ofNat (bits.toNat / 256 ^ count) := by
  have hshift : (UInt64.ofNat (8 * count)).toNat % 64 = 8 * count := by
    rw [UInt64.toNat_ofNat']
    omega
  apply UInt8.toNat_inj.mp
  rw [UInt64.toNat_toUInt8, UInt64.toNat_and, UInt64.toNat_shiftRight, hshift, UInt8.toNat_ofNat']
  exact low_byte _ _

theorem wordByte_eq (word : UInt32) (count : ℕ) (hcount : count < 4) :
    wordByte word (UInt32.ofNat count) = UInt8.ofNat (word.toNat / 256 ^ count) := by
  have hshift : (UInt32.ofNat count * 8).toNat % 32 = 8 * count := by
    have height : (8 : UInt32).toNat = 8 := rfl
    rw [UInt32.toNat_mul, UInt32.toNat_ofNat', height]
    omega
  apply UInt8.toNat_inj.mp
  rw [wordByte, UInt32.toNat_toUInt8, UInt32.toNat_and, UInt32.toNat_shiftRight, hshift,
    UInt8.toNat_ofNat']
  exact low_byte _ _

theorem wordBytes_eq (word : UInt32) : [3, 2, 1, 0].map (wordByte word) = wordBytes word := by
  have h3 : wordByte word 3 = _ := wordByte_eq word 3 (by decide)
  have h2 : wordByte word 2 = _ := wordByte_eq word 2 (by decide)
  have h1 : wordByte word 1 = _ := wordByte_eq word 1 (by decide)
  have h0 : wordByte word 0 = _ := wordByte_eq word 0 (by decide)
  rw [List.map_cons, List.map_cons, List.map_cons, List.map_cons, List.map_nil, h3, h2, h1, h0,
    wordBytes, beBytes_eq_map]
  rfl

theorem stateBytes_eq (x : Words8) :
    ((stateWords x).flatMap fun word ↦ [3, 2, 1, 0].map (wordByte word)) = x.toBytes := by
  simp only [wordBytes_eq, stateWords, List.flatMap_cons, List.flatMap_nil, List.append_nil,
    Words8.toBytes, List.append_assoc]

/-- The bytes of the length field as the last loop writes them. -/
theorem lengthField_eq {size : ℕ} (hsize : size < 2 ^ 61) :
    ((List.range 8).map fun i ↦
      ((UInt64.ofNat (8 * size) >>> UInt64.ofNat (8 * (7 - i))) &&& 0xff).toUInt8) =
      beBytes 8 (8 * size) := by
  have hbits : (UInt64.ofNat (8 * size)).toNat = 8 * size := by
    rw [UInt64.toNat_ofNat']
    omega
  rw [beBytes_eq_map]
  refine List.map_congr_left fun i hi ↦ ?_
  rw [lengthByte_eq _ (by omega), hbits]

/-- Whatever the buffer held, finishing a stream compresses the padded message. -/
theorem sha256Finalize_append (buffer : Vector UInt8 64) {message : Bytes}
    (hlength : message.length < 2 ^ 61) :
    ∃ done, sha256Finalize (sha256Append (sha256Init buffer) message) = some done ∧
      done.state = digest sha256Compress 64 8 sha256Start message := by
  have hempty : sha256Stream.pending (sha256Init buffer) = [] := rfl
  have hfill := sha256Stream.fillTo_end (by decide) 8 64 (by decide)
    (by decide) (by decide) hempty message
  have hbits : (sha256Append (sha256Init buffer) message).nBits =
      UInt64.ofNat (8 * message.length) := by
    rw [nBits_append]
    exact UInt64.zero_add _
  have hdigest := sha256Stream.chain_foldl_push (by decide) hempty 8 message
  refine ⟨(padMessage 64 8 message).foldl sha256AppendByte (sha256Init buffer), ?_, ?_⟩
  · have hmarked : sha256Fill 64 (sha256AppendByte (sha256Append (sha256Init buffer) message) 0x80) =
        some ((message ++ 0x80 :: List.replicate (padZeros 64 8 message.length) 0).foldl
          sha256AppendByte (sha256Init buffer)) := (sha256Fill_eq _ _).trans hfill
    rw [sha256Finalize, hmarked, Option.map_some, hbits, loop_eq_foldl, lengthField_eq hlength,
      ← List.foldl_append, padMessage]
  · rw [← sha256Init_state buffer]
    exact hdigest

theorem sha256Append_append (sha : Sha256) (first second : Bytes) :
    sha256Append sha (first ++ second) = sha256Append (sha256Append sha first) second :=
  List.foldl_append

theorem sha256Append_flatten (sha : Sha256) (pieces : List Bytes) :
    pieces.foldl sha256Append sha = sha256Append sha pieces.flatten := by
  induction pieces generalizing sha with
  | nil => rfl
  | cons piece rest ih =>
    rw [List.foldl_cons, ih, List.flatten_cons, sha256Append_append]

/-! ## Hexadecimal digests -/

theorem hexDigit_eq : ∀ digit < 16,
    "0123456789abcdef".toList.getD digit '0' = Nat.digitChar digit := by decide

theorem wordNibble_eq (word : UInt32) {count : ℕ} (hcount : count < 8) :
    wordNibble word (UInt32.ofNat count) = Nat.digitChar (word.toNat / 16 ^ count % 16) := by
  have hfour : (4 : UInt32).toNat = 4 := rfl
  have hshift : (UInt32.ofNat count * 4).toNat % 32 = 4 * count := by
    rw [UInt32.toNat_mul, UInt32.toNat_ofNat', hfour]
    omega
  have hdigit : ((word >>> (UInt32.ofNat count * 4)) &&& 0xf).toNat =
      word.toNat / 16 ^ count % 16 := by
    rw [UInt32.toNat_and, UInt32.toNat_shiftRight, hshift, Nat.shiftRight_eq_div_pow, Nat.pow_mul]
    exact Nat.and_two_pow_sub_one_eq_mod (n := 4) _
  rw [wordNibble, hdigit]
  exact hexDigit_eq _ (Nat.mod_lt _ (by decide))

/-- Two digits of a word are the digits of one of its bytes. -/
theorem hexByte_eq (value count : ℕ) :
    hexByte (UInt8.ofNat (value / 256 ^ count)) =
      [Nat.digitChar (value / 16 ^ (2 * count + 1) % 16),
        Nat.digitChar (value / 16 ^ (2 * count) % 16)] := by
  have hpow : 16 ^ (2 * count) = 256 ^ count := Nat.pow_mul 16 2 count
  have hhigh : value / 256 ^ count % 2 ^ 8 / 16 = value / 256 ^ count / 16 % 16 := by omega
  have hlow : value / 256 ^ count % 2 ^ 8 % 16 = value / 256 ^ count % 16 := by omega
  rw [hexByte, UInt8.toNat_ofNat', hhigh, hlow, Nat.pow_succ, hpow, Nat.div_div_eq_div_mul]

theorem wordHex_eq (word : UInt32) :
    [7, 6, 5, 4, 3, 2, 1, 0].map (wordNibble word) = (wordBytes word).flatMap hexByte := by
  have hnibble : ∀ count < 8, wordNibble word (UInt32.ofNat count) = _ := fun count hcount ↦
    wordNibble_eq word hcount
  have h3 := hexByte_eq word.toNat 3
  have h2 := hexByte_eq word.toNat 2
  have h1 := hexByte_eq word.toNat 1
  have h0 := hexByte_eq word.toNat 0
  calc [7, 6, 5, 4, 3, 2, 1, 0].map (wordNibble word)
      = (List.range 8).map fun index ↦ Nat.digitChar (word.toNat / 16 ^ (7 - index) % 16) := by
        refine (List.map_map (l := List.range 8) (g := wordNibble word)
          (f := fun index ↦ UInt32.ofNat (7 - index))).trans ?_
        exact List.map_congr_left fun index _ ↦ hnibble (7 - index) (by omega)
    _ = (wordBytes word).flatMap hexByte := by
        rw [wordBytes, beBytes_eq_map]
        simp only [List.range_succ, List.range_zero, List.nil_append, List.cons_append,
          List.map_cons, List.map_nil, List.flatMap_cons, List.flatMap_nil, Nat.sub_zero,
          Nat.add_one_sub_one, Nat.reduceSub, h3, h2, h1, h0, Nat.reduceMul, Nat.reduceAdd]

theorem stateHex_eq (x : Words8) :
    ((stateWords x).flatMap fun word ↦ [7, 6, 5, 4, 3, 2, 1, 0].map (wordNibble word)) =
      x.toBytes.flatMap hexByte := by
  simp only [wordHex_eq, stateWords, List.flatMap_cons, List.flatMap_nil, List.append_nil,
    Words8.toBytes, List.flatMap_append, List.append_assoc]

/-! ## The digest -/

/-- A message that is appended in any pieces has the standard's digest, in bytes and in text. -/
theorem sha256_pieces (buffer : Vector UInt8 64) {pieces : List Bytes}
    (hlength : pieces.flatten.length < 2 ^ 61) :
    sha256FinalizeBytes (pieces.foldl sha256Append (sha256Init buffer)) =
        some (sha256 pieces.flatten) ∧
      sha256FinalizeHex (pieces.foldl sha256Append (sha256Init buffer)) =
        some ((sha256 pieces.flatten).flatMap hexByte) := by
  obtain ⟨done, hdone, hstate⟩ := sha256Finalize_append buffer hlength
  rw [sha256Append_flatten]
  constructor
  · rw [sha256FinalizeBytes, hdone, Option.map_some, stateBytes_eq, hstate, sha256]
  · rw [sha256FinalizeHex, hdone, Option.map_some, stateHex_eq, hstate, sha256]

/-- An empty piece, two pieces and a buffer with other bytes in it. -/
theorem sha256_pieces_three :
    sha256FinalizeBytes ([[], [97, 98], [99]].foldl sha256Append
        (sha256Init (Vector.replicate 64 7))) = some (sha256 [97, 98, 99]) ∧
      sha256FinalizeHex ([[], [97, 98], [99]].foldl sha256Append
        (sha256Init (Vector.replicate 64 7))) = some ((sha256 [97, 98, 99]).flatMap hexByte) :=
  @sha256_pieces (Vector.replicate 64 7) [[], [97, 98], [99]] (by decide)

/-- In one call. -/
theorem sha256Bytes_eq (buffer : Vector UInt8 64) {source : Bytes}
    (hlength : source.length < 2 ^ 61) : sha256Bytes buffer source = some (sha256 source) := by
  obtain ⟨done, hdone, hstate⟩ := sha256Finalize_append buffer hlength
  rw [sha256Bytes, sha256FinalizeBytes, hdone, Option.map_some, stateBytes_eq, hstate, sha256]

end LibTg.Crypto
