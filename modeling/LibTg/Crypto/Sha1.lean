import LibTg.Crypto.Sha256

/-!
# The library's own SHA-1 and its keyed form

The streaming SHA-1 of `crypto/sha1.c`. Its buffer is a union of bytes and words on a little-endian
machine: a byte is stored in the mirrored place of its word, and the schedule overwrites the words in
place. The message length is counted in 32 bits.
-/

namespace LibTg.Crypto

open SecureHash

/-! ## The functions of the source -/

def sha1InitState : Bytes :=
  [0x01, 0x23, 0x45, 0x67, 0x89, 0xab, 0xcd, 0xef, 0xfe, 0xdc, 0xba, 0x98, 0x76, 0x54, 0x32, 0x10,
    0xf0, 0xe1, 0xd2, 0xc3]

/-- A word of a union of bytes and words. -/
def unionWord (bytes : Bytes) (index : ℕ) : UInt32 := getUi32 ((bytes.drop (4 * index)).take 4)

def bufferWords (buffer : Vector UInt8 64) : Window :=
  Vector.ofFn fun index ↦ unionWord buffer.toList index

def wordsBuffer (window : Window) : Vector UInt8 64 :=
  Vector.ofFn fun index ↦ UInt8.ofNat ((window.read (index / 4)).toNat / 256 ^ (index.val % 4))

/-- `sha1nfo`: fewer than sixty-four bytes are in the buffer between two calls. -/
structure Sha1nfo where
  buffer : Vector UInt8 64
  bufferOffset : Fin 64
  state : Words5
  byteCount : UInt32
  keyBuffer : Bytes
  innerHash : Bytes

def sha1Init (s : Sha1nfo) : Sha1nfo :=
  { s with
    state := ⟨unionWord sha1InitState 0, unionWord sha1InitState 1, unionWord sha1InitState 2,
      unionWord sha1InitState 3, unionWord sha1InitState 4⟩
    byteCount := 0
    bufferOffset := ⟨0, by decide⟩ }

def sha1Rol32 (number bits : UInt32) : UInt32 := (number <<< bits) ||| (number >>> (32 - bits))

/-- The first part of a round: from the sixteenth on the next word of the schedule. -/
def nextWord (i : ℕ) (w : Window) : Window :=
  if 16 ≤ i then
    w.write i (sha1Rol32 (w.read (i + 13) ^^^ w.read (i + 8) ^^^ w.read (i + 2) ^^^ w.read i) 1)
  else w

def hashRound (i : ℕ) (loc : Window × Words5) : Window × Words5 :=
  let w := nextWord i loc.1
  let x := loc.2
  let t :=
    if i < 20 then (x.d ^^^ (x.b &&& (x.c ^^^ x.d))) + 0x5a827999
    else if i < 40 then (x.b ^^^ x.c ^^^ x.d) + 0x6ed9eba1
    else if i < 60 then ((x.b &&& x.c) ||| (x.d &&& (x.b ||| x.c))) + 0x8f1bbcdc
    else (x.b ^^^ x.c ^^^ x.d) + 0xca62c1d6
  let t := t + (sha1Rol32 x.a 5 + x.e + w.read i)
  (w, ⟨t, x.a, sha1Rol32 x.b 30, x.c, x.d⟩)

def sha1HashBlock (s : Sha1nfo) : Sha1nfo :=
  let loc := loop hashRound 80 (bufferWords s.buffer, s.state)
  { s with buffer := wordsBuffer loc.1, state := s.state.add loc.2 }

theorem mirror_lt (offset : Fin 64) : offset.val ^^^ 3 < 64 :=
  Nat.xor_lt_two_pow (n := 6) offset.isLt (by decide)

def sha1AddUncounted (s : Sha1nfo) (data : UInt8) : Sha1nfo :=
  let buffer := s.buffer.set (s.bufferOffset.val ^^^ 3) data (mirror_lt s.bufferOffset)
  let s := { s with buffer := buffer }
  if h : s.bufferOffset.val + 1 = 64 then
    { sha1HashBlock s with bufferOffset := ⟨0, by decide⟩ }
  else { s with bufferOffset := ⟨s.bufferOffset.val + 1, by omega⟩ }

def sha1Writebyte (s : Sha1nfo) (data : UInt8) : Sha1nfo :=
  sha1AddUncounted { s with byteCount := s.byteCount + 1 } data

def sha1Write (s : Sha1nfo) (data : Bytes) : Sha1nfo := data.foldl sha1Writebyte s

/-- The loop over zeros, for at most `fuel` rounds. -/
def sha1Fill : ℕ → Sha1nfo → Option Sha1nfo
  | 0, _ => none
  | fuel + 1, s =>
    if s.bufferOffset.val = 56 then some s else sha1Fill fuel (sha1AddUncounted s 0x00)

/-- The bytes of the length field: the count of bytes, shifted up by three in all. -/
def sha1Length (byteCount : UInt32) : Bytes :=
  [0, 0, 0, (byteCount >>> 29).toUInt8, (byteCount >>> 21).toUInt8, (byteCount >>> 13).toUInt8,
    (byteCount >>> 5).toUInt8, (byteCount <<< 3).toUInt8]

def sha1Pad (s : Sha1nfo) : Option Sha1nfo :=
  (sha1Fill 64 (sha1AddUncounted s 0x80)).map fun filled ↦
    (sha1Length s.byteCount).foldl sha1AddUncounted filled

def swapWord (a : UInt32) : UInt32 :=
  (a <<< 24) ||| ((a <<< 8) &&& (0x00ff0000 : UInt32)) ||| ((a >>> 8) &&& (0x0000ff00 : UInt32)) ||| (a >>> 24)

def swapState (x : Words5) : Words5 :=
  ⟨swapWord x.a, swapWord x.b, swapWord x.c, swapWord x.d, swapWord x.e⟩

/-- The bytes of the union of the state. -/
def stateBytes (x : Words5) : Bytes := le32 x.a ++ le32 x.b ++ le32 x.c ++ le32 x.d ++ le32 x.e

/-- The state behind the call, and the bytes that the result points to. -/
def sha1Result (s : Sha1nfo) : Option (Sha1nfo × Bytes) :=
  (sha1Pad s).map fun padded ↦
    ({ padded with state := swapState padded.state }, stateBytes (swapState padded.state))

/-- `sha1_initHmac`. A negative length would go to `memmove` as a size beyond the memory. -/
def sha1InitHmac (s : Sha1nfo) (key : Bytes) (keyLength : Int32) : Option Sha1nfo :=
  let taken := key.take keyLength.toInt.toNat
  let keyed :=
    if 64 < keyLength then
      (sha1Result (sha1Write (sha1Init { s with keyBuffer := List.replicate 64 0 }) taken)).map
        fun result ↦
          { result.1 with keyBuffer := overwrite result.1.keyBuffer 0 result.2 }
    else if keyLength < 0 then none
    else some { s with keyBuffer := overwrite (List.replicate 64 0) 0 taken }
  keyed.map fun s ↦ sha1Write (sha1Init s) (s.keyBuffer.map (· ^^^ 0x36))

def sha1ResultHmac (s : Sha1nfo) : Option Bytes :=
  (sha1Result s).bind fun result ↦
    let s := { result.1 with innerHash := result.2 }
    let s := sha1Write (sha1Init s) (s.keyBuffer.map (· ^^^ 0x5c))
    (sha1Result (sha1Write s s.innerHash)).map Prod.snd

def sha1 (s : Sha1nfo) (data : Bytes) : Option Bytes :=
  (sha1Result (sha1Write (sha1Init s) data)).map Prod.snd

/-! ## Words and constants -/

theorem sha1Rol32_eq (number : UInt32) {count : ℕ} (hpos : 0 < count) (hlt : count < 32) :
    sha1Rol32 number (UInt32.ofNat count) = rotateLeft number count := by
  have hcount : (UInt32.ofNat count).toNat = count := by
    rw [UInt32.toNat_ofNat']
    omega
  have hright : (32 - UInt32.ofNat count).toNat = 32 - count := by
    rw [UInt32.toNat_sub, hcount]
    have : (32 : UInt32).toNat = 32 := rfl
    omega
  have hmod : (32 - count) % 32 = 32 - count := Nat.mod_eq_of_lt (by omega)
  apply UInt32.toNat_inj.mp
  rw [sha1Rol32, UInt32.toNat_or, UInt32.toNat_shiftRight, UInt32.toNat_shiftLeft, hcount, hright,
    Nat.mod_eq_of_lt hlt, hmod]
  change _ = (number.toBitVec.rotateLeft count).toNat
  rw [BitVec.toNat_rotateLeft, Nat.mod_eq_of_lt hlt]
  rfl

theorem choose_eq (b c d : UInt32) : d ^^^ (b &&& (c ^^^ d)) = choose b c d := by
  apply UInt32.toBitVec_inj.mp
  simp only [choose, UInt32.toBitVec_xor, UInt32.toBitVec_and, UInt32.toBitVec_not]
  ext index hindex
  simp only [BitVec.getElem_xor, BitVec.getElem_and, BitVec.getElem_not]
  cases b.toBitVec[index] <;> cases c.toBitVec[index] <;> cases d.toBitVec[index] <;> rfl

theorem majority_eq (b c d : UInt32) : (b &&& c) ||| (d &&& (b ||| c)) = majority b c d := by
  apply UInt32.toBitVec_inj.mp
  simp only [majority, UInt32.toBitVec_xor, UInt32.toBitVec_and, UInt32.toBitVec_or]
  ext index hindex
  simp only [BitVec.getElem_xor, BitVec.getElem_and, BitVec.getElem_or]
  cases b.toBitVec[index] <;> cases c.toBitVec[index] <;> cases d.toBitVec[index] <;> rfl

/-- The constants are the roots that the standard asks for. -/
theorem sha1_roots :
    UInt32.ofNat (Nat.sqrt (2 * 2 ^ 60)) = 0x5a827999 ∧
      UInt32.ofNat (Nat.sqrt (3 * 2 ^ 60)) = 0x6ed9eba1 ∧
      UInt32.ofNat (Nat.sqrt (5 * 2 ^ 60)) = 0x8f1bbcdc ∧
      UInt32.ofNat (Nat.sqrt (10 * 2 ^ 60)) = 0xca62c1d6 := by decide +kernel

theorem sha1Init_state (s : Sha1nfo) : (sha1Init s).state = sha1Start := by rfl

/-! ## Rounds -/

/-- The function and the constant of a round. -/
theorem roundTerm_eq (i : ℕ) (x : Words5) :
    (if i < 20 then (x.d ^^^ (x.b &&& (x.c ^^^ x.d))) + 0x5a827999
      else if i < 40 then (x.b ^^^ x.c ^^^ x.d) + 0x6ed9eba1
      else if i < 60 then ((x.b &&& x.c) ||| (x.d &&& (x.b ||| x.c))) + 0x8f1bbcdc
      else (x.b ^^^ x.c ^^^ x.d) + 0xca62c1d6) =
      sha1Function i x.b x.c x.d + sha1Constant i := by
  obtain ⟨h2, h3, h5, h10⟩ := sha1_roots
  rw [choose_eq, majority_eq, sha1Function, sha1Constant]
  by_cases hfirst : i < 20
  · rw [if_pos hfirst, if_pos hfirst, if_pos hfirst, h2]
  by_cases hsecond : i < 40
  · rw [if_neg hfirst, if_pos hsecond, if_neg hfirst, if_pos hsecond, if_neg hfirst,
      if_pos hsecond, h3, parity]
  by_cases hthird : i < 60
  · rw [if_neg hfirst, if_neg hsecond, if_pos hthird, if_neg hfirst, if_neg hsecond, if_pos hthird,
      if_neg hfirst, if_neg hsecond, if_pos hthird, h5]
  · rw [if_neg hfirst, if_neg hsecond, if_neg hthird, if_neg hfirst, if_neg hsecond, if_neg hthird,
      if_neg hfirst, if_neg hsecond, if_neg hthird, h10, parity]

theorem holds_nextWord {block : Bytes} {i : ℕ} {w : Window}
    (h : Holds (schedule sha1Mix block) (max 16 i) w) :
    Holds (schedule sha1Mix block) (max 16 (i + 1)) (nextWord i w) := by
  by_cases hi : 16 ≤ i
  · rw [max_eq_right hi] at h
    have h3 := h.read 3 (i + 13) (by omega) (by omega) (by omega) (by omega)
    have h8 := h.read 8 (i + 8) (by omega) (by omega) (by omega) (by omega)
    have h14 := h.read 14 (i + 2) (by omega) (by omega) (by omega) (by omega)
    have h16 := h.read 16 i (by omega) (by omega) (by omega) (by omega)
    have hrol : ∀ word : UInt32, sha1Rol32 word 1 = rotateLeft word 1 := fun word ↦
      sha1Rol32_eq word (by decide) (by decide)
    rw [max_eq_right (by omega), nextWord, if_pos hi]
    apply h.write
    rw [schedule_of_le hi, sha1Mix, hrol, h3, h8, h14, h16, if_pos ⟨by decide, by omega⟩,
      if_pos ⟨by decide, by omega⟩, if_pos ⟨by decide, by omega⟩, if_pos ⟨by decide, by omega⟩]
  · rw [max_eq_left (by omega)] at h ⊢
    rw [nextWord, if_neg hi]
    exact h

/-- One round, as the standard has it. -/
theorem hashRound_eq {block : Bytes} {i : ℕ} {w : Window} (x : Words5)
    (h : Holds (schedule sha1Mix block) (max 16 i) w) :
    (hashRound i (w, x)).2 = sha1Round i (schedule sha1Mix block i) x := by
  have hword : (nextWord i w).read i = schedule sha1Mix block i :=
    holds_nextWord h i (by omega) (by omega)
  have h5 : sha1Rol32 x.a 5 = rotateLeft x.a 5 := sha1Rol32_eq x.a (by decide) (by decide)
  have h30 : sha1Rol32 x.b 30 = rotateLeft x.b 30 := sha1Rol32_eq x.b (by decide) (by decide)
  simp only [hashRound, roundTerm_eq, hword, h5, h30, sha1Round]
  congr 1
  ac_rfl

/-! ## The buffer -/

/-- The bytes of the buffer in the order in which they came. -/
def blockBytes (buffer : Vector UInt8 64) : Bytes :=
  (List.range 64).map fun place ↦ buffer.toList.getD (place ^^^ 3) 0

theorem length_blockBytes (buffer : Vector UInt8 64) : (blockBytes buffer).length = 64 := by
  rw [blockBytes, List.length_map, List.length_range]

theorem mirror_eq : ∀ place < 64, place ^^^ 3 = 4 * (place / 4) + (3 - place % 4) := by decide

/-- Four bytes in mirrored places are a word with the most significant byte first. -/
theorem unionWord_eq (buffer : Vector UInt8 64) {index : ℕ} (hindex : index < 16) :
    unionWord buffer.toList index = blockWord (blockBytes buffer) index := by
  have hbytes : ((blockBytes buffer).drop (4 * index)).take 4 =
      ((buffer.toList.drop (4 * index)).take 4).reverse := by
    apply List.ext_getElem
    · simp only [List.length_take, List.length_drop, length_blockBytes, List.length_reverse,
        Vector.length_toList]
    · intro place hplace _
      have hlt : place < 4 := by
        rw [List.length_take] at hplace
        omega
      have hmirror := mirror_eq (4 * index + place) (by omega)
      have hplaces : 4 * index + (4 - 1 - place) = (4 * index + place) ^^^ 3 := by omega
      have hlength : ((buffer.toList.drop (4 * index)).take 4).length = 4 := by
        rw [List.length_take, List.length_drop, Vector.length_toList]
        omega
      have hin : (4 * index + place) ^^^ 3 < buffer.toList.length := by
        rw [Vector.length_toList]
        omega
      simp only [List.getElem_take, List.getElem_drop, List.getElem_reverse, blockBytes,
        List.getElem_map, List.getElem_range, hlength, hplaces,
        List.getD_eq_getElem buffer.toList 0 hin]
  rw [unionWord, getUi32, blockWord, beWord, beNat, hbytes, List.reverse_reverse]

theorem holds_bufferWords (buffer : Vector UInt8 64) :
    Holds (schedule sha1Mix (blockBytes buffer)) 16 (bufferWords buffer) := by
  intro index hindex _
  have hmod : index % 16 = index := Nat.mod_eq_of_lt hindex
  rw [schedule_of_lt hindex, ← unionWord_eq buffer hindex, Window.read, bufferWords]
  simp only [Vector.getElem_ofFn, hmod]

theorem sha1HashBlock_state (s : Sha1nfo) :
    (sha1HashBlock s).state = sha1Compress s.state (blockBytes s.buffer) := by
  have hrounds := loop_related hashRound
    (fun time ↦ sha1Round time (schedule sha1Mix (blockBytes s.buffer) time))
    (fun i loc x ↦ Holds (schedule sha1Mix (blockBytes s.buffer)) (max 16 i) loc.1 ∧ loc.2 = x)
    80 (bufferWords s.buffer, s.state) s.state ⟨holds_bufferWords s.buffer, rfl⟩ ?_
  · exact congrArg s.state.add hrounds.2
  · intro i loc x hi h
    exact ⟨holds_nextWord h.1, by rw [← h.2]; exact hashRound_eq loc.2 h.1⟩

/-! ## The stream -/

/-- The bytes that wait for their block. -/
def waitingBytes (s : Sha1nfo) : Bytes := (blockBytes s.buffer).take s.bufferOffset

theorem length_waitingBytes (s : Sha1nfo) : (waitingBytes s).length = s.bufferOffset := by
  have hlt := s.bufferOffset.isLt
  rw [waitingBytes, List.length_take, length_blockBytes]
  omega

/-- A byte in its mirrored place is the next byte of the block. -/
theorem blockBytes_set (buffer : Vector UInt8 64) (offset : Fin 64) (data : UInt8) :
    blockBytes (buffer.set (offset.val ^^^ 3) data (mirror_lt offset)) =
      (blockBytes buffer).set offset data := by
  apply List.ext_getElem
  · rw [List.length_set, length_blockBytes, length_blockBytes]
  · intro place hplace _
    rw [length_blockBytes] at hplace
    have hmirror := mirror_eq place hplace
    have hmirror' := mirror_eq offset.val offset.isLt
    have hin : place ^^^ 3 < 64 := by omega
    have hsame : (offset.val ^^^ 3 = place ^^^ 3) ↔ (offset.val = place) := by omega
    have hset : place ^^^ 3 < (buffer.toList.set (offset.val ^^^ 3) data).length := by
      rwa [List.length_set, Vector.length_toList]
    simp only [List.getElem_set, blockBytes, List.getElem_map, List.getElem_range,
      Vector.toList_set, List.getD_eq_getElem _ _ hset, hsame]
    split
    case isTrue => rfl
    case isFalse => rw [List.getD_eq_getElem _ _ (by rwa [Vector.length_toList])]

theorem addUncounted_spec (s : Sha1nfo) (data : UInt8) :
    ((sha1AddUncounted s data).state, waitingBytes (sha1AddUncounted s data)) =
      absorbByte sha1Compress 64 (s.state, waitingBytes s) data := by
  have htake : ((blockBytes s.buffer).set s.bufferOffset data).take (s.bufferOffset + 1) =
      waitingBytes s ++ [data] := by
    rw [take_set_succ (by rw [length_blockBytes]; exact s.bufferOffset.isLt), waitingBytes]
  rw [absorbByte, List.length_append, length_waitingBytes, List.length_singleton, ← htake,
    ← blockBytes_set, sha1AddUncounted]
  by_cases hfull : s.bufferOffset.val + 1 = 64
  · have hall : (blockBytes (s.buffer.set (s.bufferOffset.val ^^^ 3) data
        (mirror_lt s.bufferOffset))).take (s.bufferOffset + 1) = blockBytes
          (s.buffer.set (s.bufferOffset.val ^^^ 3) data (mirror_lt s.bufferOffset)) :=
      List.take_of_length_le (by rw [length_blockBytes, hfull])
    rw [dif_pos hfull, if_pos hfull, hall]
    exact Prod.ext (sha1HashBlock_state _) rfl
  · rw [dif_neg hfull, if_neg hfull]
    rfl

/-- The stream as a byte-wise implementation of the standard's block hash. -/
def sha1Stream : Streaming Sha1nfo Words5 sha1Compress 64 where
  push := sha1AddUncounted
  chain := Sha1nfo.state
  pending := waitingBytes
  push_spec := addUncounted_spec

theorem sha1Fill_eq (fuel : ℕ) (s : Sha1nfo) : sha1Fill fuel s = sha1Stream.fillTo 56 fuel s := by
  induction fuel generalizing s with
  | zero => rfl
  | succ fuel ih =>
    have hlength : (sha1Stream.pending s).length = s.bufferOffset := length_waitingBytes s
    rw [sha1Fill, Streaming.fillTo, hlength, ih]
    rfl

/-- The count of bytes plays no part in what a byte does. -/
theorem addUncounted_byteCount (s : Sha1nfo) (data : UInt8) (count : UInt32) :
    { sha1AddUncounted s data with byteCount := count } =
      sha1AddUncounted { s with byteCount := count } data := by
  rw [sha1AddUncounted, sha1AddUncounted]
  by_cases hfull : s.bufferOffset.val + 1 = 64
  · rw [dif_pos hfull, dif_pos hfull]
    simp only [sha1HashBlock]
  · rw [dif_neg hfull, dif_neg hfull]

theorem byteCount_addUncounted (s : Sha1nfo) (data : UInt8) :
    (sha1AddUncounted s data).byteCount = s.byteCount := by
  by_cases hfull : s.bufferOffset.val + 1 = 64
  · simp only [sha1AddUncounted, dif_pos hfull, sha1HashBlock]
  · simp only [sha1AddUncounted, dif_neg hfull]

theorem byteCount_foldl (s : Sha1nfo) (data : Bytes) :
    (data.foldl sha1AddUncounted s).byteCount = s.byteCount := by
  induction data generalizing s with
  | nil => rfl
  | cons byte rest ih => rw [List.foldl_cons, ih, byteCount_addUncounted]

/-- The fields of the keyed hash are not touched. -/
theorem kept_addUncounted (s : Sha1nfo) (data : UInt8) :
    (sha1AddUncounted s data).keyBuffer = s.keyBuffer ∧
      (sha1AddUncounted s data).innerHash = s.innerHash := by
  by_cases hfull : s.bufferOffset.val + 1 = 64
  · simp only [sha1AddUncounted, dif_pos hfull, sha1HashBlock, and_self]
  · simp only [sha1AddUncounted, dif_neg hfull, and_self]

theorem kept_foldl (s : Sha1nfo) (data : Bytes) :
    (data.foldl sha1AddUncounted s).keyBuffer = s.keyBuffer ∧
      (data.foldl sha1AddUncounted s).innerHash = s.innerHash := by
  induction data generalizing s with
  | nil => exact ⟨rfl, rfl⟩
  | cons byte rest ih =>
    obtain ⟨hkey, hhash⟩ := kept_addUncounted s byte
    rw [List.foldl_cons, (ih _).1, (ih _).2, hkey, hhash]
    exact ⟨rfl, rfl⟩

/-- The count can be moved in front of the bytes. -/
theorem sha1Write_eq (s : Sha1nfo) (data : Bytes) :
    sha1Write s data = data.foldl sha1AddUncounted
      { s with byteCount := s.byteCount + UInt32.ofNat data.length } := by
  induction data generalizing s with
  | nil => exact congrArg (fun count ↦ { s with byteCount := count }) (UInt32.add_zero _).symm
  | cons byte rest ih =>
    have hcount : s.byteCount + 1 + UInt32.ofNat rest.length =
        s.byteCount + UInt32.ofNat (byte :: rest).length := by
      rw [List.length_cons, Nat.add_comm, UInt32.ofNat_add, UInt32.add_assoc]
      rfl
    have hstep : { sha1Writebyte s byte with
        byteCount := (sha1Writebyte s byte).byteCount + UInt32.ofNat rest.length } =
        sha1AddUncounted { s with byteCount := s.byteCount + UInt32.ofNat (byte :: rest).length }
          byte := by
      rw [sha1Writebyte, byteCount_addUncounted, hcount, addUncounted_byteCount]
    have hcons := ih (sha1Writebyte s byte)
    rw [hstep] at hcons
    exact hcons

theorem innerHash_write (s : Sha1nfo) (data : Bytes) :
    (sha1Write s data).innerHash = s.innerHash := by
  rw [sha1Write_eq, (kept_foldl _ data).2]

theorem sha1Write_append (s : Sha1nfo) (first second : Bytes) :
    sha1Write s (first ++ second) = sha1Write (sha1Write s first) second := List.foldl_append

theorem sha1Write_flatten (s : Sha1nfo) (pieces : List Bytes) :
    pieces.foldl sha1Write s = sha1Write s pieces.flatten := by
  induction pieces generalizing s with
  | nil => rfl
  | cons piece rest ih => rw [List.foldl_cons, ih, List.flatten_cons, sha1Write_append]

/-! ## The end of the message -/

/-- The length field: a count below 2 ^ 32 in bits has its eight bytes. -/
theorem sha1Length_eq {size : ℕ} (hsize : size < 2 ^ 32) :
    sha1Length (UInt32.ofNat size) = beBytes 8 (8 * size) := by
  have hcount : (UInt32.ofNat size).toNat = size := by
    rw [UInt32.toNat_ofNat']
    exact Nat.mod_eq_of_lt hsize
  have hshift : ∀ count : ℕ, count < 32 →
      (UInt32.ofNat size >>> UInt32.ofNat count).toUInt8 = UInt8.ofNat (size / 2 ^ count) := by
    intro count hlt
    have hmod : (UInt32.ofNat count).toNat % 32 = count := by
      rw [UInt32.toNat_ofNat']
      omega
    apply UInt8.toNat_inj.mp
    rw [UInt32.toNat_toUInt8, UInt32.toNat_shiftRight, hmod, hcount, UInt8.toNat_ofNat',
      Nat.shiftRight_eq_div_pow]
  have hlow : (UInt32.ofNat size <<< (3 : UInt32)).toUInt8 = UInt8.ofNat (8 * size) := by
    have hthree : (3 : UInt32).toNat % 32 = 3 := rfl
    apply UInt8.toNat_inj.mp
    rw [UInt32.toNat_toUInt8, UInt32.toNat_shiftLeft, hthree, hcount, UInt8.toNat_ofNat',
      Nat.shiftLeft_eq]
    omega
  have hhigh : ∀ place, 5 ≤ place → 8 * size / 256 ^ place = 0 := by
    intro place hplace
    apply Nat.div_eq_of_lt
    calc 8 * size < 256 ^ 5 := by omega
      _ ≤ 256 ^ place := Nat.pow_le_pow_right (by decide) hplace
  have hmiddle : ∀ count place, 8 * size / 256 ^ place = size / 2 ^ count →
      UInt8.ofNat (8 * size / 256 ^ place) = UInt8.ofNat (size / 2 ^ count) :=
    fun _ _ h ↦ congrArg UInt8.ofNat h
  rw [beBytes_eq_map]
  simp only [List.range_succ, List.range_zero, List.nil_append, List.cons_append, List.map_cons,
    List.map_nil, Nat.sub_zero, Nat.add_one_sub_one, Nat.reduceSub]
  rw [hhigh 7 (by decide), hhigh 6 (by decide), hhigh 5 (by decide), hmiddle 29 4 (by omega),
    hmiddle 21 3 (by omega), hmiddle 13 2 (by omega), hmiddle 5 1 (by omega), Nat.pow_zero,
    Nat.div_one, ← hlow, ← hshift 29 (by decide), ← hshift 21 (by decide), ← hshift 13 (by decide),
    ← hshift 5 (by decide)]
  rfl

/-- One byte of a number, left in its place. -/
theorem and_byte (value count : ℕ) :
    value &&& 255 * 2 ^ count = value / 2 ^ count % 256 * 2 ^ count := by
  apply Nat.eq_of_testBit_eq
  intro index
  have hmask : ∀ bit, (255 : ℕ).testBit bit = decide (bit < 8) := fun bit ↦
    Nat.testBit_two_pow_sub_one 8 bit
  have hmod : ∀ bit, (value / 2 ^ count % 256).testBit bit =
      (decide (bit < 8) && (value / 2 ^ count).testBit bit) := fun bit ↦
    Nat.testBit_mod_two_pow _ 8 bit
  rw [Nat.testBit_and, Nat.testBit_mul_two_pow, Nat.testBit_mul_two_pow, hmask, hmod,
    Nat.testBit_div_two_pow]
  by_cases hle : count ≤ index
  · rw [Nat.sub_add_cancel hle, decide_eq_true hle, Bool.true_and, Bool.true_and, Bool.and_comm]
  · rw [decide_eq_false hle, Bool.false_and, Bool.false_and, Bool.and_false]

theorem toNat_swapWord (a : UInt32) :
    (swapWord a).toNat = a.toNat / 2 ^ 24 + 256 * (a.toNat / 2 ^ 16 % 256 +
      256 * (a.toNat / 2 ^ 8 % 256 + 256 * (a.toNat % 256))) := by
  have hlt := a.toNat_lt
  have hup : a.toNat <<< 24 % 2 ^ 32 = 2 ^ 24 * (a.toNat % 256) := by
    rw [Nat.shiftLeft_eq]
    omega
  have hleft : a.toNat <<< 8 % 2 ^ 32 &&& 255 * 2 ^ 16 = 2 ^ 16 * (a.toNat / 2 ^ 8 % 256) := by
    rw [and_byte, Nat.shiftLeft_eq]
    omega
  have hright : a.toNat >>> 8 &&& 255 * 2 ^ 8 = 2 ^ 8 * (a.toNat / 2 ^ 16 % 256) := by
    rw [and_byte, Nat.shiftRight_eq_div_pow]
    omega
  have hdown : a.toNat >>> 24 = a.toNat / 2 ^ 24 := Nat.shiftRight_eq_div_pow _ _
  rw [swapWord, UInt32.toNat_or, UInt32.toNat_or, UInt32.toNat_or, UInt32.toNat_and,
    UInt32.toNat_and, UInt32.toNat_shiftLeft, UInt32.toNat_shiftLeft, UInt32.toNat_shiftRight,
    UInt32.toNat_shiftRight]
  calc a.toNat <<< 24 % 2 ^ 32 ||| (a.toNat <<< 8 % 2 ^ 32 &&& 255 * 2 ^ 16) |||
          (a.toNat >>> 8 &&& 255 * 2 ^ 8) ||| a.toNat >>> 24
      = 2 ^ 24 * (a.toNat % 256) ||| 2 ^ 16 * (a.toNat / 2 ^ 8 % 256) |||
          2 ^ 8 * (a.toNat / 2 ^ 16 % 256) ||| a.toNat / 2 ^ 24 := by
        rw [hup, hleft, hright, hdown]
    _ = _ := or_bytes (by omega) (by omega) (by omega)

/-- A union of words that are swapped has the bytes of the words, most significant first. -/
theorem le32_swapWord (a : UInt32) : le32 (swapWord a) = wordBytes a := by
  have hlt := a.toNat_lt
  have hbytes : wordBytes a = [UInt8.ofNat (a.toNat / 256 ^ 3), UInt8.ofNat (a.toNat / 256 ^ 2),
      UInt8.ofNat (a.toNat / 256 ^ 1), UInt8.ofNat (a.toNat / 256 ^ 0)] := by
    rw [wordBytes, beBytes_eq_map]
    rfl
  have hvalue : (swapWord a).toNat = leNat (wordBytes a) := by
    have htop : a.toNat / 256 ^ 3 % 2 ^ 8 = a.toNat / 2 ^ 24 := by omega
    have hzero : a.toNat / 256 ^ 0 = a.toNat := by rw [Nat.pow_zero, Nat.div_one]
    rw [toNat_swapWord, hbytes]
    simp only [leNat, UInt8.toNat_ofNat', htop, hzero, Nat.mul_zero, Nat.add_zero]
    rfl
  have hround := leBytes_leNat (wordBytes a)
  rw [wordBytes, length_beBytes, ← wordBytes, ← hvalue] at hround
  exact hround

theorem stateBytes_swapState (x : Words5) : stateBytes (swapState x) = x.toBytes := by
  simp only [stateBytes, swapState, le32_swapWord, Words5.toBytes]

/-- Padding a written message leaves the standard's digest in the state. -/
theorem sha1Result_write (s : Sha1nfo) {data : Bytes} (hlength : data.length < 2 ^ 32) :
    ∃ done, sha1Result (sha1Write (sha1Init s) data) = some (done, SecureHash.sha1 data) ∧
      done.keyBuffer = s.keyBuffer := by
  let start : Sha1nfo := { sha1Init s with byteCount := UInt32.ofNat data.length }
  have hempty : sha1Stream.pending start = [] := rfl
  have hwrite : sha1Write (sha1Init s) data = data.foldl sha1AddUncounted start := by
    rw [sha1Write_eq]
    exact congrArg (fun count ↦ data.foldl sha1AddUncounted { sha1Init s with byteCount := count })
      (UInt32.zero_add _)
  have hcount : (data.foldl sha1AddUncounted start).byteCount = UInt32.ofNat data.length :=
    byteCount_foldl start data
  have hfill : sha1Fill 64 (sha1AddUncounted (data.foldl sha1AddUncounted start) 0x80) =
      some ((data ++ 0x80 :: List.replicate (padZeros 64 8 data.length) 0).foldl
        sha1AddUncounted start) :=
    (sha1Fill_eq _ _).trans (sha1Stream.fillTo_end (by decide) 8 64 (by decide)
      (by decide) (by decide) hempty data)
  have hpad : sha1Pad (data.foldl sha1AddUncounted start) =
      some ((padMessage 64 8 data).foldl sha1AddUncounted start) := by
    rw [sha1Pad, hfill, Option.map_some, hcount, sha1Length_eq hlength, ← List.foldl_append,
      padMessage]
  have hdigest : ((padMessage 64 8 data).foldl sha1AddUncounted start).state =
      digest sha1Compress 64 8 sha1Start data := by
    have hstart : start.state = sha1Start := sha1Init_state s
    rw [← hstart]
    exact sha1Stream.chain_foldl_push (by decide) hempty 8 data
  let padded := (padMessage 64 8 data).foldl sha1AddUncounted start
  refine ⟨{ padded with state := swapState padded.state }, ?_, (kept_foldl start _).1⟩
  rw [hwrite, sha1Result, hpad, Option.map_some, stateBytes_swapState, hdigest, SecureHash.sha1]

/-- The digest that a written message leaves behind. -/
theorem snd_sha1Result (s : Sha1nfo) {data : Bytes} (hlength : data.length < 2 ^ 32) :
    (sha1Result (sha1Write (sha1Init s) data)).map Prod.snd = some (SecureHash.sha1 data) := by
  obtain ⟨done, hdone, -⟩ := sha1Result_write s hlength
  rw [hdone, Option.map_some]

/-- In one call. -/
theorem sha1_eq (s : Sha1nfo) {data : Bytes} (hlength : data.length < 2 ^ 32) :
    sha1 s data = some (SecureHash.sha1 data) := snd_sha1Result s hlength

/-- A message that is written in any pieces has the standard's digest. -/
theorem sha1_pieces (s : Sha1nfo) {pieces : List Bytes} (hlength : pieces.flatten.length < 2 ^ 32) :
    (sha1Result (pieces.foldl sha1Write (sha1Init s))).map Prod.snd =
      some (SecureHash.sha1 pieces.flatten) := by
  rw [sha1Write_flatten, snd_sha1Result s hlength]

/-- Some state of a stream that is in the middle of another message. -/
def usedState : Sha1nfo where
  buffer := Vector.replicate 64 9
  bufferOffset := ⟨5, by decide⟩
  state := ⟨1, 2, 3, 4, 5⟩
  byteCount := 77
  keyBuffer := List.replicate 64 1
  innerHash := List.replicate 20 2

theorem sha1_pieces_three :
    (sha1Result ([[], [97, 98], [99]].foldl sha1Write (sha1Init usedState))).map Prod.snd =
      some (SecureHash.sha1 [97, 98, 99]) :=
  @sha1_pieces usedState [[], [97, 98], [99]] (by decide)

/-! ## The keyed digest -/

theorem length_sha1 (message : Bytes) : (SecureHash.sha1 message).length = 20 := by
  simp only [SecureHash.sha1, Words5.toBytes, List.length_append, wordBytes, length_beBytes]

theorem overwrite_zeros (source : Bytes) :
    overwrite (List.replicate 64 0) 0 source =
      source ++ List.replicate (64 - source.length) 0 := by
  rw [overwrite, List.take_zero, List.nil_append, Nat.zero_add, List.drop_replicate]

theorem length_hmacKey (key : Bytes) : (hmacKey SecureHash.sha1 64 key).length = 64 := by
  rw [hmacKey, List.length_append, List.length_replicate]
  split
  case isTrue => rw [length_sha1]
  case isFalse => omega

/-- The key of any length that an `int` can say, filled up or hashed, and then the inner pad. -/
theorem sha1InitHmac_eq (s : Sha1nfo) {key : Bytes} (hkey : key.length < 2 ^ 31) :
    ∃ start : Sha1nfo, start.keyBuffer = hmacKey SecureHash.sha1 64 key ∧
      sha1InitHmac s key (Int32.ofNat key.length) =
        some (sha1Write (sha1Init start) ((hmacKey SecureHash.sha1 64 key).map (· ^^^ 0x36))) := by
  have hint : (Int32.ofNat key.length).toInt = key.length := Int32.toInt_ofNat_of_lt hkey
  have hblock : (64 : Int32).toInt = 64 := rfl
  have hcompare : 64 < Int32.ofNat key.length ↔ 64 < key.length := by
    rw [Int32.lt_iff_toInt_lt, hint, hblock]
    omega
  have hsign : ¬ Int32.ofNat key.length < 0 := by
    rw [Int32.lt_iff_toInt_lt, hint, Int32.toInt_zero]
    omega
  have htaken : key.take (Int32.ofNat key.length).toInt.toNat = key := by
    rw [hint, Int.toNat_natCast, List.take_length]
  by_cases hlong : 64 < key.length
  · obtain ⟨done, hdone, hbuffer⟩ :=
      sha1Result_write { s with keyBuffer := List.replicate 64 0 } (hkey.trans (by decide))
    have hkeyed : overwrite done.keyBuffer 0 (SecureHash.sha1 key) =
        hmacKey SecureHash.sha1 64 key := by
      rw [hbuffer, overwrite_zeros, hmacKey, if_pos hlong]
    refine ⟨{ done with keyBuffer := hmacKey SecureHash.sha1 64 key }, rfl, ?_⟩
    rw [sha1InitHmac, htaken, if_pos (hcompare.mpr hlong), hdone, Option.map_some, Option.map_some,
      hkeyed]
  · have hkeyed : overwrite (List.replicate 64 0) 0 key = hmacKey SecureHash.sha1 64 key := by
      rw [overwrite_zeros, hmacKey, if_neg hlong]
    refine ⟨{ s with keyBuffer := hmacKey SecureHash.sha1 64 key }, rfl, ?_⟩
    rw [sha1InitHmac, htaken, if_neg (hcompare.not.mpr hlong), if_neg hsign, Option.map_some, hkeyed]

/-- The keyed digest of a message that is written in any pieces, under a key of any length that an
`int` can say. -/
theorem sha1Hmac_pieces (s : Sha1nfo) {key : Bytes} {pieces : List Bytes}
    (hkey : key.length < 2 ^ 31) (hlength : 64 + pieces.flatten.length < 2 ^ 32) :
    ((sha1InitHmac s key (Int32.ofNat key.length)).bind fun keyed ↦
        sha1ResultHmac (pieces.foldl sha1Write keyed)) =
      some (hmac SecureHash.sha1 64 key pieces.flatten) := by
  obtain ⟨start, hbuffer, hinit⟩ := sha1InitHmac_eq s hkey
  let inner := (hmacKey SecureHash.sha1 64 key).map (· ^^^ 0x36) ++ pieces.flatten
  let outer := (hmacKey SecureHash.sha1 64 key).map (· ^^^ 0x5c)
  have hinner : inner.length < 2 ^ 32 := by
    simpa only [inner, List.length_append, List.length_map, length_hmacKey] using hlength
  have houter : (outer ++ SecureHash.sha1 inner).length < 2 ^ 32 := by
    simp only [outer, List.length_append, List.length_map, length_hmacKey, length_sha1]
    decide
  obtain ⟨first, hfirst, hkept⟩ := sha1Result_write start hinner
  let last : Sha1nfo := { first with innerHash := SecureHash.sha1 inner }
  have hwritten : (sha1Write (sha1Init last) outer).innerHash = SecureHash.sha1 inner :=
    innerHash_write _ outer
  have hlast : last.keyBuffer.map (· ^^^ 0x5c) = outer :=
    congrArg (List.map (· ^^^ 0x5c)) (hkept.trans hbuffer)
  rw [hinit, Option.bind_some, sha1Write_flatten, ← sha1Write_append, sha1ResultHmac, hfirst,
    Option.bind_some]
  change (sha1Result (sha1Write (sha1Write (sha1Init last) (last.keyBuffer.map (· ^^^ 0x5c)))
    (sha1Write (sha1Init last) (last.keyBuffer.map (· ^^^ 0x5c))).innerHash)).map Prod.snd = _
  rw [hlast, hwritten, ← sha1Write_append, snd_sha1Result last houter]
  rfl

/-- A key that is longer than a block. -/
theorem sha1Hmac_pieces_three :
    ((sha1InitHmac usedState (List.replicate 80 3)
        (Int32.ofNat (List.replicate 80 (3 : UInt8)).length)).bind fun keyed ↦
        sha1ResultHmac ([[], [97, 98], [99]].foldl sha1Write keyed)) =
      some (hmac SecureHash.sha1 64 (List.replicate 80 3) [97, 98, 99]) :=
  @sha1Hmac_pieces usedState (List.replicate 80 3) [[], [97, 98], [99]] (by decide) (by decide)

end LibTg.Crypto
