import LibTg.Data.BigEndian
import LibTg.Data.Loop
import Mathlib.Data.List.Induction

/-!
# Hash functions over blocks

A hash function in the style of Merkle and Damgård pads its message to a whole number of blocks and
compresses one block after the other into a chaining value. An implementation that reads its message
byte by byte keeps the bytes of the block that is not yet full. The library relates the two for any
block length, chaining value and compression function.
-/

namespace LibTg

section Absorb

variable {Chain : Type*} (compress : Chain → Bytes → Chain) (width : ℕ)

/-- The chaining value behind the first `count` blocks of a message. -/
def hashBlocks : ℕ → Chain → Bytes → Chain
  | 0, chain, _ => chain
  | count + 1, chain, message =>
    hashBlocks count (compress chain (message.take width)) (message.drop width)

/-- One more byte: a block that is full is compressed at once. -/
def absorbByte (state : Chain × Bytes) (byte : UInt8) : Chain × Bytes :=
  if (state.2 ++ [byte]).length = width then (compress state.1 (state.2 ++ [byte]), [])
  else (state.1, state.2 ++ [byte])

variable {compress width}

/-- The blocks that are read do not depend on what follows them. -/
theorem hashBlocks_append {count : ℕ} {message : Bytes} (chain : Chain) (rest : Bytes)
    (hlength : count * width ≤ message.length) :
    hashBlocks compress width count chain (message ++ rest) =
      hashBlocks compress width count chain message := by
  induction count generalizing chain message with
  | zero => rfl
  | succ count ih =>
    have hwidth : width ≤ message.length := le_trans (Nat.le_mul_of_pos_left _ count.succ_pos) hlength
    have hrest : count * width ≤ (message.drop width).length := by
      rw [List.length_drop]
      rw [Nat.succ_mul] at hlength
      omega
    rw [hashBlocks, hashBlocks, List.take_append_of_le_length hwidth,
      List.drop_append_of_le_length hwidth, ih _ hrest]

/-- The last block can be split off. -/
theorem hashBlocks_succ (count : ℕ) (chain : Chain) (message : Bytes) :
    hashBlocks compress width (count + 1) chain message =
      compress (hashBlocks compress width count chain message)
        ((message.drop (count * width)).take width) := by
  induction count generalizing chain message with
  | zero => rw [hashBlocks, hashBlocks, hashBlocks, Nat.zero_mul, List.drop_zero]
  | succ count ih =>
    rw [hashBlocks, ih, hashBlocks, List.drop_drop, Nat.succ_mul, Nat.add_comm width]

/-- Reading a message byte by byte compresses its complete blocks and keeps the rest. -/
theorem foldl_absorbByte (hwidth : 0 < width) (chain : Chain) (message : Bytes) :
    message.foldl (absorbByte compress width) (chain, []) =
      (hashBlocks compress width (message.length / width) chain message,
        message.drop (message.length / width * width)) := by
  induction message using List.reverseRecOn with
  | nil => rw [List.foldl_nil, List.length_nil, Nat.zero_div, hashBlocks, List.drop_nil]
  | append_singleton message byte ih =>
    have hsum : message.length / width * width + message.length % width = message.length :=
      Nat.div_add_mod' message.length width
    have hmod : message.length % width < width := Nat.mod_lt _ hwidth
    have hpending : message.drop (message.length / width * width) ++ [byte] =
        (message ++ [byte]).drop (message.length / width * width) :=
      (List.drop_append_of_le_length (by omega)).symm
    have hlength : ((message ++ [byte]).drop (message.length / width * width)).length =
        message.length % width + 1 := by
      rw [List.length_drop, List.length_append, List.length_singleton]
      omega
    rw [List.foldl_append, ih, List.foldl_cons, List.foldl_nil, absorbByte, hpending, hlength,
      List.length_append, List.length_singleton]
    by_cases hblock : message.length % width + 1 = width
    · have hnext : message.length + 1 = (message.length / width + 1) * width := by
        rw [Nat.succ_mul]
        omega
      have hdiv : (message.length + 1) / width = message.length / width + 1 := by
        rw [hnext, Nat.mul_div_cancel _ hwidth]
      have hall : (message ++ [byte]).drop ((message.length / width + 1) * width) = [] := by
        rw [List.drop_eq_nil_iff, List.length_append, List.length_singleton]
        exact hnext.le
      have hlast : ((message ++ [byte]).drop (message.length / width * width)).take width =
          (message ++ [byte]).drop (message.length / width * width) :=
        List.take_of_length_le (by rw [hlength, hblock])
      rw [if_pos hblock, hdiv, hall, hashBlocks_succ, hlast,
        hashBlocks_append chain [byte] (Nat.div_mul_le_self _ _)]
    · have hdiv : (message.length + 1) / width = message.length / width := by
        refine Nat.div_eq_of_lt_le (by omega) ?_
        rw [Nat.succ_mul]
        omega
      rw [if_neg hblock, hdiv, hashBlocks_append chain [byte] (Nat.div_mul_le_self _ _)]

/-- Once the length is a whole number of blocks, nothing is left over. -/
theorem foldl_absorbByte_of_dvd (hwidth : 0 < width) (chain : Chain) {message : Bytes}
    (hdvd : width ∣ message.length) :
    message.foldl (absorbByte compress width) (chain, []) =
      (hashBlocks compress width (message.length / width) chain message, []) := by
  rw [foldl_absorbByte hwidth, Nat.div_mul_cancel hdvd, List.drop_length]

end Absorb

/-! ## Padding -/

/-- The zeros between the end mark of a message and its length field. -/
def padZeros (width field size : ℕ) : ℕ := (width - (size + 1 + field) % width) % width

/-- The padded message: an end mark, zeros, and in the last `field` bytes the length in bits. -/
def padMessage (width field : ℕ) (message : Bytes) : Bytes :=
  message ++ 0x80 :: List.replicate (padZeros width field message.length) 0 ++
    beBytes field (8 * message.length)

/-- The digest of a message as a chaining value. -/
def digest {Chain : Type*} (compress : Chain → Bytes → Chain) (width field : ℕ) (start : Chain)
    (message : Bytes) : Chain :=
  hashBlocks compress width ((padMessage width field message).length / width) start
    (padMessage width field message)

theorem length_padMessage (width field : ℕ) (message : Bytes) :
    (padMessage width field message).length =
      message.length + 1 + padZeros width field message.length + field := by
  simp only [padMessage, List.length_append, List.length_cons, List.length_replicate,
    length_beBytes]
  omega

theorem dvd_length_padMessage {width : ℕ} (hwidth : 0 < width) (field : ℕ) (message : Bytes) :
    width ∣ (padMessage width field message).length := by
  have hsum := Nat.div_add_mod (message.length + 1 + field) width
  have hmod := Nat.mod_lt (message.length + 1 + field) hwidth
  rw [length_padMessage, padZeros]
  by_cases hzero : (message.length + 1 + field) % width = 0
  · rw [hzero, Nat.sub_zero, Nat.mod_self]
    exact Nat.dvd_of_mod_eq_zero hzero
  · rw [Nat.mod_eq_of_lt (a := width - _) (by omega)]
    refine ⟨(message.length + 1 + field) / width + 1, ?_⟩
    rw [Nat.mul_succ]
    omega

/-! ## Implementations that read byte by byte -/

/-- Bytes that fill a buffer from the front. -/
theorem take_set_succ {bytes : Bytes} {index : ℕ} (hindex : index < bytes.length) (byte : UInt8) :
    (bytes.set index byte).take (index + 1) = bytes.take index ++ [byte] := by
  have hset : index < (bytes.set index byte).length := by rwa [List.length_set]
  rw [List.take_succ_eq_append_getElem hset, List.getElem_set_self, List.take_set,
    List.set_eq_of_length_le (List.length_take_le _ _)]

/-- A byte-wise implementation of a block hash: its state holds a chaining value and the bytes that
are pending, and one byte more acts on both as in the definition. -/
structure Streaming (State Chain : Type*) (compress : Chain → Bytes → Chain) (width : ℕ) where
  push : State → UInt8 → State
  chain : State → Chain
  pending : State → Bytes
  push_spec : ∀ state byte,
    (chain (push state byte), pending (push state byte)) =
      absorbByte compress width (chain state, pending state) byte

namespace Streaming

variable {State Chain : Type*} {compress : Chain → Bytes → Chain} {width : ℕ}
  (stream : Streaming State Chain compress width)

theorem foldl_push (state : State) (message : Bytes) :
    (stream.chain (message.foldl stream.push state),
        stream.pending (message.foldl stream.push state)) =
      message.foldl (absorbByte compress width) (stream.chain state, stream.pending state) := by
  induction message generalizing state with
  | nil => rfl
  | cons byte rest ih => rw [List.foldl_cons, List.foldl_cons, ih, stream.push_spec]

/-- A whole padded message leaves its digest in the chaining value. -/
theorem chain_foldl_push (hwidth : 0 < width) {state : State} (hempty : stream.pending state = [])
    (field : ℕ) (message : Bytes) :
    stream.chain ((padMessage width field message).foldl stream.push state) =
      digest compress width field (stream.chain state) message := by
  have hfold := stream.foldl_push state (padMessage width field message)
  rw [hempty, foldl_absorbByte_of_dvd hwidth _ (dvd_length_padMessage hwidth field message)] at hfold
  exact congrArg Prod.fst hfold

/-- How many bytes are pending behind a message. -/
theorem length_pending_foldl (hwidth : 0 < width) {state : State}
    (hempty : stream.pending state = []) (message : Bytes) :
    (stream.pending (message.foldl stream.push state)).length = message.length % width := by
  have hfold := stream.foldl_push state message
  rw [hempty, foldl_absorbByte hwidth] at hfold
  have hpending : stream.pending (message.foldl stream.push state) =
      message.drop (message.length / width * width) := congrArg Prod.snd hfold
  have hsum := Nat.div_add_mod' message.length width
  rw [hpending, List.length_drop]
  omega

/-- Zeros until `target` bytes are pending, for at most `fuel` rounds. -/
def fillTo (target : ℕ) : ℕ → State → Option State
  | 0, _ => none
  | fuel + 1, state =>
    if (stream.pending state).length = target then some state
    else fillTo target fuel (stream.push state 0)

/-- Behind a message the loop adds just the zeros that are missing, if it may run long enough. -/
theorem fillTo_foldl_push (hwidth : 0 < width) {state : State} (hempty : stream.pending state = [])
    {target missing fuel : ℕ} {message : Bytes} (hmissing : missing < width) (hfuel : missing < fuel)
    (htarget : (message.length + missing) % width = target) :
    stream.fillTo target fuel (message.foldl stream.push state) =
      some ((message ++ List.replicate missing 0).foldl stream.push state) := by
  induction missing generalizing message fuel with
  | zero =>
    obtain ⟨fuel, rfl⟩ := Nat.exists_eq_succ_of_ne_zero hfuel.ne'
    rw [Nat.add_zero] at htarget
    rw [fillTo, stream.length_pending_foldl hwidth hempty, if_pos htarget, List.replicate_zero,
      List.append_nil]
  | succ missing ih =>
    obtain ⟨fuel, rfl⟩ := Nat.exists_eq_succ_of_ne_zero (Nat.ne_zero_of_lt hfuel)
    have hne : message.length % width ≠ target := by
      intro heq
      rw [← heq, Nat.add_mod, Nat.mod_eq_of_lt hmissing] at htarget
      have hmod := Nat.mod_lt message.length hwidth
      by_cases hlt : message.length % width + (missing + 1) < width
      · rw [Nat.mod_eq_of_lt hlt] at htarget
        omega
      · rw [Nat.mod_eq_sub_mod (by omega), Nat.mod_eq_of_lt (by omega)] at htarget
        omega
    have hnext : stream.push (message.foldl stream.push state) 0 =
        (message ++ [0]).foldl stream.push state := by
      rw [List.foldl_append, List.foldl_cons, List.foldl_nil]
    have hlength : (message ++ [0]).length + missing = message.length + (missing + 1) := by
      rw [List.length_append, List.length_singleton]
      omega
    rw [fillTo, stream.length_pending_foldl hwidth hempty, if_neg hne, hnext,
      ih (Nat.lt_of_succ_lt hmissing) (by omega) (by rw [hlength]; exact htarget),
      List.append_assoc, List.singleton_append, List.replicate_succ]

/-- The end mark and the zeros, as the loop adds them, leave room for the length field. -/
theorem fillTo_end (hwidth : 0 < width) (field fuel : ℕ) (hfield : 0 < field) (hlt : field < width)
    (hfuel : width ≤ fuel) {state : State} (hempty : stream.pending state = []) (message : Bytes) :
    stream.fillTo (width - field) fuel (stream.push (message.foldl stream.push state) 0x80) =
      some ((message ++ 0x80 :: List.replicate (padZeros width field message.length) 0).foldl
        stream.push state) := by
  have hmark : stream.push (message.foldl stream.push state) 0x80 =
      (message ++ [0x80]).foldl stream.push state := by
    rw [List.foldl_append, List.foldl_cons, List.foldl_nil]
  have hzeros : padZeros width field message.length < width := Nat.mod_lt _ hwidth
  obtain ⟨blocks, hblocks⟩ := dvd_length_padMessage hwidth field message
  rw [length_padMessage] at hblocks
  have htarget : ((message ++ [0x80]).length + padZeros width field message.length) % width =
      width - field := by
    have hpos : 0 < blocks := by
      rcases Nat.eq_zero_or_pos blocks with rfl | hpos
      · omega
      · exact hpos
    obtain ⟨before, rfl⟩ := Nat.exists_eq_succ_of_ne_zero hpos.ne'
    have hsplit : (message ++ [0x80]).length + padZeros width field message.length =
        width * before + (width - field) := by
      rw [List.length_append, List.length_singleton]
      rw [Nat.mul_succ] at hblocks
      omega
    rw [hsplit, Nat.mul_add_mod, Nat.mod_eq_of_lt (by omega)]
  rw [hmark, stream.fillTo_foldl_push hwidth hempty hzeros (by omega) htarget, List.append_assoc,
    List.singleton_append]

end Streaming

end LibTg
