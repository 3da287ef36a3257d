import LibTg.Tl.Serialize

/-!
# Reading from a buffer (`tl/deserialize.c`)

The deserializers take a `buf_t *` and move its `data` pointer forward while they lower its `size`.
A `Cursor` is such a buffer: the block that `data` points into, the offset of `data` there and the
current `size`. Nothing compares the two, so a read beyond the block has no meaning and the model
answers `none`; the size wraps at 32 bits.

`cursorAt` is the cursor at a given position of a well-formed buffer. Each deserializer has one
lemma that says what it returns there and by how much it moves on.
-/

namespace LibTg.Tl

/-- The two kinds of targets: 32-bit `long` and pointers (armv7), or 64-bit ones (arm64, x86_64). -/
inductive DataModel where
  | ilp32
  | lp64
  deriving DecidableEq, Repr

/-- `data + count` as an offset. On a 32-bit target addresses wrap. -/
def ptrAdd (model : DataModel) (off count : ℤ) : ℤ :=
  match model with
  | .ilp32 => (off + count) % 2 ^ 32
  | .lp64 => off + count

/-- A `uint64_t` stored in a `long`. -/
def longOfUi64 (model : DataModel) (value : UInt64) : ℤ :=
  match model with
  | .ilp32 => (value.toNat : ℤ).bmod (2 ^ 32)
  | .lp64 => (value.toNat : ℤ).bmod (2 ^ 64)

/-- A `uint32_t` stored in an `int`. -/
def intOfUi32 (value : UInt32) : ℤ := (value.toNat : ℤ).bmod (2 ^ 32)

/-- A `buf_t` that is being read. -/
structure Cursor where
  block : Bytes
  off : ℤ
  size : UInt32
  deriving DecidableEq, Repr

/-- The `count` bytes at `data`. -/
def Cursor.read (cursor : Cursor) (count : ℕ) : Option Bytes :=
  if 0 ≤ cursor.off ∧ cursor.off + count ≤ cursor.block.length then
    some ((cursor.block.drop cursor.off.toNat).take count)
  else none

/-- `data += count; size -= count`, where `count` is a C `int` or `uint32_t`. -/
def Cursor.advance (model : DataModel) (cursor : Cursor) (count : ℤ) : Cursor :=
  ⟨cursor.block, ptrAdd model cursor.off count, cursor.size - UInt32.ofInt count⟩

/-- `buf_add(data, count)`, a copy of bytes at the cursor. -/
def Cursor.addBuf (cursor : Cursor) (count : ℕ) : Option Bytes := do
  let data ← cursor.read count
  let buf ← bufAdd (fun _ ↦ false) data
  some buf.bytes

section Deserialize

variable (model : DataModel)

def deserializeUi32 (cursor : Cursor) : Option (UInt32 × Cursor) := do
  let bytes ← cursor.read 4
  some (getUi32 bytes, cursor.advance model 4)

def deserializeUi64 (cursor : Cursor) : Option (UInt64 × Cursor) := do
  let bytes ← cursor.read 8
  some (getUi64 bytes, cursor.advance model 8)

/-- `deserialize_double`; a double is modelled by its bits. -/
def deserializeDouble (cursor : Cursor) : Option (UInt64 × Cursor) := do
  let bytes ← cursor.read 8
  some (getUi64 bytes, cursor.advance model 8)

/-- `deserialize_buf`. The `int` size is converted to `uint32_t` for the copy, but the pointer moves
by the signed value. -/
def deserializeBuf (cursor : Cursor) (size : ℤ) : Option (Bytes × Cursor) := do
  let bytes ← cursor.addBuf (UInt32.ofInt size).toNat
  some (bytes, cursor.advance model size)

/-- The end of `deserialize_bytes`: copy `len` bytes, skip them and the padding. -/
def deserializeTail (cursor : Cursor) (len offset : ℕ) : Option (Bytes × Cursor) := do
  let bytes ← cursor.addBuf len
  let cursor := cursor.advance model len
  let pad := (4 - (len + offset) % 4) % 4
  some (bytes, if pad ≠ 0 then cursor.advance model pad else cursor)

/-- `deserialize_bytes`. A first byte of `0xff` is only reported, and then read like `0xfe`. -/
def deserializeBytes (cursor : Cursor) : Option (Bytes × Cursor) := do
  let byte ← cursor.addBuf 4
  let first := byte.headD 0
  if first ≤ 253 then deserializeTail model (cursor.advance model 1) first.toNat 1
  else
    deserializeTail model (cursor.advance model 4) (leNat (byte.drop 1)) 0

/-- A `mtp_message_t`, with its `long` and `int` fields. -/
structure MtpMessage where
  msgId : ℤ
  seqno : ℤ
  bytes : ℤ
  body : Bytes
  deriving DecidableEq, Repr

def deserializeMtpMessage (cursor : Cursor) : Option (MtpMessage × Cursor) := do
  let (msgId, cursor) ← deserializeUi64 model cursor
  let (seqno, cursor) ← deserializeUi32 model cursor
  let (bytes, cursor) ← deserializeUi32 model cursor
  let (body, cursor) ← deserializeBuf model cursor (intOfUi32 bytes)
  some (⟨longOfUi64 model msgId, intOfUi32 seqno, intOfUi32 bytes, body⟩, cursor)

theorem bmod_two_pow_of_lt (value width : ℕ) (h : 2 * value < 2 ^ width) :
    (value : ℤ).bmod (2 ^ width) = value := by
  apply Int.bmod_eq_of_le_mul_two
  · have hvalue : (0 : ℤ) ≤ value := Int.natCast_nonneg _
    have hpow : (0 : ℤ) ≤ ((2 ^ width : ℕ) : ℤ) := Int.natCast_nonneg _
    omega
  · rw [Int.mul_comm]
    exact_mod_cast h

theorem intOfUi32_of_lt {value : UInt32} (h : value.toNat < 2 ^ 31) :
    intOfUi32 value = value.toNat :=
  bmod_two_pow_of_lt value.toNat 32 (by omega)

theorem ofInt_intOfUi32 (value : UInt32) : UInt32.ofInt (intOfUi32 value) = value := by
  apply UInt32.toNat_inj.mp
  have hlt := value.toNat_lt
  have hmod : intOfUi32 value % 2 ^ 32 = (value.toNat : ℤ) % 2 ^ 32 := Int.bmod_emod
  rw [UInt32.ofInt, hmod, UInt32.toNat_ofNat']
  omega

theorem two_mul_bmod_two_pow_lt (value : ℤ) (width : ℕ) :
    2 * value.bmod (2 ^ (width + 1)) < 2 ^ (width + 1) := by
  have hlt := Int.bmod_lt (x := value) (m := 2 ^ (width + 1)) (Nat.two_pow_pos _)
  rw [Nat.cast_pow, Nat.cast_two, pow_succ] at hlt
  rw [pow_succ]
  omega

theorem two_mul_intOfUi32_lt (value : UInt32) : 2 * intOfUi32 value < 2 ^ 32 :=
  two_mul_bmod_two_pow_lt value.toNat 31

/-- From `2 ^ 31` on, the `int` is negative. -/
theorem intOfUi32_of_ge {value : UInt32} (h : 2 ^ 31 ≤ value.toNat) :
    intOfUi32 value = value.toNat - 2 ^ 32 := by
  have hlt := value.toNat_lt
  have hmod : intOfUi32 value % 2 ^ 32 = (value.toNat : ℤ) % 2 ^ 32 := Int.bmod_emod
  have hupper := two_mul_intOfUi32_lt value
  have hlower : -2 ^ 31 ≤ intOfUi32 value := Int.le_bmod (Nat.two_pow_pos 32)
  omega

/-! ## How far a cursor moves -/

section Advance

variable {model : DataModel} {cursor next : Cursor}

theorem deserializeUi64_advance {value : UInt64}
    (h : deserializeUi64 model cursor = some (value, next)) : next = cursor.advance model 8 := by
  rw [deserializeUi64, Option.bind_eq_bind, Option.bind_eq_some_iff] at h
  obtain ⟨bytes, -, h⟩ := h
  cases h
  rfl

theorem deserializeBuf_advance {bytes : Bytes} {size : ℤ}
    (h : deserializeBuf model cursor size = some (bytes, next)) :
    next = cursor.advance model size := by
  rw [deserializeBuf, Option.bind_eq_bind, Option.bind_eq_some_iff] at h
  obtain ⟨copy, -, h⟩ := h
  cases h
  rfl

end Advance

/-! ## Positions in a well-formed buffer -/

/-- The cursor at position `pos` of a buffer that holds `data`; `slack` is the rest of its block. -/
def cursorAt (data slack : Bytes) (pos : ℕ) : Cursor :=
  ⟨data ++ slack, pos, UInt32.ofNat (data.length - pos)⟩

variable {model} {data slack : Bytes} {pos : ℕ}

theorem drop_add_of_drop_eq {chunk rest : Bytes} (h : data.drop pos = chunk ++ rest) :
    data.drop (pos + chunk.length) = rest := by
  rw [← List.drop_drop, h, List.drop_left]

theorem add_le_length_of_drop_eq {chunk rest : Bytes} (h : data.drop pos = chunk ++ rest)
    (hpos : pos ≤ data.length) : pos + chunk.length ≤ data.length := by
  have hlength := congrArg List.length h
  rw [List.length_drop, List.length_append] at hlength
  omega

theorem read_cursorAt {chunk rest : Bytes} (h : data.drop pos = chunk ++ rest)
    (hpos : pos ≤ data.length) : (cursorAt data slack pos).read chunk.length = some chunk := by
  have hle := add_le_length_of_drop_eq h hpos
  have hrange : 0 ≤ (pos : ℤ) ∧ (pos : ℤ) + chunk.length ≤ (data ++ slack).length := by
    rw [List.length_append]
    omega
  rw [Cursor.read, cursorAt, if_pos hrange, Int.toNat_natCast, List.drop_append_of_le_length hpos,
    h, List.append_assoc, List.take_left]

theorem addBuf_cursorAt {chunk rest : Bytes} (h : data.drop pos = chunk ++ rest)
    (hpos : pos ≤ data.length) (hfits : data.length + 1 < 2 ^ 32) :
    (cursorAt data slack pos).addBuf chunk.length = some chunk := by
  have hle := add_le_length_of_drop_eq h hpos
  obtain ⟨buf, hbuf, hholds⟩ := bufAdd_spec (fun _ ↦ false) chunk (by omega)
  rw [Cursor.addBuf, read_cursorAt h hpos]
  simp only [Option.bind_eq_bind, Option.bind_some, hbuf, hholds.bytes_eq]

theorem ui32_ofInt_natCast (count : ℕ) : UInt32.ofInt (count : ℤ) = UInt32.ofNat count := by
  apply UInt32.toNat_inj.mp
  rw [UInt32.ofInt, UInt32.toNat_ofNat', UInt32.toNat_ofNat']
  omega

theorem advance_cursorAt (count : ℕ) (hle : pos + count ≤ data.length)
    (hfits : data.length + 1 < 2 ^ 32) :
    (cursorAt data slack pos).advance model count = cursorAt data slack (pos + count) := by
  have hoff : ptrAdd model pos count = ((pos + count : ℕ) : ℤ) := by
    cases model with
    | ilp32 =>
      rw [ptrAdd, Nat.cast_add]
      exact Int.emod_eq_of_lt (by omega) (by omega)
    | lp64 => rw [ptrAdd, Nat.cast_add]
  have hsize : UInt32.ofNat (data.length - pos) - UInt32.ofInt count =
      UInt32.ofNat (data.length - (pos + count)) := by
    have hsplit : data.length - pos = data.length - (pos + count) + count := by omega
    rw [hsplit, UInt32.ofNat_add, ui32_ofInt_natCast, UInt32.add_sub_cancel]
  rw [Cursor.advance, cursorAt, hoff, hsize, cursorAt]

theorem toNat_size_cursorAt (hfits : data.length + 1 < 2 ^ 32) :
    (cursorAt data slack pos).size.toNat = data.length - pos := by
  rw [cursorAt, UInt32.toNat_ofNat']
  exact Nat.mod_eq_of_lt (by omega)

/-! ## Reading any bytes of a well-formed buffer -/

section At

variable {count : ℕ}

theorem drop_eq_take_append (data : Bytes) (pos count : ℕ) :
    data.drop pos = (data.drop pos).take count ++ data.drop (pos + count) := by
  rw [← List.drop_drop, List.take_append_drop]

theorem length_take_drop (hle : pos + count ≤ data.length) :
    ((data.drop pos).take count).length = count := by
  rw [List.length_take, List.length_drop]
  omega

theorem read_at (hle : pos + count ≤ data.length) :
    (cursorAt data slack pos).read count = some ((data.drop pos).take count) := by
  have hread : (cursorAt data slack pos).read _ = _ :=
    read_cursorAt (drop_eq_take_append data pos count) (by omega)
  rw [length_take_drop hle] at hread
  exact hread

theorem addBuf_at (hle : pos + count ≤ data.length) (hfits : data.length + 1 < 2 ^ 32) :
    (cursorAt data slack pos).addBuf count = some ((data.drop pos).take count) := by
  have hcopy : (cursorAt data slack pos).addBuf _ = _ :=
    addBuf_cursorAt (drop_eq_take_append data pos count) (by omega) hfits
  rw [length_take_drop hle] at hcopy
  exact hcopy

theorem deserializeUi32_at (hle : pos + 4 ≤ data.length) (hfits : data.length + 1 < 2 ^ 32) :
    deserializeUi32 model (cursorAt data slack pos) =
      some (getUi32 ((data.drop pos).take 4), cursorAt data slack (pos + 4)) := by
  rw [deserializeUi32, read_at hle, ← advance_cursorAt 4 hle hfits]
  rfl

theorem deserializeUi64_at (hle : pos + 8 ≤ data.length) (hfits : data.length + 1 < 2 ^ 32) :
    deserializeUi64 model (cursorAt data slack pos) =
      some (getUi64 ((data.drop pos).take 8), cursorAt data slack (pos + 8)) := by
  rw [deserializeUi64, read_at hle, ← advance_cursorAt 8 hle hfits]
  rfl

end At

section Spec

variable {chunk rest : Bytes} (hpos : pos ≤ data.length) (hfits : data.length + 1 < 2 ^ 32)

include hpos hfits

theorem deserializeUi32_spec {value : UInt32} (h : data.drop pos = le32 value ++ rest) :
    deserializeUi32 model (cursorAt data slack pos) =
      some (value, cursorAt data slack (pos + 4)) := by
  have hread : (cursorAt data slack pos).read _ = _ := read_cursorAt h hpos
  have hle := add_le_length_of_drop_eq h hpos
  rw [length_le32] at hread hle
  rw [deserializeUi32, hread]
  simp only [Option.bind_eq_bind, Option.bind_some, getUi32_le32]
  rw [← advance_cursorAt 4 hle hfits, Nat.cast_ofNat]

theorem deserializeUi64_spec {value : UInt64} (h : data.drop pos = le64 value ++ rest) :
    deserializeUi64 model (cursorAt data slack pos) =
      some (value, cursorAt data slack (pos + 8)) := by
  have hread : (cursorAt data slack pos).read _ = _ := read_cursorAt h hpos
  have hle := add_le_length_of_drop_eq h hpos
  rw [length_le64] at hread hle
  rw [deserializeUi64, hread]
  simp only [Option.bind_eq_bind, Option.bind_some, getUi64_le64]
  rw [← advance_cursorAt 8 hle hfits, Nat.cast_ofNat]

theorem deserializeDouble_spec {bits : UInt64} (h : data.drop pos = le64 bits ++ rest) :
    deserializeDouble model (cursorAt data slack pos) =
      some (bits, cursorAt data slack (pos + 8)) :=
  deserializeUi64_spec hpos hfits h

/-- A copy of a length that an `int` can hold. -/
theorem deserializeBuf_spec (h : data.drop pos = chunk ++ rest) :
    deserializeBuf model (cursorAt data slack pos) chunk.length =
      some (chunk, cursorAt data slack (pos + chunk.length)) := by
  have hle := add_le_length_of_drop_eq h hpos
  have hlength : (UInt32.ofInt (chunk.length : ℤ)).toNat = chunk.length := by
    rw [ui32_ofInt_natCast, UInt32.toNat_ofNat']
    exact Nat.mod_eq_of_lt (by omega)
  rw [deserializeBuf, hlength, addBuf_cursorAt h hpos hfits]
  simp only [Option.bind_eq_bind, Option.bind_some]
  rw [advance_cursorAt chunk.length hle hfits]

/-- A copy of any bytes that are there. -/
theorem deserializeBuf_at {count : ℕ} (hle : pos + count ≤ data.length) :
    deserializeBuf model (cursorAt data slack pos) count =
      some ((data.drop pos).take count, cursorAt data slack (pos + count)) := by
  have hcopy : deserializeBuf model (cursorAt data slack pos) _ = _ :=
    deserializeBuf_spec hpos hfits (drop_eq_take_append data pos count)
  rw [length_take_drop hle] at hcopy
  exact hcopy

theorem deserializeTail_spec {offset : ℕ}
    (h : data.drop pos = chunk ++ List.replicate ((4 - (chunk.length + offset) % 4) % 4) 0 ++ rest) :
    deserializeTail model (cursorAt data slack pos) chunk.length offset =
      some (chunk, cursorAt data slack
        (pos + chunk.length + (4 - (chunk.length + offset) % 4) % 4)) := by
  have hle := add_le_length_of_drop_eq h hpos
  rw [List.length_append, List.length_replicate] at hle
  rw [List.append_assoc] at h
  rw [deserializeTail, addBuf_cursorAt h hpos hfits]
  simp only [Option.bind_eq_bind, Option.bind_some]
  rw [advance_cursorAt chunk.length (by omega) hfits]
  split
  · rw [advance_cursorAt _ (by omega) hfits]
  · rename_i hpad
    rw [not_ne_iff.mp hpad, Nat.add_zero]

theorem deserializeBytes_spec (h : data.drop pos = tlBytes chunk ++ rest)
    (hlong : chunk.length < 2 ^ 24) :
    deserializeBytes model (cursorAt data slack pos) =
      some (chunk, cursorAt data slack (pos + (tlBytes chunk).length)) := by
  have hle := add_le_length_of_drop_eq h hpos
  have hfour := four_le_length_tlBytes chunk
  have hfirst : data.drop pos = (tlBytes chunk).take 4 ++ ((tlBytes chunk).drop 4 ++ rest) := by
    rw [← List.append_assoc, List.take_append_drop, h]
  have hbyte : (cursorAt data slack pos).addBuf _ = _ := addBuf_cursorAt hfirst hpos hfits
  rw [List.length_take, Nat.min_eq_left hfour] at hbyte
  rw [deserializeBytes, hbyte]
  simp only [Option.bind_eq_bind, Option.bind_some]
  by_cases hshort : chunk.length ≤ 253
  · have hbytes : tlBytes chunk = UInt8.ofNat chunk.length ::
        (chunk ++ List.replicate ((4 - (chunk.length + 1) % 4) % 4) 0) := by
      simp [tlBytes, tlBytesHeader, hshort, tlPadding]
    have hvalue : (UInt8.ofNat chunk.length).toNat = chunk.length := by
      rw [UInt8.toNat_ofNat']
      omega
    have hsmall : UInt8.ofNat chunk.length ≤ 253 := by
      rw [UInt8.le_iff_toNat_le, hvalue]
      exact hshort
    have hhead : ((tlBytes chunk).take 4).headD 0 = UInt8.ofNat chunk.length := by
      rw [hbytes, List.take_succ_cons, List.headD_cons]
    have hnext : data.drop (pos + 1) =
        chunk ++ List.replicate ((4 - (chunk.length + 1) % 4) % 4) 0 ++ rest := by
      rw [← List.drop_drop, h, hbytes, List.cons_append, List.drop_one, List.tail_cons]
    have hadvance : (cursorAt data slack pos).advance model 1 = cursorAt data slack (pos + 1) :=
      advance_cursorAt 1 (by omega) hfits
    rw [hhead, if_pos hsmall, hvalue, hadvance, deserializeTail_spec (by omega) hfits hnext]
    congr 3
    rw [hbytes, List.length_cons, List.length_append, List.length_replicate]
    omega
  · have hbytes : tlBytes chunk = (0xfe :: leBytes 3 chunk.length) ++
        (chunk ++ List.replicate ((4 - (chunk.length + 0) % 4) % 4) 0) := by
      simp [tlBytes, tlBytesHeader, hshort, tlPadding]
      omega
    have htake : (tlBytes chunk).take 4 = 0xfe :: leBytes 3 chunk.length := by
      rw [hbytes]
      exact List.take_left' (by simp)
    have hlen : leNat (((0xfe : UInt8) :: leBytes 3 chunk.length).drop 1) = chunk.length := by
      rw [List.drop_one, List.tail_cons, leNat_leBytes]
      exact Nat.mod_eq_of_lt hlong
    have hnext : data.drop (pos + 4) =
        chunk ++ List.replicate ((4 - (chunk.length + 0) % 4) % 4) 0 ++ rest := by
      rw [← List.drop_drop, h, hbytes, List.append_assoc]
      exact List.drop_left' (by simp)
    have hadvance : (cursorAt data slack pos).advance model 4 = cursorAt data slack (pos + 4) :=
      advance_cursorAt 4 (by omega) hfits
    rw [htake, List.headD_cons, if_neg (by decide), hlen, hadvance,
      deserializeTail_spec (by omega) hfits hnext]
    congr 3
    rw [hbytes, List.length_append, List.length_append, List.length_cons, length_leBytes,
      List.length_replicate]
    omega

end Spec

end Deserialize

end LibTg.Tl
