import LibTg.Tl.BufRun
import LibTg.Tl.Cursor

/-!
# Byte strings, with the zeros behind them

The padding of a byte string is a new buffer whose `size` is set to what is missing, and
`deserialize_bytes` copies the three bytes of a length into a buffer whose `size` is then set to four.
Here both are written with the blocks, and the zeros come from the blocks. The programs of
`LibTg.Tl.serializeBytes` and `LibTg.Tl.deserializeBytes` leave the blocks out.
-/

namespace LibTg.Tl

/-- `b.size = size`. The block has no other bytes to count. -/
def Buf.setSize (buf : Buf) (size : ℕ) : Option Buf :=
  if hsize : size ≤ buf.asize then some { buf with size := size, size_le := hsize } else none

section Realloc

variable (moves : ℕ → Bool)

/-- The statements for the padding: a new buffer whose size is set, and `buf_cat`. -/
def appendPadding (s : Buf) : Option Buf := do
  let p ← bufNew.setSize ((4 - s.size % 4) % 4)
  bufCat moves s p.bytes

/-- `serialize_bytes` with the blocks of its buffers (`serializeBytesBlocks_bytes`). In the long form an
empty padding is left out. -/
def serializeBytesBlocks (bytes : Bytes) : Option Buf :=
  if bytes.length ≤ 253 then do
    let s ← bufAdd moves (leBytes 1 bytes.length)
    let b ← bufAdd moves bytes
    let s ← bufCat moves s b.bytes
    appendPadding moves s
  else do
    let s ← bufAdd moves [0xfe]
    let len ← bufAdd moves (leBytes 3 bytes.length)
    let s ← bufCat moves s len.bytes
    let b ← bufAdd moves bytes
    let s ← bufCat moves s b.bytes
    if (4 - s.size % 4) % 4 ≠ 0 then appendPadding moves s else some s

/-- `serialize_str`, which does not copy its argument first. -/
def serializeStrBlocks (b : Buf) : Option Buf :=
  if b.size ≤ 253 then do
    let s ← bufAdd moves (leBytes 1 b.size)
    let s ← bufCat moves s b.bytes
    appendPadding moves s
  else do
    let s ← bufAdd moves [0xfe]
    let len ← bufAdd moves (leBytes 3 b.size)
    let s ← bufCat moves s len.bytes
    let s ← bufCat moves s b.bytes
    if (4 - s.size % 4) % 4 ≠ 0 then appendPadding moves s else some s

end Realloc

/-- `deserialize_bytes`. -/
def deserializeBytesBlocks (model : DataModel) (cursor : Cursor) : Option (Bytes × Cursor) := do
  let data ← cursor.read 4
  let byte ← bufAdd (fun _ ↦ false) data
  let first ← byte.mem[0]?
  if first ≤ 253 then deserializeTail model (cursor.advance model 1) first.toNat 1
  else do
    let data ← (cursor.advance model 1).read 3
    let len ← bufAdd (fun _ ↦ false) data
    let len ← len.setSize 4
    deserializeTail model (cursor.advance model 4) (getUi32 len.bytes).toNat 0

/-! ## What the zeros give -/

/-- A buffer whose size is set beyond its contents has zeros there. -/
theorem setSize_represents {buf : Buf} {bytes : Bytes} (h : Represents buf bytes) {size : ℕ}
    (hlow : bytes.length ≤ size) (hhigh : size ≤ buf.asize) :
    ∃ larger, buf.setSize size = some larger ∧
      larger.bytes = bytes ++ List.replicate (size - bytes.length) 0 := by
  rw [Buf.setSize, dif_pos hhigh]
  exact ⟨_, rfl, h.take_mem hlow (Nat.le_succ_of_le hhigh)⟩

/-- The padding. -/
theorem setSize_bufNew {size : ℕ} (hsize : size < 4) :
    ∃ p, bufNew.setSize size = some p ∧ p.bytes = List.replicate size 0 := by
  have hroom : size ≤ bufNew.asize := by
    have hbufsiz : bufNew.asize = 1024 := rfl
    omega
  exact setSize_represents represents_bufNew (Nat.zero_le _) hroom

/-- A zero in front of the highest byte does not count. -/
theorem leNat_append_zero (bytes : Bytes) : leNat (bytes ++ [0]) = leNat bytes := by
  rw [leNat_append]
  simp [leNat]

section Realloc

variable (moves : ℕ → Bool) {s b : Buf} {bytes : Bytes}

/-- The padding is zero because the block behind an empty buffer is. -/
theorem appendPadding_represents (h : Represents s bytes)
    (hfits : bytes.length + (tlPadding bytes.length).length + 1 < 2 ^ 32) :
    ∃ result, appendPadding moves s = some result ∧
      Represents result (bytes ++ tlPadding bytes.length) := by
  obtain ⟨p, hp, hzeros⟩ := setSize_bufNew (Nat.mod_lt (4 - s.size % 4) (by decide : 4 > 0))
  have hpadding : p.bytes = tlPadding bytes.length := by rw [hzeros, h.size_eq, tlPadding]
  obtain ⟨result, hresult, hrepresents, -⟩ := bufCat_represents moves h p.bytes (hpadding ▸ hfits)
  refine ⟨result, ?_, hpadding ▸ hrepresents⟩
  rw [appendPadding, hp]
  exact hresult

/-- Nothing is appended if nothing is missing. -/
theorem appendPaddingIf_represents (h : Represents s bytes)
    (hfits : bytes.length + (tlPadding bytes.length).length + 1 < 2 ^ 32) :
    ∃ result, (if (4 - s.size % 4) % 4 ≠ 0 then appendPadding moves s else some s) = some result ∧
      Represents result (bytes ++ tlPadding bytes.length) := by
  by_cases hpad : (4 - s.size % 4) % 4 = 0
  · have hnone : tlPadding bytes.length = [] := by
      rw [tlPadding, ← h.size_eq, hpad, List.replicate_zero]
    rw [if_neg (not_not.mpr hpad), hnone, List.append_nil]
    exact ⟨s, rfl, h⟩
  · rw [if_pos hpad]
    exact appendPadding_represents moves h hfits

theorem leBytes_one {length : ℕ} : leBytes 1 length = [UInt8.ofNat length] := by
  simp [leBytes]

/-- The blocks of `serialize_str` hold the format. -/
theorem serializeStrBlocks_represents (h : Represents b bytes)
    (hfits : (tlBytes bytes).length + 1 < 2 ^ 32) :
    ∃ str, serializeStrBlocks moves b = some str ∧ Represents str (tlBytes bytes) := by
  have hsize := h.size_eq
  rw [tlBytes, List.length_append, List.length_append] at hfits
  rw [serializeStrBlocks, hsize]
  by_cases hshort : bytes.length ≤ 253
  · have hheader : tlBytesHeader bytes = leBytes 1 bytes.length := by
      rw [tlBytesHeader, if_pos hshort, leBytes_one]
    rw [hheader] at hfits
    obtain ⟨s, hs, hsRep⟩ := bufAdd_represents moves (leBytes 1 bytes.length) (by simp)
    obtain ⟨t, ht, htRep, -⟩ := bufCat_represents moves hsRep bytes (by omega)
    obtain ⟨u, hu, huRep⟩ := appendPadding_represents moves htRep
      (by rw [List.length_append]; exact hfits)
    rw [if_pos hshort, h.bytes, hs, tlBytes, hheader]
    simp only [Option.bind_eq_bind, Option.bind_some, ht, hu]
    exact ⟨u, rfl, huRep⟩
  · have hheader : tlBytesHeader bytes = [0xfe] ++ leBytes 3 bytes.length := by
      rw [tlBytesHeader, if_neg hshort, List.singleton_append]
    rw [hheader, List.length_append, List.length_singleton, length_leBytes] at hfits
    obtain ⟨s, hs, hsRep⟩ := bufAdd_represents moves [0xfe] (by simp)
    obtain ⟨len, hlen, hlenRep⟩ := bufAdd_represents moves (leBytes 3 bytes.length) (by simp)
    obtain ⟨t, ht, htRep, -⟩ := bufCat_represents moves hsRep (leBytes 3 bytes.length) (by simp)
    have htotal : ([0xfe] ++ leBytes 3 bytes.length ++ bytes : Bytes).length =
        1 + 3 + bytes.length := by
      rw [List.length_append, List.length_append, List.length_singleton, length_leBytes]
    obtain ⟨u, hu, huRep, -⟩ := bufCat_represents moves htRep bytes
      (by rw [← List.length_append, htotal]; omega)
    obtain ⟨v, hv, hvRep⟩ := appendPaddingIf_represents moves huRep
      (by rw [htotal]; exact hfits)
    rw [if_neg hshort, h.bytes, hs, tlBytes, hheader]
    simp only [Option.bind_eq_bind, Option.bind_some, hlen, hlenRep.bytes, ht, hu, hv]
    exact ⟨v, rfl, hvRep⟩

/-- `serialize_bytes` does the same with a copy. -/
theorem serializeBytesBlocks_eq (hcopy : bufAdd moves bytes = some b) (h : Represents b bytes) :
    serializeBytesBlocks moves bytes = serializeStrBlocks moves b := by
  rw [serializeBytesBlocks, serializeStrBlocks, h.size_eq, hcopy]
  rfl

theorem serializeBytesBlocks_represents (hfits : (tlBytes bytes).length + 1 < 2 ^ 32) :
    ∃ buf, serializeBytesBlocks moves bytes = some buf ∧ Represents buf (tlBytes bytes) := by
  have hle := length_le_length_tlBytes bytes
  obtain ⟨copy, hcopy, hrepresents⟩ := bufAdd_represents moves bytes (by omega)
  rw [serializeBytesBlocks_eq moves hcopy hrepresents]
  exact serializeStrBlocks_represents moves hrepresents hfits

/-- Without the blocks the same is written. -/
theorem serializeBytesBlocks_bytes (hfits : (tlBytes bytes).length + 1 < 2 ^ 32) :
    (serializeBytesBlocks moves bytes).map Buf.bytes = (serializeBytes moves bytes).map Buf.bytes := by
  obtain ⟨buf, hbuf, hrepresents⟩ := serializeBytesBlocks_represents moves hfits
  obtain ⟨other, hother, hholds⟩ := serializeBytes_spec moves bytes hfits
  rw [hbuf, hother, Option.map_some, Option.map_some, hrepresents.bytes, hholds.bytes_eq]

end Realloc

/-! ## The decoder -/

section Decoder

variable (model : DataModel) {data slack : Bytes} {pos : ℕ}

/-- Three bytes of a length and the zero behind them, read as four. -/
theorem setSize_three {three : Bytes} (hthree : three.length = 3) :
    ∃ len larger, bufAdd (fun _ ↦ false) three = some len ∧ len.setSize 4 = some larger ∧
      (getUi32 larger.bytes).toNat = leNat three := by
  obtain ⟨len, hlen, hrepresents⟩ :=
    bufAdd_represents (fun _ ↦ false) three (by rw [hthree]; decide)
  have hroom : 4 ≤ len.asize := by
    obtain ⟨other, hother, hholds⟩ := bufAdd_spec (fun _ ↦ false) three (by rw [hthree]; decide)
    rw [hlen, Option.some.injEq] at hother
    rw [hother, hholds.asize_eq]
    exact le_max_of_le_left (by decide)
  obtain ⟨larger, hlarger, hbytes⟩ := setSize_represents hrepresents (by rw [hthree]; decide) hroom
  refine ⟨len, larger, hlen, hlarger, ?_⟩
  rw [hthree] at hbytes
  have hfour : larger.bytes.length = 4 := by rw [hbytes, List.length_append, hthree]; rfl
  rw [toNat_getUi32 hfour, hbytes]
  exact leNat_append_zero three

/-- The blocks of `deserialize_bytes` give what the strings do. -/
theorem deserializeBytesBlocks_eq (hle : pos + 4 ≤ data.length) (hfits : data.length + 1 < 2 ^ 32) :
    deserializeBytesBlocks model (cursorAt data slack pos) =
      deserializeBytes model (cursorAt data slack pos) := by
  have hfour : ((data.drop pos).take 4).length = 4 := length_take_drop hle
  have hadvance : (cursorAt data slack pos).advance model 1 = cursorAt data slack (pos + 1) :=
    advance_cursorAt 1 (by omega) hfits
  have hthree : ((data.drop pos).take 4).drop 1 = (data.drop (pos + 1)).take 3 := by
    rw [List.drop_take, List.drop_drop]
  obtain ⟨byte, hbyte, hrepresents⟩ :=
    bufAdd_represents (fun _ ↦ false) ((data.drop pos).take 4) (by rw [hfour]; decide)
  have hlength : ((data.drop (pos + 1)).take 3).length = 3 := length_take_drop (by omega)
  obtain ⟨len, larger, hlen, hlarger, hvalue⟩ := setSize_three hlength
  have hfirst : byte.mem[0]? = some (((data.drop pos).take 4).headD 0) := by
    rw [hrepresents.mem_eq]
    cases hbytes : (data.drop pos).take 4 with
    | nil =>
      rw [hbytes] at hfour
      cases hfour
    | cons first rest => rfl
  rw [deserializeBytesBlocks, deserializeBytes, read_at hle, addBuf_at hle hfits]
  simp only [Option.bind_eq_bind, Option.bind_some, hbyte, hfirst]
  split
  case isTrue => rfl
  case isFalse =>
    rw [hthree, hadvance, read_at (by omega)]
    simp only [Option.bind_some, hlen, hlarger, hvalue]

end Decoder

/-! ## There and back -/

/-- What the two encoders make of a byte string, and what the decoder makes of that in front of `rest`. -/
structure RoundTrips (model : DataModel) (moves : ℕ → Bool) (bytes rest slack : Bytes) (b : Buf) :
    Prop where
  same : (serializeBytesBlocks moves bytes).map Buf.bytes = (serializeStrBlocks moves b).map Buf.bytes
  encoded : ∃ buf, serializeBytesBlocks moves bytes = some buf ∧ buf.bytes.length % 4 = 0 ∧
    (∃ pad, pad < 4 ∧ buf.bytes = tlBytesHeader bytes ++ bytes ++ List.replicate pad 0) ∧
      ∃ cursor, deserializeBytesBlocks model (cursorAt (buf.bytes ++ rest) slack 0) =
          some (bytes, cursor) ∧
        cursor.off = buf.bytes.length ∧ cursor.block.drop cursor.off.toNat = rest ++ slack ∧
          cursor.size.toNat = rest.length

/-- Both encoders write the same, and the decoder reads it back and stops behind it. -/
theorem bytes_roundTrip (model : DataModel) (moves : ℕ → Bool) {bytes rest : Bytes} (slack : Bytes)
    {b : Buf} (hb : Represents b bytes) (hbytes : bytes.length < 2 ^ 24)
    (hfits : (tlBytes bytes).length + rest.length + 1 < 2 ^ 32) :
    RoundTrips model moves bytes rest slack b := by
  have hsmall : (tlBytes bytes).length + 1 < 2 ^ 32 := by omega
  obtain ⟨buf, hbuf, hrepresents⟩ := serializeBytesBlocks_represents moves hsmall
  obtain ⟨str, hstr, hrepresents'⟩ := serializeStrBlocks_represents moves hb hsmall
  have hlength : (tlBytes bytes ++ rest).length + 1 < 2 ^ 32 := by
    rw [List.length_append]
    exact hfits
  have hfour : 0 + 4 ≤ (tlBytes bytes ++ rest).length := by
    have hencoded := four_le_length_tlBytes bytes
    rw [List.length_append]
    omega
  have hdecoded : deserializeBytes model (cursorAt (tlBytes bytes ++ rest) slack 0) =
      some (bytes, cursorAt (tlBytes bytes ++ rest) slack (0 + (tlBytes bytes).length)) :=
    deserializeBytes_spec (Nat.zero_le _) hlength rfl hbytes
  refine ⟨by rw [hbuf, hstr, Option.map_some, Option.map_some, hrepresents.bytes, hrepresents'.bytes],
    buf, hbuf, ?_⟩
  rw [hrepresents.bytes, deserializeBytesBlocks_eq model hfour hlength, hdecoded]
  refine ⟨length_tlBytes_mod bytes, ⟨_, Nat.mod_lt _ (by decide), rfl⟩, _, rfl, ?_, ?_, ?_⟩
  · rw [cursorAt, Nat.zero_add]
  · rw [cursorAt, Nat.zero_add, Int.toNat_natCast, List.append_assoc, List.drop_left]
  · rw [toNat_size_cursorAt hlength, Nat.zero_add, List.length_append]
    omega

/-- 254 bytes take the long form. -/
theorem longBytes_roundTrip :
    ∃ b, RoundTrips .ilp32 (fun _ ↦ true) (List.replicate 254 7) [1, 2, 3] [0] b := by
  obtain ⟨b, -, hb⟩ := bufAdd_represents (fun _ ↦ true) (List.replicate 254 7) (by decide +kernel)
  exact ⟨b, bytes_roundTrip .ilp32 (fun _ ↦ true) [0] hb (by decide +kernel) (by decide +kernel)⟩

end LibTg.Tl
