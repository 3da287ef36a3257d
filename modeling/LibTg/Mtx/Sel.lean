import LibTg.Mtx.Buf
import LibTg.Tl.BytesCodec

/-!
# Parameters on the wire (`mtx/src/sel.c`)

A parameter is a buffer with a type, which says how many bytes of it are written and how it is read
back. Strings have the format of the wire, but `sil.c` steps over a string as if its length and
padding always took four bytes.
-/

namespace LibTg.Mtx

open LibTg.Tl (tlBytes tlBytesHeader tlPadding)

/-- The values of `tl_type_t` that the functions below tell apart. `TYPE_QX` is zero, and thus the
type of a parameter that was never set. -/
inductive TlType
  | qx
  | int
  | int128
  | int256
  | long
  | vectorLong
  | vectorMessage
  | string
  | id
  | message
  deriving DecidableEq

/-- A `param_t`. -/
structure Param where
  type : TlType
  value : Buf
  deriving DecidableEq

/-- A parameter of a zeroed record. -/
def Param.unset : Param := ⟨.qx, .empty⟩

def maxParamSize : ℕ := 12

def idResPQ : UInt32 := 0x05162463

def idVector : UInt32 := 0x1cb5c415

def idMsgContainer : UInt32 := 0x73f1f8dc

/-- `sel_serialize_string`. The short form appends its padding even when it is empty. -/
def selSerializeString (b : Buf) : Option Buf :=
  if b.size ≤ 253 then do
    let s ← bufAdd (leBytes 1 b.size)
    let s ← bufCat s b
    let p ← zeroBuf ((4 - s.size % 4) % 4)
    bufCat s p
  else do
    let s ← bufAdd [0xfe]
    let len ← bufAdd (leBytes 3 b.size)
    let s ← bufCat s len
    let s ← bufCat s b
    let pad := (4 - s.size % 4) % 4
    if pad ≠ 0 then do
      let p ← zeroBuf pad
      bufCat s p
    else some s

/-- `sel_deserialize_string`. A long form that does not start with `0xfe` is only reported. -/
def selDeserializeString (b : Buf) : Option Buf := do
  let byte ← b.part 0 4
  let first := leNat (byte.read 0 1)
  if first ≤ 253 then b.part 1 first
  else
    let len ← b.part 1 3
    let len := bufGetUi32 len
    let b ← b.rest 4
    b.part 0 len.toNat

/-- `sel_serialize_param`. A type that it does not know leaves its result uninitialised. -/
def selSerializeParam (p : Param) : Option Buf :=
  match p.type with
  | .int => p.value.part 0 4
  | .int128 => p.value.part 0 16
  | .int256 => p.value.part 0 32
  | .long => p.value.part 0 8
  | .vectorLong => p.value.part 0 p.value.size
  | .string => selSerializeString p.value
  | .id => p.value.part 0 4
  | .qx => p.value.part 0 p.value.size
  | .vectorMessage | .message => none

/-- The loop of `sel_serialize`. -/
def selSerializeFrom (s : Buf) : List Param → Option Buf
  | [] => some s
  | p :: params => do
    let b ← selSerializeParam p
    let s ← bufCat s b
    selSerializeFrom s params

def selSerialize (params : List Param) : Option Buf := selSerializeFrom .empty params

/-- `sel_deserialize_vector` for the id of the record that holds the vector. Every round of its loop
reads the same first element, into the next place of an array; for another id the result stays
uninitialised. -/
def selDeserializeVector (id : UInt32) (value : Buf) : Option Buf := do
  let b ← value.rest 4
  let q := bufGetUi32 b
  if q = 0 then some .empty
  else do
    let b ← b.rest 4
    if q.toNat ≤ maxParamSize then
      if id = idResPQ then b.part 0 8
      else if id = idMsgContainer then b.part 0 b.size
      else none
    else none

/-- `sel_deserialize_param` for the id of the record. -/
def selDeserializeParam (id : UInt32) (type : TlType) (value : Buf) : Option Param := do
  let s ← match type with
    | .int => value.part 0 4
    | .int128 => value.part 0 16
    | .int256 => value.part 0 32
    | .long => value.part 0 8
    | .vectorLong | .vectorMessage => selDeserializeVector id value
    | .string => selDeserializeString value
    | .id => value.part 0 4
    | .message => value.part 0 value.size
    | .qx => none
  some ⟨type, s⟩

/-- `sel_deserialize`: an id and the bytes behind it. -/
def selDeserialize (b : Buf) : Option (UInt32 × Buf) := do
  let id := bufGetUi32 b
  let b ← b.rest 4
  some (id, b)

/-! ## Strings -/

theorem tlBytesHeader_short {b : Buf} (hshort : b.size ≤ 253) :
    tlBytesHeader b.bytes = leBytes 1 b.size := (if_pos hshort).trans Tl.leBytes_one.symm

theorem tlBytesHeader_long {b : Buf} (hlong : ¬ b.size ≤ 253) :
    tlBytesHeader b.bytes = [0xfe] ++ leBytes 3 b.size := if_neg hlong

/-- A string is written in the format of the wire, if that fits. -/
theorem selSerializeString_eq (b : Buf) : selSerializeString b = bufAdd (tlBytes b.bytes) := by
  unfold selSerializeString tlBytes
  simp only [Option.bind_eq_bind]
  split
  case isTrue hshort =>
    rw [bufCat_bind, tlBytesHeader_short hshort, ← bufAdd_bind_bufCat (leBytes 1 b.size ++ b.bytes)]
    refine bufAdd_bind_congr fun s hs ↦ ?_
    rw [Buf.size, hs, tlPadding, zeroBuf]
  case isFalse hlong =>
    rw [bufAdd_bufCat_bind, bufCat_bind, tlBytesHeader_long hlong,
      ← bufAdd_bind_bufCat ([0xfe] ++ leBytes 3 b.size ++ b.bytes)]
    refine bufAdd_bind_congr fun s hs ↦ ?_
    rw [← hs, ← Buf.size, tlPadding]
    split
    case isTrue hpad => rfl
    case isFalse hpad =>
      rw [not_ne_iff.mp hpad, List.replicate_zero, bind_bufCat, List.append_nil, bufAdd_bytes]

/-- The first byte of what is read. -/
theorem part_first {b : Buf} (value : ℕ) {rest : Bytes} (hvalue : value < 256)
    (hbytes : b.bytes = leBytes 1 value ++ rest) :
    ∃ byte, b.part 0 4 = some byte ∧ leNat (byte.read 0 1) = value := by
  have hpart : b.part 0 4 = some ⟨b.read 0 4, by rw [length_read, maxBufSize]; omega⟩ := by
    rw [Buf.part, if_pos (by rw [maxBufSize]; omega)]
    exact bufAdd_of_le _
  refine ⟨_, hpart, ?_⟩
  have hread : b.read 0 1 = leBytes 1 value := read_zero_append hbytes
  rw [read_part hpart (by omega), hread, leNat_leBytes]
  exact Nat.mod_eq_of_lt hvalue

/-- A length of three bytes, read with the zero behind them. -/
theorem toNat_bufGetUi32_three {b : Buf} {value : ℕ} (hvalue : value < 256 ^ 3)
    (hbytes : b.bytes = leBytes 3 value) : (bufGetUi32 b).toNat = value := by
  have hread : b.read 0 4 = leBytes 3 value ++ [0] := by
    rw [Buf.read, hbytes]
    rfl
  rw [bufGetUi32, toNat_getUi32 (length_read b 0 4), hread, Tl.leNat_append_zero, leNat_leBytes,
    Nat.mod_eq_of_lt hvalue]

/-- A string in the format of the wire is read back whatever follows it. -/
theorem selDeserializeString_append {b packet : Buf} {rest : Bytes}
    (hbytes : packet.bytes = tlBytes b.bytes ++ rest) : selDeserializeString packet = some b := by
  have hsize : b.size ≤ 800 := b.fits
  unfold selDeserializeString
  simp only [Option.bind_eq_bind]
  by_cases hshort : b.size ≤ 253
  · rw [tlBytes, tlBytesHeader_short hshort] at hbytes
    simp only [List.append_assoc] at hbytes
    obtain ⟨byte, hpart, hfirst⟩ := part_first b.size (by omega) hbytes
    have hstring : packet.part 1 b.size = bufAdd b.bytes :=
      part_append hbytes (length_leBytes 1 _) rfl
    rw [hpart, Option.bind_some, hfirst, if_pos hshort, hstring, bufAdd_bytes]
  · rw [tlBytes, tlBytesHeader_long hshort] at hbytes
    simp only [List.append_assoc] at hbytes
    obtain ⟨byte, hpart, hfirst⟩ := part_first 254 (by omega) hbytes
    have hlen : packet.part 1 3 = bufAdd (leBytes 3 b.size) :=
      part_append hbytes rfl (length_leBytes 3 _)
    have hthree : (leBytes 3 b.size).length ≤ maxBufSize := by
      rw [length_leBytes, maxBufSize]
      omega
    have hheader : packet.bytes = ([0xfe] ++ leBytes 3 b.size) ++
        (b.bytes ++ (tlPadding ([0xfe] ++ (leBytes 3 b.size ++ b.bytes)).length ++ rest)) := by
      rw [hbytes, List.append_assoc]
    have hfour : ([0xfe] ++ leBytes 3 b.size).length = 4 := rfl
    obtain ⟨tail, hrest, htail⟩ := rest_append hheader hfour
    have hstring : tail.part 0 b.size = bufAdd b.bytes := part_zero_append htail rfl
    rw [hpart, Option.bind_some, hfirst, if_neg (by omega), hlen, bufAdd_of_le hthree,
      Option.bind_some, toNat_bufGetUi32_three (by omega) rfl, hrest, Option.bind_some, hstring,
      bufAdd_bytes]

/-- Four bytes more than its length is where a string ends if its length is a multiple of four. -/
theorem length_tlBytes_eq_iff (bytes : Bytes) :
    (tlBytes bytes).length = bytes.length + 4 ↔ bytes.length % 4 = 0 := by
  unfold tlBytes tlBytesHeader tlPadding
  split <;>
    simp only [List.length_append, List.length_cons, List.length_nil, length_leBytes,
      List.length_replicate] <;> omega

/-- What `sil_concrete` finds behind a string: it takes what follows only if the length of the string
is a multiple of four. -/
theorem selString_skip (b : Buf) {packet : Buf} {rest : Bytes}
    (hpacket : packet.bytes = tlBytes b.bytes ++ rest) :
    selDeserializeString packet = some b ∧
      ((packet.rest (b.size + 4)).map Buf.bytes = some rest ↔ b.size % 4 = 0) := by
  refine ⟨selDeserializeString_append hpacket, ?_⟩
  have hfits : packet.size ≤ 800 := packet.fits
  have hlength := congrArg List.length hpacket
  have hskip : (tlBytes b.bytes).length = b.size + 4 ↔ b.size % 4 = 0 :=
    length_tlBytes_eq_iff b.bytes
  rw [List.length_append] at hlength
  rw [← hskip]
  constructor
  · intro hrest
    obtain ⟨skipped, hskipped, hbytes⟩ := Option.map_eq_some_iff.mp hrest
    have hb : b.size ≤ 800 := b.fits
    rw [rest_eq packet (by omega)] at hskipped
    split at hskipped
    case isTrue hle =>
      have hdrop := congrArg List.length (bufAdd_eq_some.mp hskipped)
      rw [hbytes, List.length_drop, ← Buf.size] at hdrop
      rw [← Buf.size] at hlength
      omega
    case isFalse => cases hskipped
  · intro hend
    obtain ⟨skipped, hskipped, hbytes⟩ := rest_append hpacket hend
    rw [hskipped, Option.map_some, hbytes]

theorem selString_skip_four :
    selDeserializeString ⟨tlBytes [1, 2, 3, 4] ++ [9, 9, 9, 9], by decide⟩ =
        some ⟨[1, 2, 3, 4], by decide⟩ ∧
      ((Buf.rest ⟨tlBytes [1, 2, 3, 4] ++ [9, 9, 9, 9], by decide⟩ (4 + 4)).map Buf.bytes =
        some [9, 9, 9, 9] ↔ 4 % 4 = 0) :=
  selString_skip ⟨[1, 2, 3, 4], by decide⟩ rfl

/-! ## Parameters -/

def Param.wire (p : Param) : Bytes :=
  match p.type with
  | .int | .id => p.value.read 0 4
  | .int128 => p.value.read 0 16
  | .int256 => p.value.read 0 32
  | .long => p.value.read 0 8
  | .vectorLong | .qx => p.value.bytes
  | .string => tlBytes p.value.bytes
  | .vectorMessage | .message => []

/-- The types that `sel_serialize_param` knows. -/
def TlType.known : TlType → Bool
  | .vectorMessage | .message => false
  | _ => true

theorem part_zero_of_le (b : Buf) {count : ℕ} (hcount : count ≤ maxBufSize) :
    b.part 0 count = bufAdd (b.read 0 count) := if_pos (by omega)

theorem selSerializeParam_eq {p : Param} (hknown : p.type.known) :
    selSerializeParam p = bufAdd p.wire := by
  obtain ⟨type, value⟩ := p
  cases type with
  | int | id => exact part_zero_of_le value (by decide)
  | int128 => exact part_zero_of_le value (by decide)
  | int256 => exact part_zero_of_le value (by decide)
  | long => exact part_zero_of_le value (by decide)
  | vectorLong | qx => exact (part_size value).trans (bufAdd_bytes value).symm
  | string => exact selSerializeString_eq value
  | vectorMessage | message => cases hknown

theorem selSerializeFrom_eq {params : List Param} (hknown : ∀ p ∈ params, p.type.known) (s : Buf) :
    selSerializeFrom s params = bufAdd (s.bytes ++ params.flatMap Param.wire) := by
  induction params generalizing s with
  | nil => rw [selSerializeFrom, List.flatMap_nil, List.append_nil, bufAdd_bytes]
  | cons p params ih =>
    rw [List.forall_mem_cons] at hknown
    have hrest (next : Buf) : selSerializeFrom next params =
        bufAdd (next.bytes ++ params.flatMap Param.wire) := ih hknown.2 next
    have hcat := bind_bufCat s p.wire
    simp only [selSerializeFrom, selSerializeParam_eq hknown.1, Option.bind_eq_bind,
      List.flatMap_cons]
    rw [← Option.bind_assoc, hcat, ← List.append_assoc]
    refine bufAdd_bind_longer (fun next ↦ next ++ params.flatMap Param.wire) hrest fun next ↦ ?_
    rw [List.length_append]
    omega

theorem selSerialize_eq {params : List Param} (hknown : ∀ p ∈ params, p.type.known) :
    selSerialize params = bufAdd (params.flatMap Param.wire) := selSerializeFrom_eq hknown .empty

end LibTg.Mtx
