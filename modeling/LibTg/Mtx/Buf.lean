import LibTg.Data.BigEndian
import LibTg.Tg.RandomIds
import Mathlib.Data.List.TakeDrop

/-!
# Buffers of a fixed size (`mtx/src/buf.c`)

A `buf_t_` holds an array of 800 bytes and the number of bytes in use. Every buffer is built in a
zeroed array, so that what is read behind its bytes is zero. A buffer that does not fit is reported
and then written past its array; such a call has no result here.
-/

namespace LibTg.Mtx

open LibTg.Tg (Rand bufRandAt drawBytes)

def maxBufSize : ℕ := 800

/-- A `buf_t_`: the bytes in use, in front of zeros. -/
@[ext]
structure Buf where
  bytes : Bytes
  fits : bytes.length ≤ maxBufSize
  deriving DecidableEq

def Buf.size (b : Buf) : ℕ := b.bytes.length

/-- `count` bytes of the array from an offset on. -/
def Buf.read (b : Buf) (offset count : ℕ) : Bytes := (b.bytes.drop offset).takeD count 0

/-- `buf_add_` for the bytes that it copies. -/
def bufAdd (data : Bytes) : Option Buf :=
  if h : data.length ≤ maxBufSize then some ⟨data, h⟩ else none

/-- `api.buf.add(b.data + offset, count)`: the loop stays inside the array of `b`. -/
def Buf.part (b : Buf) (offset count : ℕ) : Option Buf :=
  if offset + count ≤ maxBufSize then bufAdd (b.read offset count) else none

/-- `api.buf.add(b.data + count, b.size - count)`, with a difference of 32 bits. -/
def Buf.rest (b : Buf) (count : ℕ) : Option Buf :=
  b.part count ((b.size + (2 ^ 32 - count)) % 2 ^ 32)

def bufCat (dest src : Buf) : Option Buf := bufAdd (dest.bytes ++ src.bytes)

def bufSwap (b : Buf) : Buf := ⟨b.bytes.reverse, (List.length_reverse).trans_le b.fits⟩

/-- A buffer without bytes. -/
def Buf.empty : Buf := ⟨[], Nat.zero_le _⟩

/-- An empty buffer with a new size, as the code pads with zeros. -/
def zeroBuf (size : ℕ) : Option Buf := bufAdd (List.replicate size 0)

def bufAddUi32 (value : UInt32) : Option Buf := bufAdd (le32 value)

def bufGetUi32 (b : Buf) : UInt32 := getUi32 (b.read 0 4)

def bufGetUi64 (b : Buf) : UInt64 := getUi64 (b.read 0 8)

/-- `buf_rand_` in a given second. -/
def bufRand (rand : Rand) (now size : ℕ) : Option Buf := bufAdd (bufRandAt rand now size).1

def bufXor (a b : Buf) : Option Buf :=
  bufAdd (List.zipWith (· ^^^ ·) a.bytes (b.read 0 a.size))

/-! ## What is built from given bytes -/

theorem bufAdd_eq_some {data : Bytes} {b : Buf} : bufAdd data = some b ↔ b.bytes = data := by
  constructor
  · intro h
    unfold bufAdd at h
    split at h
    · cases h
      rfl
    · cases h
  · rintro rfl
    exact dif_pos b.fits

@[simp]
theorem bufAdd_bytes (b : Buf) : bufAdd b.bytes = some b := bufAdd_eq_some.mpr rfl

theorem bufAdd_of_le {data : Bytes} (hfits : data.length ≤ maxBufSize) :
    bufAdd data = some ⟨data, hfits⟩ := dif_pos hfits

theorem bufAdd_eq_none {data : Bytes} : bufAdd data = none ↔ maxBufSize < data.length := by
  unfold bufAdd
  split <;> simp_all

/-- Two parts that are put together fit if and only if the whole does. -/
theorem bufAdd_bind_bufCat (first second : Bytes) :
    ((bufAdd first).bind fun a ↦ (bufAdd second).bind fun b ↦ bufCat a b) =
      bufAdd (first ++ second) := by
  by_cases hfits : (first ++ second).length ≤ maxBufSize
  · have hlength : (first ++ second).length = first.length + second.length := List.length_append
    have hfirst : first.length ≤ maxBufSize := by omega
    have hsecond : second.length ≤ maxBufSize := by omega
    rw [bufAdd_of_le hfirst, Option.bind_some, bufAdd_of_le hsecond, Option.bind_some, bufCat]
  · rw [bufAdd_eq_none.mpr (Nat.lt_of_not_le hfits)]
    cases hfirst : bufAdd first with
    | none => rfl
    | some a =>
      cases hsecond : bufAdd second with
      | none => rfl
      | some b =>
        rw [Option.bind_some, Option.bind_some, bufCat, bufAdd_eq_some.mp hfirst,
          bufAdd_eq_some.mp hsecond, bufAdd_eq_none.mpr (Nat.lt_of_not_le hfits)]

@[simp]
theorem bufCat_empty (b : Buf) : bufCat .empty b = some b := bufAdd_bytes b

/-- What follows a buffer depends on its bytes alone. -/
theorem bufAdd_bind_congr {β : Type} {data : Bytes} {f g : Buf → Option β}
    (h : ∀ s : Buf, s.bytes = data → f s = g s) : (bufAdd data).bind f = (bufAdd data).bind g := by
  cases hadd : bufAdd data with
  | none => rfl
  | some s => exact h s (bufAdd_eq_some.mp hadd)

/-- A buffer that is put behind a first part, in front of what follows. -/
theorem bufCat_bind {β : Type} (first : Bytes) (b : Buf) (next : Buf → Option β) :
    ((bufAdd first).bind fun s ↦ (bufCat s b).bind next) =
      (bufAdd (first ++ b.bytes)).bind next := by
  rw [← bufAdd_bind_bufCat, bufAdd_bytes, Option.bind_assoc]
  rfl

/-- The same for a second part that is built between. -/
theorem bufAdd_bufCat_bind {β : Type} (first second : Bytes) (next : Buf → Option β) :
    ((bufAdd first).bind fun s ↦ (bufAdd second).bind fun b ↦ (bufCat s b).bind next) =
      (bufAdd (first ++ second)).bind next := by
  rw [← bufAdd_bind_bufCat, Option.bind_assoc]
  simp only [Option.bind_assoc]

/-- The same with the first part at hand. -/
theorem bind_bufCat (a : Buf) (second : Bytes) :
    ((bufAdd second).bind fun b ↦ bufCat a b) = bufAdd (a.bytes ++ second) := by
  rw [← bufAdd_bind_bufCat, bufAdd_bytes, Option.bind_some]

/-- The same with the second part at hand. -/
theorem bind_bufCat_right (first : Bytes) (b : Buf) :
    ((bufAdd first).bind fun s ↦ bufCat s b) = bufAdd (first ++ b.bytes) := by
  rw [← bufAdd_bind_bufCat]
  simp only [bufAdd_bytes, Option.bind_some]

/-- A buffer that is made from a shorter one is there if and only if its bytes fit. -/
theorem bufAdd_bind_longer {data : Bytes} {make : Buf → Option Buf} (longer : Bytes → Bytes)
    (hmake : ∀ s, make s = bufAdd (longer s.bytes))
    (hlonger : ∀ data, data.length ≤ (longer data).length) :
    (bufAdd data).bind make = bufAdd (longer data) := by
  cases hadd : bufAdd data with
  | none =>
    have hlong := bufAdd_eq_none.mp hadd
    exact (bufAdd_eq_none.mpr (hlong.trans_le (hlonger data))).symm
  | some s => rw [Option.bind_some, hmake, bufAdd_eq_some.mp hadd]

/-! ## What is read of given bytes -/

section Read

variable {b : Buf} {first second : Bytes}

theorem read_of_le {offset count : ℕ} (h : offset + count ≤ b.size) :
    b.read offset count = (b.bytes.drop offset).take count := by
  rw [Buf.read, List.takeD_eq_take]
  rw [List.length_drop]
  unfold Buf.size at h
  omega

theorem length_read (b : Buf) (offset count : ℕ) : (b.read offset count).length = count :=
  List.takeD_length _ _ _

/-- Bytes inside the buffer. -/
theorem read_append {third : Bytes} (hbytes : b.bytes = first ++ (second ++ third)) :
    b.read first.length second.length = second := by
  rw [read_of_le (by rw [Buf.size, hbytes, List.length_append, List.length_append]; omega), hbytes,
    List.drop_left, List.take_left]

/-- The first bytes. -/
theorem read_zero_append (hbytes : b.bytes = first ++ second) : b.read 0 first.length = first :=
  have hnone : b.bytes = [] ++ (first ++ second) := hbytes
  read_append hnone

theorem part_append {third : Bytes} (hbytes : b.bytes = first ++ (second ++ third))
    {offset count : ℕ} (hoffset : first.length = offset) (hcount : second.length = count) :
    b.part offset count = bufAdd second := by
  have hfits := b.fits
  rw [hbytes, List.length_append, List.length_append] at hfits
  rw [Buf.part, if_pos (by omega), ← hoffset, ← hcount, read_append hbytes]

theorem part_zero_append (hbytes : b.bytes = first ++ second) {count : ℕ}
    (hcount : first.length = count) : b.part 0 count = bufAdd first :=
  have hnone : b.bytes = [] ++ (first ++ second) := hbytes
  part_append hnone rfl hcount

theorem take_takeD {α : Type} (list : List α) (default : α) {count more : ℕ} (h : count ≤ more) :
    (list.takeD more default).take count = list.takeD count default := by
  induction count generalizing more list with
  | zero => rfl
  | succ count ih =>
    obtain ⟨more, rfl⟩ : ∃ rest, more = rest + 1 := ⟨more - 1, by omega⟩
    rw [List.takeD_succ, List.takeD_succ, List.take_succ_cons, ih list.tail (by omega)]

/-- A part holds what the array holds. -/
theorem read_part {part : Buf} {offset count small : ℕ} (hpart : b.part offset count = some part)
    (hsmall : small ≤ count) : part.read 0 small = b.read offset small := by
  unfold Buf.part at hpart
  split at hpart
  · have hbytes := bufAdd_eq_some.mp hpart
    have hlength := congrArg List.length hbytes
    rw [length_read] at hlength
    rw [read_of_le (by rw [Buf.size, hlength]; omega), hbytes, List.drop_zero, Buf.read,
      take_takeD _ _ hsmall, Buf.read]
  · cases hpart

theorem part_size (b : Buf) : b.part 0 b.size = some b := by
  rw [Buf.size, part_zero_append (List.append_nil _).symm rfl, bufAdd_bytes]

/-- The rest is there only if the bytes in front of it are: a difference below zero is too large. -/
theorem rest_eq (b : Buf) {count : ℕ} (hcount : count < 2 ^ 31) :
    b.rest count = if count ≤ b.size then bufAdd (b.bytes.drop count) else none := by
  have hfits : b.size ≤ 800 := b.fits
  unfold Buf.rest
  split
  case isTrue hle =>
    have hdiff : (b.size + (2 ^ 32 - count)) % 2 ^ 32 = b.size - count := by omega
    rw [hdiff, Buf.part, if_pos (by unfold maxBufSize; omega), read_of_le (by omega),
      List.take_of_length_le (by rw [List.length_drop, Buf.size])]
  case isFalse hlt =>
    rw [Buf.part, if_neg]
    unfold maxBufSize
    omega

/-- What follows given bytes. -/
theorem rest_append (hbytes : b.bytes = first ++ second) {count : ℕ}
    (hcount : first.length = count) : ∃ rest, b.rest count = some rest ∧ rest.bytes = second := by
  have hfits : b.bytes.length ≤ 800 := b.fits
  have hlength := congrArg List.length hbytes
  rw [List.length_append] at hlength
  rw [rest_eq b (by omega), if_pos (by rw [Buf.size]; omega), hbytes, ← hcount, List.drop_left,
    bufAdd_of_le (by rw [maxBufSize]; omega)]
  exact ⟨_, rfl, rfl⟩

theorem bufGetUi32_append {value : UInt32} (hbytes : b.bytes = le32 value ++ second) :
    bufGetUi32 b = value := by
  have hread := read_zero_append hbytes
  rw [length_le32] at hread
  rw [bufGetUi32, hread, getUi32_le32]

theorem bufGetUi64_append {value : UInt64} (hbytes : b.bytes = le64 value ++ second) :
    bufGetUi64 b = value := by
  have hread := read_zero_append hbytes
  rw [length_le64] at hread
  rw [bufGetUi64, hread, getUi64_le64]

end Read

/-- `buf_rand_` fills a buffer of the size asked for. -/
theorem length_drawBytes (rand : Rand) (count : ℕ) (generator : Tg.Generator) :
    (drawBytes rand count generator).1.length = count := by
  induction count generalizing generator with
  | zero => rfl
  | succ count ih => rw [drawBytes, List.length_cons, ih]

end LibTg.Mtx
