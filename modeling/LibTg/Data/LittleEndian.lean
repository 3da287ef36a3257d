import Mathlib.Data.List.Basic
import Mathlib.Data.Nat.Bitwise
import Mathlib.Tactic.Ring

/-!
# Little-endian words in byte strings

Fixed-width little-endian encodings of natural numbers as lists of bytes, their inverse, and the
bit-setting update of a word that is stored inside a longer byte string. The library knows nothing
about any particular wire format; every width and value is a parameter.
-/

namespace LibTg

/-- A byte string, as the contents of a memory block or of a packet. -/
abbrev Bytes := List UInt8

/-- The `width` low bytes of `value`, least significant first. -/
def leBytes : ℕ → ℕ → Bytes
  | 0, _ => []
  | width + 1, value => UInt8.ofNat value :: leBytes width (value / 256)

/-- The number whose little-endian bytes are given. -/
def leNat : Bytes → ℕ
  | [] => 0
  | byte :: rest => byte.toNat + 256 * leNat rest

@[simp]
theorem length_leBytes (width value : ℕ) : (leBytes width value).length = width := by
  induction width generalizing value with
  | zero => rfl
  | succ width ih => simp only [leBytes, List.length_cons, ih]

theorem leNat_leBytes (width value : ℕ) : leNat (leBytes width value) = value % 256 ^ width := by
  induction width generalizing value with
  | zero => simp [leBytes, leNat, Nat.mod_one]
  | succ width ih =>
    have hbyte : (UInt8.ofNat value).toNat = value % 256 := by simp
    rw [leBytes, leNat, ih, hbyte, pow_succ', Nat.mod_mul]

theorem leNat_lt (bytes : Bytes) : leNat bytes < 256 ^ bytes.length := by
  induction bytes with
  | nil => simp [leNat]
  | cons byte rest ih =>
    have hbyte : byte.toNat < 256 := byte.toNat_lt
    rw [leNat, List.length_cons, pow_succ]
    omega

theorem leBytes_leNat (bytes : Bytes) : leBytes bytes.length (leNat bytes) = bytes := by
  induction bytes with
  | nil => rfl
  | cons byte rest ih =>
    have hbyte : byte.toNat < 256 := byte.toNat_lt
    have hdiv : (byte.toNat + 256 * leNat rest) / 256 = leNat rest := by omega
    have hmod : UInt8.ofNat (byte.toNat + 256 * leNat rest) = byte := by
      apply UInt8.toNat_inj.mp
      simp only [UInt8.toNat_ofNat']
      omega
    rw [List.length_cons, leNat, leBytes, hdiv, ih, hmod]

theorem leNat_append (low high : Bytes) :
    leNat (low ++ high) = leNat low + 256 ^ low.length * leNat high := by
  induction low with
  | nil => simp [leNat]
  | cons byte rest ih =>
    rw [List.cons_append, leNat, leNat, ih, List.length_cons, pow_succ]
    ring

/-! ## Machine words -/

/-- The four bytes of a 32-bit word in memory. -/
def le32 (value : UInt32) : Bytes := leBytes 4 value.toNat

/-- The eight bytes of a 64-bit word in memory. -/
def le64 (value : UInt64) : Bytes := leBytes 8 value.toNat

/-- The 32-bit word stored in the given bytes. -/
def getUi32 (bytes : Bytes) : UInt32 := UInt32.ofNat (leNat bytes)

/-- The 64-bit word stored in the given bytes. -/
def getUi64 (bytes : Bytes) : UInt64 := UInt64.ofNat (leNat bytes)

@[simp]
theorem length_le32 (value : UInt32) : (le32 value).length = 4 := length_leBytes 4 _

@[simp]
theorem length_le64 (value : UInt64) : (le64 value).length = 8 := length_leBytes 8 _

@[simp]
theorem getUi32_le32 (value : UInt32) : getUi32 (le32 value) = value := by
  have hlt := value.toNat_lt
  rw [getUi32, le32, leNat_leBytes, Nat.mod_eq_of_lt (by simpa using hlt)]
  exact UInt32.ofNat_toNat

@[simp]
theorem getUi64_le64 (value : UInt64) : getUi64 (le64 value) = value := by
  have hlt := value.toNat_lt
  rw [getUi64, le64, leNat_leBytes, Nat.mod_eq_of_lt (by simpa using hlt)]
  exact UInt64.ofNat_toNat

theorem toNat_getUi32 {bytes : Bytes} (hlength : bytes.length = 4) :
    (getUi32 bytes).toNat = leNat bytes := by
  have hlt := leNat_lt bytes
  rw [hlength] at hlt
  rw [getUi32, UInt32.toNat_ofNat']
  exact Nat.mod_eq_of_lt (by simpa using hlt)

theorem le64_getUi64 (bytes : Bytes) (hlength : bytes.length = 8) :
    le64 (getUi64 bytes) = bytes := by
  have hlt := leNat_lt bytes
  rw [hlength] at hlt
  have hword : (getUi64 bytes).toNat = leNat bytes := by
    rw [getUi64, UInt64.toNat_ofNat']
    exact Nat.mod_eq_of_lt (by simpa using hlt)
  have hinverse := leBytes_leNat bytes
  rw [hlength] at hinverse
  rw [le64, hword, hinverse]

theorem getUi64_inj {first second : Bytes} (hfirst : first.length = 8)
    (hsecond : second.length = 8) : getUi64 first = getUi64 second ↔ first = second := by
  constructor
  · intro h
    rw [← le64_getUi64 first hfirst, h, le64_getUi64 second hsecond]
  · exact congrArg getUi64

/-! ## Replacing bytes inside a string -/

/-- Overwrite the bytes from `offset` on by `source`; the rest of the string keeps its place. -/
def overwrite (bytes : Bytes) (offset : ℕ) (source : Bytes) : Bytes :=
  bytes.take offset ++ source ++ bytes.drop (offset + source.length)

@[simp]
theorem length_overwrite {bytes : Bytes} {offset : ℕ} {source : Bytes}
    (hfits : offset + source.length ≤ bytes.length) :
    (overwrite bytes offset source).length = bytes.length := by
  simp only [overwrite, List.length_append, List.length_take, List.length_drop]
  omega

theorem overwrite_append (before old after source : Bytes) (hlength : old.length = source.length) :
    overwrite (before ++ old ++ after) before.length source = before ++ source ++ after := by
  have htake : (before ++ old ++ after).take before.length = before := by simp
  have hdrop : (before ++ old ++ after).drop (before.length + source.length) = after := by
    rw [← hlength, ← List.length_append, List.drop_left]
  rw [overwrite, htake, hdrop]

end LibTg
