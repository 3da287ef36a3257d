import LibTg.Data.LittleEndian
import Mathlib.Data.Nat.Size

/-!
# Big-endian numbers

Big integers are written with the most significant byte first: with as many bytes as the number
takes, or filled up with zeros from the left to a given width.
-/

namespace LibTg

/-- The number whose big-endian bytes are given. -/
def beNat (bytes : Bytes) : ℕ := leNat bytes.reverse

/-- The `width` low bytes of `value`, most significant first. -/
def beBytes (width value : ℕ) : Bytes := (leBytes width value).reverse

/-- The number of bytes that a number takes. -/
def byteLength (value : ℕ) : ℕ := (Nat.size value + 7) / 8

@[simp]
theorem length_beBytes (width value : ℕ) : (beBytes width value).length = width := by
  rw [beBytes, List.length_reverse, length_leBytes]

theorem beNat_lt (bytes : Bytes) : beNat bytes < 256 ^ bytes.length := by
  have h := leNat_lt bytes.reverse
  rwa [List.length_reverse] at h

theorem beNat_beBytes {width value : ℕ} (hvalue : value < 256 ^ width) :
    beNat (beBytes width value) = value := by
  rw [beNat, beBytes, List.reverse_reverse, leNat_leBytes, Nat.mod_eq_of_lt hvalue]

theorem beBytes_beNat (bytes : Bytes) : beBytes bytes.length (beNat bytes) = bytes := by
  have h := leBytes_leNat bytes.reverse
  rw [List.length_reverse] at h
  rw [beBytes, beNat, h, List.reverse_reverse]

/-- A number takes at most `width` bytes if it is below `256 ^ width`. -/
theorem byteLength_le_iff {value width : ℕ} : byteLength value ≤ width ↔ value < 256 ^ width := by
  have hpow : 256 ^ width = 2 ^ (8 * width) := by
    rw [pow_mul]
    norm_num
  rw [hpow, ← Nat.size_le, byteLength]
  omega

theorem lt_pow_byteLength (value : ℕ) : value < 256 ^ byteLength value :=
  byteLength_le_iff.mp le_rfl

theorem leBytes_zero (width : ℕ) : leBytes width 0 = List.replicate width 0 := by
  induction width with
  | zero => rfl
  | succ width ih => rw [leBytes, Nat.zero_div, ih, List.replicate_succ]; rfl

/-- The bytes above a number are zero. -/
theorem leBytes_append_zeros {width value : ℕ} (more : ℕ) (hvalue : value < 256 ^ width) :
    leBytes (width + more) value = leBytes width value ++ List.replicate more 0 := by
  induction width generalizing value with
  | zero =>
    rw [Nat.pow_zero, Nat.lt_one_iff] at hvalue
    rw [hvalue, Nat.zero_add, leBytes_zero]
    rfl
  | succ width ih =>
    have hdiv : value / 256 < 256 ^ width := by
      rw [Nat.div_lt_iff_lt_mul (by decide), ← pow_succ]
      exact hvalue
    rw [Nat.add_right_comm, leBytes, ih hdiv, leBytes, List.cons_append]

/-- Filling up from the left. -/
theorem zeros_append_beBytes {width value : ℕ} (hwidth : byteLength value ≤ width) :
    List.replicate (width - byteLength value) 0 ++ beBytes (byteLength value) value =
      beBytes width value := by
  have hsum : byteLength value + (width - byteLength value) = width := by omega
  calc List.replicate (width - byteLength value) 0 ++ beBytes (byteLength value) value
      = (leBytes (byteLength value) value ++
          List.replicate (width - byteLength value) 0).reverse := by
        rw [List.reverse_append, List.reverse_replicate, beBytes]
    _ = beBytes width value := by
        rw [← leBytes_append_zeros _ (lt_pow_byteLength value), hsum, beBytes]

end LibTg
