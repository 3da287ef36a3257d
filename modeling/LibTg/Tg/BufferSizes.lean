import LibTg.Tg.Gunzip

/-!
# Sizes in 32 bits (`tl/buf.c`, `tl/gunzip.c`, `crypto/aes.c`, `tg/queue.c`)

The sizes of buffers are `uint32_t`, and so is the length that a server puts in front of a packet. The
functions that make room compute the size of the new block in this type, and `buf_cat`, `gunzip_buf`
and the ciphers do not look at what `buf_realloc` returns. This is when a size is what it would be
without a bound. Whether the allocator has a block of so many bytes is a parameter; where it is asked
for none, it may return a block without bytes or `NULL`.
-/

namespace LibTg.Tg

open LibTg.Tl

/-- The sizes of a `buf_t` with a block of `asize + 1` bytes. -/
structure BufSizes where
  size : UInt32
  asize : UInt32
  size_le : size ≤ asize
  asize_lt : asize.toNat + 1 < 2 ^ 32

/-- What a function leaves: whether it reports an error, the size of the block, `asize`, and the indices
of the block that it writes to. -/
structure Resized where
  failed : Bool
  block : ℕ
  asize : UInt32
  writes : List ℕ
  deriving DecidableEq

section Resize

variable (alloc : ℕ → Bool)

def bufReallocSizes (buf : BufSizes) (size : UInt32) : Resized :=
  if buf.asize < size then
    if alloc (size + 1).toNat then
      ⟨false, (size + 1).toNat, size,
        List.range' buf.asize.toNat (size - buf.asize + 1).toNat⟩
    else ⟨true, buf.asize.toNat + 1, buf.asize, []⟩
  else ⟨false, buf.asize.toNat + 1, buf.asize, []⟩

/-- `buf_cat`, for a `src` of this size. It reports no error. -/
def bufCatSizes (dest : BufSizes) (src : UInt32) : Resized :=
  let size := dest.size + src
  let grown := if dest.asize < size then bufReallocSizes alloc dest size
    else ⟨false, dest.asize.toNat + 1, dest.asize, []⟩
  ⟨false, grown.block, grown.asize,
    grown.writes ++ (List.range src.toNat).map fun i ↦ (UInt32.ofNat i + dest.size).toNat⟩

/-- The sizes of a buffer from `buf_init`. -/
def newSizes : BufSizes where
  size := 0
  asize := UInt32.ofNat bufsiz
  size_le := by decide
  asize_lt := by decide

/-- The room that `gunzip_buf` makes. -/
def gunzipSize (packed : UInt32) : UInt32 := packed * 10

/-- What `inflate` makes of the compressed bytes in the room that there is. -/
def gunzipInflated (inflate : Inflate) (packed : Bytes) : Inflated :=
  inflate packed
    (bufReallocSizes alloc newSizes (gunzipSize (UInt32.ofNat packed.length))).asize.toNat

/-- The room that `tg_cry_aes_e` and `tg_cry_aes_d` make. -/
def cipherSize (plain : UInt32) : UInt32 := plain * 3

/-! ## The promise -/

/-- `buf_realloc` makes room for `size` bytes and the final one and fills only what is its own, or it
reports an error and writes nothing. -/
def ReallocKept (buf : BufSizes) (size : UInt32) : Prop :=
  let result := bufReallocSizes alloc buf size
  if result.failed then result.writes = []
  else size.toNat + 1 ≤ result.block ∧ ∀ index ∈ result.writes, index < result.block

/-- `buf_cat` makes room for both buffers, or it reports an error and writes nothing. -/
def CatKept (dest : BufSizes) (src : UInt32) : Prop :=
  let result := bufCatSizes alloc dest src
  dest.size.toNat + src.toNat ≤ result.block ∨ result.failed = true ∧ result.writes = []

/-- The product in `gunzip_buf` is that of natural numbers, or the function reports an error and has
written nothing. -/
def GunzipKept (inflate : Inflate) (packed : Bytes) : Prop :=
  (gunzipSize (UInt32.ofNat packed.length)).toNat = (UInt32.ofNat packed.length).toNat * 10 ∨
    (gunzipInflated alloc inflate packed).Failed ∧
      (gunzipInflated alloc inflate packed).written = []

/-- The product in the ciphers, which report no error, is that of natural numbers. -/
def CipherKept (plain : UInt32) : Prop := (cipherSize plain).toNat = plain.toNat * 3

/-- No size wraps: that of a block for a packet of `len` bytes, of two buffers, of the output for
compressed bytes, or of the output of a cipher. -/
structure SizesKept (inflate : Inflate) (buf : BufSizes) (len : UInt32) (dest : BufSizes)
    (src : UInt32) (packed : Bytes) (plain : UInt32) : Prop where
  realloc : ReallocKept alloc buf len
  cat : CatKept alloc dest src
  gunzip : GunzipKept alloc inflate packed
  cipher : CipherKept plain

/-! ## The condition -/

/-- The size is not the largest one, or the allocator has no block without bytes. -/
def ReallocFits (buf : BufSizes) (size : UInt32) : Prop :=
  size.toNat + 1 < 2 ^ 32 ∨ size.toNat ≤ buf.asize.toNat ∨ alloc 0 = false

/-- Both sizes are within the block, or there is a larger block, which need not be as large as the
largest size. Where the block lacks only the final byte, the allocator may also refuse. -/
def CatFits (dest : BufSizes) (src : UInt32) : Prop :=
  dest.size.toNat + src.toNat ≤ dest.asize.toNat ∨
    dest.size.toNat + src.toNat + 1 < 2 ^ 32 ∧ alloc (dest.size.toNat + src.toNat + 1) = true ∨
    dest.size.toNat + src.toNat = dest.asize.toNat + 1 ∧ alloc (dest.size + src + 1).toNat = false

/-- Ten times the size is a size, or `inflate` refuses the bytes before it writes any. -/
def GunzipFits (inflate : Inflate) (packed : Bytes) : Prop :=
  (UInt32.ofNat packed.length).toNat * 10 < 2 ^ 32 ∨
    (gunzipInflated alloc inflate packed).Failed ∧
      (gunzipInflated alloc inflate packed).written = []

/-- Three times the size is a size. -/
def CipherFits (plain : UInt32) : Prop := plain.toNat * 3 < 2 ^ 32

/-- Everything stays below `2 ^ 32`. -/
structure SizesFit (inflate : Inflate) (buf : BufSizes) (len : UInt32) (dest : BufSizes)
    (src : UInt32) (packed : Bytes) (plain : UInt32) : Prop where
  realloc : ReallocFits alloc buf len
  cat : CatFits alloc dest src
  gunzip : GunzipFits alloc inflate packed
  cipher : CipherFits plain

end Resize

section Sizes

variable {alloc : ℕ → Bool} {buf dest : BufSizes} {size src plain : UInt32}

theorem toNat_add_one (hlt : size.toNat + 1 < 2 ^ 32) : (size + 1).toNat = size.toNat + 1 := by
  rw [UInt32.toNat_add, UInt32.toNat_one, Nat.mod_eq_of_lt hlt]

theorem add_one_of_max (hmax : ¬ size.toNat + 1 < 2 ^ 32) : (size + 1).toNat = 0 := by
  have hlt := size.toNat_lt
  rw [UInt32.toNat_add, UInt32.toNat_one]
  omega

/-- The product with a small factor. -/
theorem toNat_mul_eq_iff (size factor : UInt32) :
    (size * factor).toNat = size.toNat * factor.toNat ↔ size.toNat * factor.toNat < 2 ^ 32 := by
  rw [UInt32.toNat_mul]
  constructor
  · intro heq
    rw [← heq]
    exact Nat.mod_lt _ (Nat.two_pow_pos 32)
  · exact Nat.mod_eq_of_lt

/-- Enough memory is filled, and no more. -/
theorem toNat_fill (hgrow : buf.asize.toNat < size.toNat) (hlt : size.toNat + 1 < 2 ^ 32) :
    buf.asize.toNat + (size - buf.asize + 1).toNat = size.toNat + 1 := by
  have hsub : (size - buf.asize).toNat = size.toNat - buf.asize.toNat :=
    UInt32.toNat_sub_of_le _ _ hgrow.le
  rw [toNat_add_one (by omega), hsub]
  omega

theorem reallocKept_iff : ReallocKept alloc buf size ↔ ReallocFits alloc buf size := by
  rw [ReallocKept, ReallocFits, bufReallocSizes]
  by_cases hgrow : buf.asize.toNat < size.toNat
  · rw [if_pos (UInt32.lt_iff_toNat_lt.mpr hgrow)]
    by_cases hlt : size.toNat + 1 < 2 ^ 32
    · apply iff_of_true _ (.inl hlt)
      rw [toNat_add_one hlt]
      by_cases halloc : alloc (size.toNat + 1) = true
      · rw [if_pos halloc]
        refine ⟨le_rfl, fun index hindex ↦ ?_⟩
        rw [← toNat_fill hgrow hlt]
        exact (List.mem_range'_1.mp hindex).2
      · rw [if_neg halloc]
        rfl
    · rw [add_one_of_max hlt]
      by_cases halloc : alloc 0 = true
      · rw [if_pos halloc]
        refine iff_of_false (fun h ↦ absurd h.1 (Nat.not_succ_le_zero _)) ?_
        rintro (h | h | h)
        · exact hlt h
        · exact absurd hgrow (not_lt.mpr h)
        · rw [halloc] at h
          cases h
      · rw [if_neg halloc]
        exact iff_of_true rfl (.inr (.inr (Bool.eq_false_iff.mpr halloc)))
  · rw [if_neg fun h ↦ hgrow (UInt32.lt_iff_toNat_lt.mp h)]
    exact iff_of_true ⟨Nat.succ_le_succ (not_lt.mp hgrow), nofun⟩ (.inr (.inl (not_lt.mp hgrow)))

/-- The size of the block after `buf_cat`. -/
theorem bufCatSizes_block (dest : BufSizes) (src : UInt32) :
    (bufCatSizes alloc dest src).block =
      if dest.asize.toNat < (dest.size + src).toNat ∧ alloc (dest.size + src + 1).toNat = true then
        (dest.size + src + 1).toNat
      else dest.asize.toNat + 1 := by
  rw [bufCatSizes]
  by_cases hgrow : dest.asize.toNat < (dest.size + src).toNat
  · rw [if_pos (UInt32.lt_iff_toNat_lt.mpr hgrow), bufReallocSizes,
      if_pos (UInt32.lt_iff_toNat_lt.mpr hgrow)]
    by_cases halloc : alloc (dest.size + src + 1).toNat = true
    · rw [if_pos halloc, if_pos ⟨hgrow, halloc⟩]
    · rw [if_neg halloc, if_neg fun h ↦ halloc h.2]
  · rw [if_neg fun h ↦ hgrow (UInt32.lt_iff_toNat_lt.mp h), if_neg fun h ↦ hgrow h.1]

theorem catKept_iff : CatKept alloc dest src ↔ CatFits alloc dest src := by
  have hsize : dest.size.toNat ≤ dest.asize.toNat := UInt32.le_iff_toNat_le.mp dest.size_le
  have hasize := dest.asize_lt
  have hsrc := src.toNat_lt
  have hsum : (dest.size + src).toNat = (dest.size.toNat + src.toNat) % 2 ^ 32 :=
    UInt32.toNat_add _ _
  have hkept : CatKept alloc dest src ↔
      dest.size.toNat + src.toNat ≤ (bufCatSizes alloc dest src).block :=
    or_iff_left fun h ↦ Bool.false_ne_true h.1
  rw [hkept, CatFits, bufCatSizes_block]
  by_cases hwrap : dest.size.toNat + src.toNat < 2 ^ 32
  · rw [Nat.mod_eq_of_lt hwrap] at hsum
    rw [hsum]
    by_cases hlt : (dest.size + src).toNat + 1 < 2 ^ 32
    · rw [toNat_add_one hlt, hsum]
      rw [hsum] at hlt
      by_cases halloc : alloc (dest.size.toNat + src.toNat + 1) = true
      · simp only [halloc, and_true, hlt, Bool.true_eq_false, and_false, or_false, or_true, iff_true]
        split <;> omega
      · simp only [halloc, and_false, and_true, if_false, false_or, Bool.false_eq_true]
        omega
    · rw [add_one_of_max hlt]
      rw [hsum] at hlt
      by_cases halloc : alloc 0 = true
      · simp only [halloc, and_true, Bool.true_eq_false, and_false, or_false]
        split <;> omega
      · have hfalse := Bool.eq_false_iff.mpr halloc
        simp only [hfalse, Bool.false_eq_true, and_false, if_false, and_true]
        omega
  · have hsmall : (dest.size + src).toNat ≤ dest.asize.toNat := by omega
    rw [if_neg fun h ↦ absurd h.1 (not_lt.mpr hsmall)]
    omega

theorem gunzipKept_iff {inflate : Inflate} {packed : Bytes} :
    GunzipKept alloc inflate packed ↔ GunzipFits alloc inflate packed :=
  or_congr_left' fun _ ↦ toNat_mul_eq_iff (UInt32.ofNat packed.length) 10

theorem cipherKept_iff : CipherKept plain ↔ CipherFits plain := toNat_mul_eq_iff plain 3

/-- The sizes are what they would be without a bound exactly if they stay below `2 ^ 32`. -/
theorem sizesKept_iff (alloc : ℕ → Bool) (inflate : Inflate) (buf : BufSizes) (len : UInt32)
    (dest : BufSizes) (src : UInt32) (packed : Bytes) (plain : UInt32) :
    SizesKept alloc inflate buf len dest src packed plain ↔
      SizesFit alloc inflate buf len dest src packed plain :=
  ⟨fun h ↦ ⟨reallocKept_iff.mp h.realloc, catKept_iff.mp h.cat, gunzipKept_iff.mp h.gunzip,
      cipherKept_iff.mp h.cipher⟩,
    fun h ↦ ⟨reallocKept_iff.mpr h.realloc, catKept_iff.mpr h.cat, gunzipKept_iff.mpr h.gunzip,
      cipherKept_iff.mpr h.cipher⟩⟩

/-- Where every allocation succeeds, these are the sizes for which `buf_realloc` has a result. -/
theorem bufRealloc_isSome_iff (moves : ℕ → Bool) {whole : Buf} (hasize : whole.asize = buf.asize.toNat) :
    (bufRealloc moves whole size.toNat).isSome ↔ ReallocKept (fun _ ↦ true) buf size := by
  rw [reallocKept_iff, ReallocFits, bufRealloc, ← hasize]
  by_cases hgrow : whole.asize < size.toNat
  · have hmod : size.toNat + 1 ≤ (size.toNat + 1) % 2 ^ 32 ↔ size.toNat + 1 < 2 ^ 32 := by
      have hlt := size.toNat_lt
      omega
    rw [dif_pos hgrow]
    by_cases hlt : size.toNat + 1 < 2 ^ 32
    · rw [if_pos (hmod.mpr hlt)]
      exact iff_of_true rfl (.inl hlt)
    · rw [if_neg (mt hmod.mp hlt)]
      refine iff_of_false Bool.false_ne_true ?_
      rintro (h | h | h)
      · exact hlt h
      · exact absurd hgrow (not_lt.mpr h)
      · cases h
  · rw [dif_neg hgrow]
    exact iff_of_true rfl (.inr (.inl (not_lt.mp hgrow)))

/-- A packet of `2 ^ 32 - 1` bytes gets a block without any. -/
theorem largest_not_kept :
    ¬ SizesKept (fun _ ↦ true) (fun _ _ ↦ ⟨-3, []⟩) newSizes 0xffffffff newSizes 0 [] 0 := by
  intro hkept
  have hnone : bufRealloc (fun _ ↦ true) bufNew 0xffffffff = none := rfl
  have hsome : (bufRealloc (fun _ ↦ true) bufNew 0xffffffff).isSome :=
    (bufRealloc_isSome_iff (fun _ ↦ true) rfl).mpr hkept.realloc
  rw [hnone] at hsome
  cases hsome

end Sizes

end LibTg.Tg
