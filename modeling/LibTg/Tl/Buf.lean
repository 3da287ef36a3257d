import LibTg.Data.LittleEndian

/-!
# Growing buffers (`tl/buf.c`)

A `buf_t` owns one heap block of `asize + 1` bytes, of which the first `size` are its contents.
Every operation that writes is partial: a write outside the block has no meaning in C, and the
model answers `none` there. Sizes are computed modulo `2 ^ 32`, as `uint32_t` arithmetic does.

`realloc` may keep a block in place or move it. The parameter `moves` says which, as a predicate on
the requested size: the sizes one buffer asks for strictly grow, so such a predicate covers every
behaviour of the allocator. A block keeps the number `block` as long as it stays where it is, and a
moved block gets a number that no earlier block of the buffer had.
-/

namespace LibTg.Tl

/-- `BUFSIZ` of the iOS SDK's `stdio.h`. -/
def bufsiz : ℕ := 1024

/-- A `buf_t` whose `data` is still its `aptr`; `mem` is the whole block. -/
structure Buf where
  block : ℕ
  mem : Bytes
  size : ℕ
  asize : ℕ
  mem_length : mem.length = asize + 1
  size_le : size ≤ asize

/-- The contents of a buffer, the first `size` bytes of its block. -/
def Buf.bytes (buf : Buf) : Bytes := buf.mem.take buf.size

/-- `buf_init` and `buf_new`: an empty buffer in a zeroed block. -/
def bufNew : Buf where
  block := 0
  mem := List.replicate (bufsiz + 1) 0
  size := 0
  asize := bufsiz
  mem_length := List.length_replicate
  size_le := Nat.zero_le _

section Realloc

variable (moves : ℕ → Bool)

/-- `buf_realloc`: the block grows to `size + 1` bytes (in 32-bit arithmetic) and everything from
the old `asize` on is zero-filled, up to and including index `size`. -/
def bufRealloc (buf : Buf) (size : ℕ) : Option Buf :=
  if hgrow : buf.asize < size then
    if size + 1 ≤ (size + 1) % 2 ^ 32 then
      some
        { block := if moves size then buf.block + 1 else buf.block
          mem := buf.mem.take buf.asize ++ List.replicate (size - buf.asize + 1) 0
          size := buf.size
          asize := size
          mem_length := by
            simp only [List.length_append, List.length_take, List.length_replicate, buf.mem_length]
            omega
          size_le := buf.size_le.trans hgrow.le }
    else none
  else some buf

theorem bufRealloc_le {buf grown : Buf} {size : ℕ} (h : bufRealloc moves buf size = some grown) :
    size ≤ grown.asize := by
  unfold bufRealloc at h
  split at h
  · split at h
    · cases h
      exact le_rfl
    · cases h
  · cases h
    omega

/-- `buf_cat`: append `src` to `dest`. The new size wraps at 32 bits before the block is grown. -/
def bufCat (dest : Buf) (src : Bytes) : Option Buf :=
  match hrealloc : bufRealloc moves dest ((dest.size + src.length) % 2 ^ 32) with
  | none => none
  | some grown =>
    if hfits : grown.size + src.length ≤ grown.mem.length then
      some
        { grown with
          mem := overwrite grown.mem grown.size src
          size := (dest.size + src.length) % 2 ^ 32
          mem_length := by rw [length_overwrite hfits]; exact grown.mem_length
          size_le := bufRealloc_le moves hrealloc }
    else none

/-- A run of statements `buf = buf_cat(buf, …)`, one for each chunk. -/
def bufCatAll (dest : Buf) (chunks : List Bytes) : Option Buf :=
  chunks.foldlM (bufCat moves) dest

/-- `buf_add`: a fresh buffer holding a copy of `data`. -/
def bufAdd (data : Bytes) : Option Buf := bufCat moves bufNew data

/-! ## Buffers as byte strings -/

/-- The buffer holds exactly `bytes`, in a block of the size that `buf_cat` leaves behind. -/
structure Holds (buf : Buf) (bytes : Bytes) : Prop where
  bytes_eq : buf.bytes = bytes
  asize_eq : buf.asize = max bufsiz bytes.length

theorem Holds.size_eq {buf : Buf} {bytes : Bytes} (h : Holds buf bytes) :
    buf.size = bytes.length := by
  have hlength := congrArg List.length h.bytes_eq
  rw [Buf.bytes, List.length_take, buf.mem_length] at hlength
  have hle := buf.size_le
  omega

theorem holds_bufNew : Holds bufNew [] where
  bytes_eq := rfl
  asize_eq := rfl

/-- A block splits into the contents and an unused tail. -/
theorem Holds.exists_slack {buf : Buf} {bytes : Bytes} (h : Holds buf bytes) :
    ∃ slack, buf.mem = bytes ++ slack := by
  refine ⟨buf.mem.drop buf.size, ?_⟩
  have hsplit := (List.take_append_drop buf.size buf.mem).symm
  rw [← Buf.bytes, h.bytes_eq] at hsplit
  exact hsplit

/-- What `buf_realloc` does to a buffer that holds `bytes`, whether or not the block moves. -/
theorem bufRealloc_spec {buf : Buf} {bytes : Bytes} (h : Holds buf bytes) (size : ℕ)
    (hfits : size + 1 < 2 ^ 32) :
    ∃ grown, bufRealloc moves buf size = some grown ∧ grown.bytes = bytes ∧
      grown.size = bytes.length ∧ grown.asize = max buf.asize size ∧
      grown.block = if buf.asize < size ∧ moves size = true then buf.block + 1 else buf.block := by
  have hsizeEq := h.size_eq
  by_cases hgrow : buf.asize < size
  · have hle := buf.size_le
    have hlength := buf.mem_length
    have hwrap : size + 1 ≤ (size + 1) % 2 ^ 32 := by rw [Nat.mod_eq_of_lt hfits]
    rw [bufRealloc, dif_pos hgrow, if_pos hwrap]
    refine ⟨_, rfl, ?_, hsizeEq, ?_, ?_⟩
    · rw [← h.bytes_eq, Buf.bytes, Buf.bytes]
      have hprefix : buf.size ≤ (buf.mem.take buf.asize).length := by
        rw [List.length_take]
        omega
      rw [List.take_append_of_le_length hprefix, List.take_take, Nat.min_eq_left hle]
    · exact (Nat.max_eq_right hgrow.le).symm
    · simp [hgrow]
  · rw [bufRealloc, dif_neg hgrow]
    exact ⟨buf, rfl, h.bytes_eq, hsizeEq, (Nat.max_eq_left (by omega)).symm, by simp [hgrow]⟩

/-- `buf_cat` appends, as long as the total stays a 32-bit size with room for the final byte. The
block keeps its number unless the total passes both the old `asize` and the allocator moves it. -/
theorem bufCat_spec {dest : Buf} {bytes : Bytes} (h : Holds dest bytes) (src : Bytes)
    (hfits : bytes.length + src.length + 1 < 2 ^ 32) :
    ∃ result, bufCat moves dest src = some result ∧ Holds result (bytes ++ src) ∧
      result.block = if dest.asize < bytes.length + src.length ∧
        moves (bytes.length + src.length) = true then dest.block + 1 else dest.block := by
  have hsize := h.size_eq
  have hwrap : (dest.size + src.length) % 2 ^ 32 = bytes.length + src.length := by
    rw [hsize]
    exact Nat.mod_eq_of_lt (by omega)
  obtain ⟨grown, hrealloc, hbytes, hgrownSize, hasize, hblock⟩ :=
    bufRealloc_spec moves h (bytes.length + src.length) hfits
  have hroom : grown.size + src.length ≤ grown.mem.length := by
    rw [grown.mem_length, hgrownSize, hasize]
    omega
  have hmem : grown.mem.take grown.size = bytes := hbytes
  unfold bufCat
  rw [← hwrap] at hrealloc
  split
  · rename_i heq
    rw [hrealloc] at heq
    cases heq
  · rename_i found heq
    rw [hrealloc] at heq
    cases heq
    rw [dif_pos hroom]
    refine ⟨_, rfl, ⟨?_, ?_⟩, hblock⟩
    · simp only [Buf.bytes, hwrap, overwrite, hmem]
      rw [← List.length_append, List.take_left]
    · simp only [hasize, h.asize_eq, List.length_append]
      omega

/-- Past the 32-bit range `buf_cat` leaves its block: the size wraps, so the block is not grown,
or `size + 1` is `0`, so it is freed. -/
theorem bufCat_eq_none {dest : Buf} {bytes : Bytes} (h : Holds dest bytes) (src : Bytes)
    (hbytes : bytes.length + 1 < 2 ^ 32) (hlarge : 2 ^ 32 ≤ bytes.length + src.length + 1) :
    bufCat moves dest src = none := by
  have hsize := h.size_eq
  have hasize := h.asize_eq
  have hbufsiz : bufsiz + 1 < 2 ^ 32 := by decide
  unfold bufCat
  split
  · rfl
  · rename_i grown hrealloc
    rw [dif_neg]
    have hlength := grown.mem_length
    unfold bufRealloc at hrealloc
    split at hrealloc
    · split at hrealloc
      · rename_i hgrow hwrap
        cases hrealloc
        simp only at hlength ⊢
        rw [hlength]
        omega
      · cases hrealloc
    · cases hrealloc
      rw [hlength]
      omega

/-- A `buf_cat` that returned had a total in the 32-bit range, and appended. -/
theorem bufCat_inv {dest result : Buf} {bytes src : Bytes} (h : Holds dest bytes)
    (hbytes : bytes.length + 1 < 2 ^ 32) (hcat : bufCat moves dest src = some result) :
    bytes.length + src.length + 1 < 2 ^ 32 ∧ Holds result (bytes ++ src) := by
  have hfits : bytes.length + src.length + 1 < 2 ^ 32 := by
    by_contra hlarge
    rw [bufCat_eq_none moves h src hbytes (by omega)] at hcat
    cases hcat
  obtain ⟨expected, hspec, hholds, -⟩ := bufCat_spec moves h src hfits
  rw [hcat] at hspec
  cases hspec
  exact ⟨hfits, hholds⟩

/-- Consecutive appends append the concatenation; the final block number is that of the first
block when no reallocation moves it. -/
theorem bufCatAll_spec (chunks : List Bytes) {dest : Buf} {bytes : Bytes} (h : Holds dest bytes)
    (hfits : bytes.length + chunks.flatten.length + 1 < 2 ^ 32) :
    ∃ result, bufCatAll moves dest chunks = some result ∧ Holds result (bytes ++ chunks.flatten) ∧
      dest.block ≤ result.block ∧
      ((bytes.length + chunks.flatten.length ≤ bufsiz ∨ ∀ size, moves size = false) →
        result.block = dest.block) ∧
      ((∀ size, moves size = true) → bufsiz < bytes.length + chunks.flatten.length →
        chunks.flatten ≠ [] → dest.block < result.block) := by
  induction chunks generalizing dest bytes with
  | nil => exact ⟨dest, rfl, by simpa using h, le_rfl, fun _ ↦ rfl, fun _ _ hne ↦ absurd rfl hne⟩
  | cons chunk rest ih =>
    simp only [List.flatten_cons, List.length_append] at hfits
    obtain ⟨middle, hcat, hholds, hblock⟩ := bufCat_spec moves h chunk (by omega)
    obtain ⟨result, hrest, hresult, hmono, hstay, hmove⟩ :=
      ih hholds (by rw [List.length_append]; omega)
    have hasize := h.asize_eq
    have hmiddle : dest.block ≤ middle.block := by
      rw [hblock]
      split <;> omega
    refine ⟨result, ?_, ?_, hmiddle.trans hmono, ?_, ?_⟩
    · simp only [bufCatAll, List.foldlM_cons, hcat] at hrest ⊢
      exact hrest
    · simpa only [List.flatten_cons, List.append_assoc] using hresult
    · intro hquiet
      rw [List.flatten_cons, List.length_append] at hquiet
      rw [hstay (by rw [List.length_append]; exact hquiet.imp (by omega) id), hblock]
      rcases hquiet with hsmall | hstill
      · rw [if_neg (by omega)]
      · simp [hstill]
    · intro hall hlarge hne
      rw [List.flatten_cons, List.length_append] at hlarge
      by_cases hempty : rest.flatten = []
      · have hchunk : 0 < chunk.length := by
          rw [List.flatten_cons, hempty, List.append_nil] at hne
          exact List.length_pos_iff.mpr hne
        rw [hempty, List.length_nil] at hlarge
        have hstep : middle.block = dest.block + 1 := by
          rw [hblock, if_pos ⟨by omega, hall _⟩]
        omega
      · have hlater := hmove hall (by rw [List.length_append]; omega) hempty
        omega

/-- Consecutive appends that returned had a total in the 32-bit range. -/
theorem bufCatAll_inv (chunks : List Bytes) {dest result : Buf} {bytes : Bytes}
    (h : Holds dest bytes) (hbytes : bytes.length + 1 < 2 ^ 32)
    (hcat : bufCatAll moves dest chunks = some result) :
    bytes.length + chunks.flatten.length + 1 < 2 ^ 32 := by
  induction chunks generalizing dest bytes with
  | nil => simpa using hbytes
  | cons chunk rest ih =>
    simp only [bufCatAll, List.foldlM_cons, Option.bind_eq_bind, Option.bind_eq_some_iff] at hcat
    obtain ⟨middle, hfirst, hrest⟩ := hcat
    obtain ⟨hfits, hholds⟩ := bufCat_inv moves h hbytes hfirst
    have hlater := ih hholds (by rw [List.length_append]; exact hfits) hrest
    simp only [List.length_append, List.flatten_cons] at hlater ⊢
    omega

end Realloc

end LibTg.Tl
