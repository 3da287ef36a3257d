import LibTg.Tl.Layout
import Mathlib.Tactic.IntervalCases

/-!
# Flags words of an encoded constructor

The emitted encoder sets the bits of a flags word through a pointer that it took before it wrote
the word. Here we follow these pointers through a whole call. `EmitInv` says what the buffer holds
and where the pointers point; `WordsInv` says which bits have arrived. A bit is certain to arrive
when its argument ends within the first `bufsiz` bytes, since the block has not been reallocated
until then, and it is certain to be lost later when every reallocation moves the block.
-/

namespace LibTg.Tl

/-- A present argument that is to set bit `bit` of the `k`-th flags word. -/
def Sets (pair : Arg × CArg) (k bit : ℕ) : Prop :=
  k ≠ 0 ∧ pair.1.flagn = k ∧ pair.1.flagb = bit ∧ pair.2.present = true

/-- A C value that can be passed for the argument: nothing for a flags word, a `bool` for a `true`,
a `NULL` only for an argument under a flag, and arrays with an `int` length. -/
def Accepts (isMtproto : Bool) (pair : Arg × CArg) : Prop :=
  match pair.1.type with
  | none => pair.2 = .null
  | some type =>
    if type = "true" then pair.2 = .bool true ∨ pair.2 = .bool false
    else (pair.1.flagn ≠ 0 ∧ pair.2 = .null) ∨
      ((valueFormat isMtproto type pair.2).isSome = true ∧
        ∀ elems, pair.2.toVec = some elems → elems.length < 2 ^ 31)

/-- Some argument that sets the bit ends while the encoding is still within `bufsiz` bytes. -/
def Early (isMtproto : Bool) (pairs : List (Arg × CArg)) (k bit : ℕ) : Prop :=
  ∃ before pair after, pairs = before ++ pair :: after ∧ Sets pair k bit ∧
    4 + argsLength isMtproto (before ++ [pair]) ≤ bufsiz

/-- The returned buffer has bit `bit` of its `k`-th flags word set exactly when some argument under
this bit is present. -/
def FlagsCorrect (isMtproto : Bool) (pairs : List (Arg × CArg)) (buf : Buf) : Prop :=
  ∀ k off, flagOffset isMtproto k pairs = some off → ∀ bit,
    (getUi32 ((buf.bytes.drop (4 + off)).take 4)).toNat.testBit bit = true ↔
      ∃ pair ∈ pairs, Sets pair k bit

section Early

variable {isMtproto : Bool} {pairs : List (Arg × CArg)} {k bit : ℕ}

theorem Early.exists_sets (h : Early isMtproto pairs k bit) : ∃ pair ∈ pairs, Sets pair k bit := by
  obtain ⟨before, pair, after, rfl, hsets, -⟩ := h
  exact ⟨pair, by simp, hsets⟩

theorem Early.append (h : Early isMtproto pairs k bit) (later : List (Arg × CArg)) :
    Early isMtproto (pairs ++ later) k bit := by
  obtain ⟨before, pair, after, rfl, hsets, hlength⟩ := h
  exact ⟨before, pair, after ++ later, by simp, hsets, hlength⟩

theorem early_append_singleton {pair : Arg × CArg} (h : Early isMtproto (pairs ++ [pair]) k bit) :
    Early isMtproto pairs k bit ∨
      (Sets pair k bit ∧ 4 + argsLength isMtproto (pairs ++ [pair]) ≤ bufsiz) := by
  obtain ⟨before, found, after, heq, hsets, hlength⟩ := h
  rcases List.eq_nil_or_concat after with rfl | ⟨init, last, rfl⟩
  · obtain ⟨rfl, hlast⟩ := List.append_inj' heq rfl
    cases hlast
    exact Or.inr ⟨hsets, hlength⟩
  · rw [List.concat_eq_append, ← List.cons_append, ← List.append_assoc] at heq
    obtain ⟨rfl, -⟩ := List.append_inj' heq rfl
    exact Or.inl ⟨before, found, init, rfl, hsets, hlength⟩

end Early

/-! ## Which bits have arrived -/

section Words

variable (moves : ℕ → Bool) (isMtproto : Bool)

/-- The bits in the flags words after the arguments `done`, for any behaviour of `realloc`. -/
structure WordsInv (done : List (Arg × CArg)) (words : ℕ → UInt32) : Prop where
  sets_of_bit : ∀ k bit, (words k).toNat.testBit bit = true → ∃ pair ∈ done, Sets pair k bit
  bit_of_early : ∀ k bit, Early isMtproto done k bit → (words k).toNat.testBit bit = true
  bit_of_still : (∀ size, moves size = false) → ∀ k bit, ∀ pair ∈ done, Sets pair k bit →
    (words k).toNat.testBit bit = true
  early_of_bit : (∀ size, moves size = true) → ∀ k bit, (words k).toNat.testBit bit = true →
    Early isMtproto done k bit

theorem wordsInv_nil : WordsInv moves isMtproto [] (fun _ ↦ 0) where
  sets_of_bit k bit h := by simp at h
  bit_of_early k bit h := by
    obtain ⟨pair, hmem, -⟩ := h.exists_sets
    cases hmem
  bit_of_still _ k bit pair hmem := by cases hmem
  early_of_bit _ k bit h := by simp at h

variable {moves isMtproto} {done : List (Arg × CArg)} {words : ℕ → UInt32}

/-- An argument that sets no bit leaves the flags words as they are. -/
theorem WordsInv.skip (h : WordsInv moves isMtproto done words) {pair : Arg × CArg}
    (hskip : ∀ k bit, ¬ Sets pair k bit) : WordsInv moves isMtproto (done ++ [pair]) words where
  sets_of_bit k bit hbit := by
    obtain ⟨found, hmem, hsets⟩ := h.sets_of_bit k bit hbit
    exact ⟨found, List.mem_append_left _ hmem, hsets⟩
  bit_of_early k bit hearly := by
    rcases early_append_singleton hearly with hdone | ⟨hsets, -⟩
    · exact h.bit_of_early k bit hdone
    · exact absurd hsets (hskip k bit)
  bit_of_still hstill k bit found hmem hsets := by
    rcases List.mem_append.mp hmem with hdone | hlast
    · exact h.bit_of_still hstill k bit found hdone hsets
    · rw [List.mem_singleton.mp hlast] at hsets
      exact absurd hsets (hskip k bit)
  early_of_bit hall k bit hbit := (h.early_of_bit hall k bit hbit).append _

/-- The flags words after a store that may or may not have reached the buffer. -/
def storeWord (words : ℕ → UInt32) (landed : Prop) [Decidable landed] (k bit : ℕ) : ℕ → UInt32 :=
  if landed then Function.update words k (words k ||| flagBit bit) else words

theorem storeWord_testBit (landed : Prop) [Decidable landed] (k bit : ℕ) (hbit : bit < 32)
    (j index : ℕ) :
    (storeWord words landed k bit j).toNat.testBit index = true ↔
      (words j).toNat.testBit index = true ∨ (landed ∧ j = k ∧ index = bit) := by
  unfold storeWord
  split
  · rename_i hlanded
    by_cases hj : j = k
    · subst hj
      rw [Function.update_self, UInt32.toNat_or, Nat.testBit_or, flagBit_testBit _ _ hbit]
      simp only [Bool.or_eq_true, decide_eq_true_eq, hlanded, true_and, @eq_comm _ bit index]
    · rw [Function.update_of_ne hj]
      simp [hj]
  · rename_i hlost
    simp [hlost]

/-- An argument that sets a bit, whether or not its store reaches the buffer. -/
theorem WordsInv.store (h : WordsInv moves isMtproto done words) {pair : Arg × CArg}
    (hflagn : pair.1.flagn ≠ 0) (hflagb : pair.1.flagb < 32) (hpresent : pair.2.present = true)
    (landed : Prop) [Decidable landed]
    (hearly : 4 + argsLength isMtproto (done ++ [pair]) ≤ bufsiz → landed)
    (hstill : (∀ size, moves size = false) → landed)
    (hlate : (∀ size, moves size = true) → landed →
      4 + argsLength isMtproto (done ++ [pair]) ≤ bufsiz) :
    WordsInv moves isMtproto (done ++ [pair])
      (storeWord words landed pair.1.flagn pair.1.flagb) where
  sets_of_bit k bit hbit := by
    rcases (storeWord_testBit landed _ _ hflagb k bit).mp hbit with hold | ⟨-, rfl, rfl⟩
    · obtain ⟨found, hmem, hsets⟩ := h.sets_of_bit k bit hold
      exact ⟨found, List.mem_append_left _ hmem, hsets⟩
    · exact ⟨pair, by simp, hflagn, rfl, rfl, hpresent⟩
  bit_of_early k bit hk := by
    apply (storeWord_testBit landed _ _ hflagb k bit).mpr
    rcases early_append_singleton hk with hdone | ⟨⟨-, hn, hb, -⟩, hlength⟩
    · exact Or.inl (h.bit_of_early k bit hdone)
    · exact Or.inr ⟨hearly hlength, hn.symm, hb.symm⟩
  bit_of_still hquiet k bit found hmem hsets := by
    apply (storeWord_testBit landed _ _ hflagb k bit).mpr
    rcases List.mem_append.mp hmem with hdone | hlast
    · exact Or.inl (h.bit_of_still hquiet k bit found hdone hsets)
    · rw [List.mem_singleton.mp hlast] at hsets
      exact Or.inr ⟨hstill hquiet, hsets.2.1.symm, hsets.2.2.1.symm⟩
  early_of_bit hall k bit hbit := by
    rcases (storeWord_testBit landed _ _ hflagb k bit).mp hbit with hold | ⟨hlanded, rfl, rfl⟩
    · exact (h.early_of_bit hall k bit hold).append _
    · exact ⟨done, pair, [], rfl, ⟨hflagn, rfl, rfl, hpresent⟩, hlate hall hlanded⟩

end Words

/-! ## The buffer and the pointers during a call -/

section Emit

variable (moves : ℕ → Bool) (method : Method)

/-- The bytes written after the arguments `done`, with the flags words `words`. -/
def emitted (words : ℕ → UInt32) (done : List (Arg × CArg)) : Bytes :=
  le32 method.id ++ argsLayout method.isMtproto words 0 done

/-- The local variables of the emitted function after the arguments `done`. A pointer is into the
current block when nothing can have moved it, and into a dead one when everything has. -/
structure EmitInv (done : List (Arg × CArg)) (words : ℕ → UInt32) (s : Emit) : Prop where
  holds : Holds s.buf (emitted method words done)
  length_flags : s.flags.length = flagCount done
  flags_off : ∀ i ptr, s.flags[i]? = some ptr →
    ∃ off, flagOffset method.isMtproto (i + 1) done = some off ∧ ptr.off = 4 + off
  flags_block : ∀ ptr ∈ s.flags, ptr.block ≤ s.buf.block
  flags_still : (4 + argsLength method.isMtproto done ≤ bufsiz ∨ ∀ size, moves size = false) →
    ∀ ptr ∈ s.flags, ptr.block = s.buf.block
  flags_moved : (∀ size, moves size = true) → bufsiz < 4 + argsLength method.isMtproto done →
    ∀ ptr ∈ s.flags, ptr.block < s.buf.block
  words_zero : ∀ k, flagCount done < k → words k = 0

variable {moves method} {done : List (Arg × CArg)} {words : ℕ → UInt32} {s : Emit}

theorem length_emitted (method : Method) (words : ℕ → UInt32) (done : List (Arg × CArg)) :
    (emitted method words done).length = 4 + argsLength method.isMtproto done := by
  rw [emitted, List.length_append, length_le32, length_argsLayout_eq]

theorem emitted_append (words : ℕ → UInt32) (done later : List (Arg × CArg)) :
    emitted method words (done ++ later) =
      emitted method words done ++ argsLayout method.isMtproto words (flagCount done) later := by
  rw [emitted, emitted, argsLayout_append, Nat.zero_add, List.append_assoc]

/-- The offset of a flags word does not change when arguments follow. -/
theorem flagOffset_append {isMtproto : Bool} {k off : ℕ}
    (h : flagOffset isMtproto k done = some off) (later : List (Arg × CArg)) :
    flagOffset isMtproto k (done ++ later) = some off := by
  obtain ⟨before, pair, after, rfl, hflags, rfl, rfl⟩ := flagOffset_eq_some h
  rw [List.append_assoc, List.cons_append]
  exact flagOffset_of_split before pair (after ++ later) hflags

/-- The first statement of the emitted function, `buf_add_ui32(id)`. -/
theorem emitInv_start (moves : ℕ → Bool) (method : Method) :
    ∃ buf, bufAdd moves (le32 method.id) = some buf ∧
      EmitInv moves method [] (fun _ ↦ 0) ⟨buf, []⟩ := by
  obtain ⟨buf, hbuf, hholds, -⟩ := bufCat_spec moves holds_bufNew (le32 method.id) (by simp)
  refine ⟨buf, hbuf, ⟨hholds, rfl, ?_, ?_, ?_, ?_, fun _ _ ↦ rfl⟩⟩
  · intro i ptr hptr
    simp at hptr
  all_goals simp

/-- A flags word is appended as zero, and a pointer to its place is kept. -/
theorem EmitInv.appendWord (h : EmitInv moves method done words s) {pair : Arg × CArg}
    (hflags : pair.1.isFlags = true) (buf : Buf)
    (hcat : bufCat moves s.buf (le32 0) = some buf)
    (hfits : 4 + argsLength method.isMtproto (done ++ [pair]) + 1 < 2 ^ 32) :
    EmitInv moves method (done ++ [pair]) words
      ⟨buf, s.flags ++ [⟨s.buf.block, s.buf.size⟩]⟩ := by
  have hlength : argsLength method.isMtproto (done ++ [pair]) =
      argsLength method.isMtproto done + 4 := by
    rw [argsLength_append, argsLength_singleton, if_pos hflags]
  have hcount : flagCount (done ++ [pair]) = flagCount done + 1 := by
    simp [flagCount, hflags]
  have hemitted : emitted method words (done ++ [pair]) = emitted method words done ++ le32 0 := by
    rw [emitted_append, argsLayout, if_pos hflags, argsLayout, List.append_nil,
      h.words_zero _ (Nat.lt_succ_self _)]
  obtain ⟨result, hresult, hholds, hblock⟩ := bufCat_spec moves h.holds (le32 0) (by
    rw [length_emitted, length_le32]
    omega)
  rw [hcat] at hresult
  cases hresult
  have hasize := h.holds.asize_eq
  rw [length_emitted] at hasize hblock
  rw [length_le32] at hblock
  have hsize := h.holds.size_eq
  rw [length_emitted] at hsize
  refine ⟨hemitted ▸ hholds, ?_, ?_, ?_, ?_, ?_, ?_⟩
  · rw [List.length_append, h.length_flags, hcount, List.length_singleton]
  · intro i ptr hptr
    rcases Nat.lt_trichotomy i s.flags.length with hi | rfl | hi
    · rw [List.getElem?_append_left hi] at hptr
      obtain ⟨off, hoff, heq⟩ := h.flags_off i ptr hptr
      exact ⟨off, flagOffset_append hoff _, heq⟩
    · rw [List.getElem?_append_right le_rfl, Nat.sub_self] at hptr
      cases hptr
      exact ⟨_, h.length_flags ▸ flagOffset_of_split done pair [] hflags, hsize⟩
    · rw [List.getElem?_eq_none (by simp; omega)] at hptr
      cases hptr
  all_goals simp only [List.mem_append, List.mem_singleton, hlength, hcount]
  · rintro ptr (hold | rfl)
    · have hle := h.flags_block ptr hold
      rw [hblock]
      split <;> omega
    · simp only [hblock]
      split <;> omega
  · intro hquiet ptr hptr
    have hstay : buf.block = s.buf.block := by
      rw [hblock]
      rcases hquiet with hsmall | hstill
      · rw [if_neg (by omega)]
      · simp [hstill]
    rcases hptr with hold | rfl
    · rw [hstay]
      exact h.flags_still (hquiet.imp (by omega) id) ptr hold
    · exact hstay.symm
  · intro hall hlarge ptr hptr
    have hmove : buf.block = s.buf.block + 1 := by
      rw [hblock, if_pos ⟨by omega, hall _⟩]
    rcases hptr with hold | rfl
    · have hle := h.flags_block ptr hold
      omega
    · exact hmove ▸ Nat.lt_succ_self _
  · intro k hk
    exact h.words_zero k (by omega)

/-- The bytes of an argument are appended; the pointers stay as they are. -/
theorem EmitInv.appendBytes (h : EmitInv moves method done words s) {pair : Arg × CArg}
    (hflags : ¬ pair.1.isFlags = true) {chunks : List Bytes}
    (hchunks : chunks.flatten = argBytes method.isMtproto pair.1 pair.2)
    (hfits : 4 + argsLength method.isMtproto (done ++ [pair]) + 1 < 2 ^ 32) :
    ∃ buf, bufCatAll moves s.buf chunks = some buf ∧
      EmitInv moves method (done ++ [pair]) words { s with buf := buf } := by
  have hlength : argsLength method.isMtproto (done ++ [pair]) =
      argsLength method.isMtproto done + chunks.flatten.length := by
    rw [argsLength_append, argsLength_singleton, if_neg hflags, hchunks]
  have hcount : flagCount (done ++ [pair]) = flagCount done := by
    simp [flagCount, hflags]
  have hemitted : emitted method words (done ++ [pair]) =
      emitted method words done ++ chunks.flatten := by
    rw [emitted_append, argsLayout, if_neg hflags, argsLayout, List.append_nil, hchunks]
  obtain ⟨buf, hbuf, hholds, hle, hstay, hmove⟩ := bufCatAll_spec moves chunks h.holds (by
    rw [length_emitted]
    omega)
  rw [length_emitted] at hstay hmove
  refine ⟨buf, hbuf, ⟨hemitted ▸ hholds, ?_, ?_, ?_, ?_, ?_, ?_⟩⟩
  · rw [hcount, h.length_flags]
  · intro i ptr hptr
    obtain ⟨off, hoff, heq⟩ := h.flags_off i ptr hptr
    exact ⟨off, flagOffset_append hoff _, heq⟩
  · intro ptr hptr
    exact (h.flags_block ptr hptr).trans hle
  · intro hquiet ptr hptr
    rw [hlength] at hquiet
    calc
      ptr.block = s.buf.block := h.flags_still (hquiet.imp (by omega) id) ptr hptr
      _ = buf.block := (hstay (hquiet.imp (by omega) id)).symm
  · intro hall hlarge ptr hptr
    rw [hlength] at hlarge
    by_cases hempty : chunks.flatten = []
    · rw [hempty, List.length_nil, Nat.add_zero] at hlarge
      exact (h.flags_moved hall hlarge ptr hptr).trans_le hle
    · exact (h.flags_block ptr hptr).trans_lt (hmove hall (by omega) hempty)
  · intro k hk
    exact h.words_zero k (hcount ▸ hk)

/-- `*ptr |= (1 << bit)` through a pointer into the current block. -/
theorem orWord_spec {buf : Buf} {ptr : Ptr} (bit : ℕ) {before after : Bytes} {word : UInt32}
    (h : Holds buf (before ++ le32 word ++ after)) (hblock : ptr.block = buf.block)
    (hoff : ptr.off = before.length) :
    ∃ result, orWord buf ptr bit = some result ∧ result.block = buf.block ∧
      Holds result (before ++ le32 (word ||| flagBit bit) ++ after) := by
  obtain ⟨slack, hmem⟩ := h.exists_slack
  have hread : (buf.mem.drop ptr.off).take 4 = le32 word := by
    rw [hmem, hoff, List.append_assoc, List.append_assoc, List.drop_left, ← length_le32 word,
      List.take_left]
  have hroom : ptr.off + 4 ≤ buf.mem.length := by
    rw [hmem, hoff]
    simp only [List.length_append, length_le32]
    omega
  have hsize := h.size_eq
  rw [orWord, if_pos hblock, dif_pos hroom]
  refine ⟨_, rfl, rfl, ⟨?_, ?_⟩⟩
  · have hstore : overwrite buf.mem ptr.off (le32 (word ||| flagBit bit)) =
        before ++ le32 (word ||| flagBit bit) ++ after ++ slack := by
      rw [hmem, hoff]
      simp [overwrite]
    simp only [Buf.bytes, hread, getUi32_le32, hstore]
    rw [hsize, show (before ++ le32 word ++ after).length =
      (before ++ le32 (word ||| flagBit bit) ++ after).length by simp, List.take_left]
  · simp only [h.asize_eq]
    simp

/-- The statement `*flagK |= (1 << bit)`, for a flags word that has been written. The store lands
when nothing can have moved the block, and never after every reallocation moved it. -/
theorem EmitInv.setFlag (h : EmitInv moves method done words s) {k : ℕ} (bit : ℕ) (hk : k ≠ 0)
    (hle : k ≤ flagCount done) :
    ∃ (landed : Bool) (result : Emit), setFlag s k bit = some result ∧
      EmitInv moves method done (storeWord words (landed = true) k bit) result ∧
      ((4 + argsLength method.isMtproto done ≤ bufsiz ∨ ∀ size, moves size = false) →
        landed = true) ∧
      ((∀ size, moves size = true) → landed = true →
        4 + argsLength method.isMtproto done ≤ bufsiz) := by
  have hindex : k - 1 < s.flags.length := by
    rw [h.length_flags]
    omega
  obtain ⟨ptr, hptr⟩ : ∃ ptr, s.flags[k - 1]? = some ptr :=
    ⟨s.flags[k - 1], List.getElem?_eq_getElem hindex⟩
  have hmem : ptr ∈ s.flags := List.mem_of_getElem? hptr
  by_cases hblock : ptr.block = s.buf.block
  · obtain ⟨off, hoff, hoffEq⟩ := h.flags_off (k - 1) ptr hptr
    rw [Nat.sub_add_cancel (Nat.one_le_iff_ne_zero.mpr hk)] at hoff
    obtain ⟨before, after, hbefore, hlayout⟩ := argsLayout_split hoff words
    have hsplit : ∀ word, emitted method (Function.update words k word) done =
        le32 method.id ++ before ++ le32 word ++ after := by
      intro word
      rw [emitted, hlayout word]
      simp only [List.append_assoc]
    have hold := hsplit (words k)
    rw [Function.update_eq_self] at hold
    obtain ⟨buf, hbuf, hsame, hholds⟩ := orWord_spec bit (hold ▸ h.holds) hblock
      (by rw [hoffEq, List.length_append, length_le32, hbefore])
    refine ⟨true, { s with buf := buf }, ?_, ?_, fun _ ↦ rfl, ?_⟩
    · simp [Tl.setFlag, hptr, hbuf]
    · rw [storeWord, if_pos rfl]
      refine ⟨hsplit (words k ||| flagBit bit) ▸ hholds, h.length_flags, h.flags_off, ?_, ?_, ?_, ?_⟩
      · simpa only [hsame] using h.flags_block
      · simpa only [hsame] using h.flags_still
      · simpa only [hsame] using h.flags_moved
      · intro j hj
        rw [Function.update_of_ne (by omega)]
        exact h.words_zero j hj
    · intro hall _
      by_contra hlarge
      have hlt := h.flags_moved hall (by omega) ptr hmem
      omega
  · refine ⟨false, s, ?_, ?_, ?_, ?_⟩
    · simp [Tl.setFlag, hptr, orWord, hblock]
    · rw [storeWord, if_neg (by decide)]
      exact h
    · intro hquiet
      exact absurd (h.flags_still hquiet ptr hmem) hblock
    · intro _ hfalse
      cases hfalse

/-- What the statements of an argument other than a flags word do: append its bytes, then set its
bit if it is present under a flag. -/
def appendAndSet (moves : ℕ → Bool) (s : Emit) (pair : Arg × CArg) (chunks : List Bytes) :
    Option Emit := do
  let buf ← bufCatAll moves s.buf chunks
  if pair.1.flagn ≠ 0 ∧ pair.2.present = true then
    Tl.setFlag { s with buf := buf } pair.1.flagn pair.1.flagb
  else some { s with buf := buf }

theorem appendAndSet_nil (moves : ℕ → Bool) (s : Emit) (pair : Arg × CArg) :
    appendAndSet moves s pair [] =
      if pair.1.flagn ≠ 0 ∧ pair.2.present = true then Tl.setFlag s pair.1.flagn pair.1.flagb
      else some s := rfl

theorem type_of_isFlags {arg : Arg} (h : arg.isFlags = true) : arg.type = none := by
  rw [Arg.isFlags, Bool.and_eq_true, Option.isNone_iff_eq_none] at h
  exact h.1

theorem appendArg_of_isFlags (moves : ℕ → Bool) (isMtproto : Bool) (s : Emit) {pair : Arg × CArg}
    (hflags : pair.1.isFlags = true) :
    appendArg moves isMtproto s pair.1 pair.2 =
      (bufCat moves s.buf (le32 0)).map fun buf ↦
        ⟨buf, s.flags ++ [⟨s.buf.block, s.buf.size⟩]⟩ := by
  rw [appendArg]
  simp only [type_of_isFlags hflags, hflags, if_true, Option.bind_eq_bind, Option.map_eq_bind]
  rfl

/-- An argument other than a flags word either has chunks that make up its bytes, or its value
cannot be serialized, which happens only beyond the 32-bit range. -/
theorem appendArg_of_not_isFlags (moves : ℕ → Bool) {isMtproto : Bool} {pair : Arg × CArg}
    (haccepts : Accepts isMtproto pair) (hflags : ¬ pair.1.isFlags = true) :
    (∃ chunks : List Bytes, chunks.flatten = argBytes isMtproto pair.1 pair.2 ∧
      ∀ s, appendArg moves isMtproto s pair.1 pair.2 = appendAndSet moves s pair chunks) ∨
    (2 ^ 32 ≤ (argBytes isMtproto pair.1 pair.2).length + 1 ∧
      ∀ s, appendArg moves isMtproto s pair.1 pair.2 = none) := by
  obtain ⟨arg, value⟩ := pair
  simp only [Accepts] at haccepts
  simp only [appendArg, argBytes]
  cases htype : arg.type with
  | none =>
    left
    rw [htype] at haccepts
    subst haccepts
    refine ⟨[], rfl, fun s ↦ ?_⟩
    rw [if_neg hflags, appendAndSet_nil]
    simp [CArg.present]
  | some type =>
    rw [htype] at haccepts
    simp only at haccepts ⊢
    by_cases htrue : type = "true"
    · left
      refine ⟨[], by rw [if_pos htrue]; rfl, fun s ↦ ?_⟩
      rw [if_pos htrue, appendAndSet_nil]
    rw [if_neg htrue] at haccepts ⊢
    by_cases habsent : arg.flagn ≠ 0 ∧ ¬ value.present = true
    · left
      refine ⟨[], by rw [if_pos habsent]; rfl, fun s ↦ ?_⟩
      rw [if_neg htrue, if_pos habsent, appendAndSet_nil, if_neg (fun h ↦ habsent.2 h.2)]
    rw [if_neg habsent]
    obtain ⟨bytes, hbytes⟩ : ∃ bytes, valueFormat isMtproto type value = some bytes := by
      rcases haccepts with ⟨hflagn, rfl⟩ | ⟨hsome, -⟩
      · exact absurd ⟨hflagn, by decide⟩ habsent
      · exact Option.isSome_iff_exists.mp hsome
    rw [hbytes, Option.getD_some]
    cases hchunks : valueChunks moves isMtproto type value with
    | some chunks =>
      left
      have hformat := valueFormat_of_valueChunks moves hchunks
      rw [hbytes, Option.some.injEq] at hformat
      refine ⟨chunks, hformat.symm, fun s ↦ ?_⟩
      rw [if_neg htrue, if_neg habsent, appendAndSet]
      have hiff : (arg.flagn ≠ 0 ∧ value.present = true) ↔ arg.flagn ≠ 0 := by
        constructor
        · exact And.left
        · intro hflagn
          exact ⟨hflagn, by_contra fun hpresent ↦ habsent ⟨hflagn, hpresent⟩⟩
      simp only [Option.bind_eq_bind, Option.bind_some, hiff]
    | none =>
      right
      refine ⟨?_, fun s ↦ by rw [if_neg htrue, if_neg habsent]; rfl⟩
      by_contra hfits
      obtain ⟨chunks, hsome, -⟩ := valueChunks_of_valueFormat moves hbytes (by omega)
      rw [hchunks] at hsome
      cases hsome

theorem not_sets_of_not_present {pair : Arg × CArg}
    (h : ¬ (pair.1.flagn ≠ 0 ∧ pair.2.present = true)) (k bit : ℕ) : ¬ Sets pair k bit := by
  rintro ⟨hk, hflagn, -, hpresent⟩
  exact h ⟨hflagn ▸ hk, hpresent⟩

theorem Accepts.not_present {isMtproto : Bool} {pair : Arg × CArg} (h : Accepts isMtproto pair)
    (hflags : pair.1.isFlags = true) : ¬ pair.2.present = true := by
  rw [Accepts] at h
  simp only [type_of_isFlags hflags] at h
  rw [h]
  decide

/-- One argument, within the 32-bit range. -/
theorem appendArg_spec (hemit : EmitInv moves method done words s)
    (hwords : WordsInv moves method.isMtproto done words) {pair : Arg × CArg}
    (haccepts : Accepts method.isMtproto pair) (hflagn : pair.1.flagn ≤ flagCount done)
    (hflagb : pair.1.flagb < 32)
    (hfits : 4 + argsLength method.isMtproto (done ++ [pair]) + 1 < 2 ^ 32) :
    ∃ words' s', appendArg moves method.isMtproto s pair.1 pair.2 = some s' ∧
      EmitInv moves method (done ++ [pair]) words' s' ∧
      WordsInv moves method.isMtproto (done ++ [pair]) words' := by
  by_cases hflags : pair.1.isFlags = true
  · have hlength : 4 + argsLength method.isMtproto done + 4 + 1 < 2 ^ 32 := by
      rw [argsLength_append, argsLength_singleton, if_pos hflags] at hfits
      omega
    obtain ⟨buf, hcat, -⟩ := bufCat_spec moves hemit.holds (le32 0) (by
      rw [length_emitted, length_le32]
      exact hlength)
    refine ⟨words, _, ?_, hemit.appendWord hflags buf hcat hfits, ?_⟩
    · rw [appendArg_of_isFlags moves _ s hflags, hcat, Option.map_some]
    · exact hwords.skip (not_sets_of_not_present fun h ↦ haccepts.not_present hflags h.2)
  · rcases appendArg_of_not_isFlags moves haccepts hflags with ⟨chunks, hchunks, heq⟩ | ⟨hlarge, -⟩
    · obtain ⟨buf, hbuf, hnext⟩ := hemit.appendBytes hflags hchunks hfits
      rw [heq s, appendAndSet, hbuf, Option.bind_eq_bind, Option.bind_some]
      by_cases hset : pair.1.flagn ≠ 0 ∧ pair.2.present = true
      · rw [if_pos hset]
        have hcount : pair.1.flagn ≤ flagCount (done ++ [pair]) := by
          rw [flagCount_append]
          omega
        obtain ⟨landed, result, hresult, hfinal, hearly, hlate⟩ :=
          hnext.setFlag pair.1.flagb hset.1 hcount
        exact ⟨_, result, hresult, hfinal, hwords.store hset.1 hflagb hset.2 (landed = true)
          (fun h ↦ hearly (Or.inl h)) (fun h ↦ hearly (Or.inr h)) hlate⟩
      · rw [if_neg hset]
        exact ⟨words, _, rfl, hnext, hwords.skip (not_sets_of_not_present hset)⟩
    · rw [argsLength_append, argsLength_singleton, if_neg hflags] at hfits
      omega

/-- An argument whose statements returned kept the encoding within the 32-bit range. -/
theorem appendArg_fits (hemit : EmitInv moves method done words s)
    (hdone : 4 + argsLength method.isMtproto done + 1 < 2 ^ 32) {pair : Arg × CArg}
    (haccepts : Accepts method.isMtproto pair) {s' : Emit}
    (hsome : appendArg moves method.isMtproto s pair.1 pair.2 = some s') :
    4 + argsLength method.isMtproto (done ++ [pair]) + 1 < 2 ^ 32 := by
  have hlength := length_emitted method words done
  rw [argsLength_append, argsLength_singleton]
  by_cases hflags : pair.1.isFlags = true
  · rw [if_pos hflags]
    rw [appendArg_of_isFlags moves _ s hflags] at hsome
    obtain ⟨buf, hcat, -⟩ := Option.map_eq_some_iff.mp hsome
    obtain ⟨hfits, -⟩ := bufCat_inv moves hemit.holds (by omega) hcat
    rw [length_le32] at hfits
    omega
  · rw [if_neg hflags]
    rcases appendArg_of_not_isFlags moves haccepts hflags with ⟨chunks, hchunks, heq⟩ | ⟨-, hnone⟩
    · rw [heq s, appendAndSet, Option.bind_eq_bind, Option.bind_eq_some_iff] at hsome
      obtain ⟨buf, hcat, -⟩ := hsome
      have hfits := bufCatAll_inv moves chunks hemit.holds (by omega) hcat
      rw [hchunks] at hfits
      omega
    · rw [hnone s] at hsome
      cases hsome

/-- All remaining arguments, within the 32-bit range. -/
theorem appendArgs_spec (rest : List (Arg × CArg)) (hemit : EmitInv moves method done words s)
    (hwords : WordsInv moves method.isMtproto done words)
    (haccepts : ∀ pair ∈ rest, Accepts method.isMtproto pair)
    (hscoped : Scoped (flagCount done) (rest.map Prod.fst))
    (hfits : 4 + argsLength method.isMtproto (done ++ rest) + 1 < 2 ^ 32) :
    ∃ words' s', appendArgs moves method.isMtproto s rest = some s' ∧
      EmitInv moves method (done ++ rest) words' s' ∧
      WordsInv moves method.isMtproto (done ++ rest) words' := by
  induction rest generalizing done words s with
  | nil => exact ⟨words, s, rfl, by simpa using hemit, by simpa using hwords⟩
  | cons pair rest ih =>
    obtain ⟨hflagn, hflagb, hlater⟩ := hscoped
    have hsplit : done ++ pair :: rest = done ++ [pair] ++ rest := by simp
    have hcount : flagCount (done ++ [pair]) =
        if pair.1.isFlags then flagCount done + 1 else flagCount done := by
      simp only [flagCount, List.countP_append, List.countP_singleton]
      split <;> rfl
    rw [hsplit] at hfits ⊢
    have hfirst : 4 + argsLength method.isMtproto (done ++ [pair]) + 1 < 2 ^ 32 := by
      rw [argsLength_append] at hfits
      omega
    obtain ⟨words', s', hstep, hemit', hwords'⟩ :=
      appendArg_spec hemit hwords (haccepts pair (by simp)) hflagn hflagb hfirst
    obtain ⟨words'', s'', hrun, hemit'', hwords''⟩ := ih hemit' hwords'
      (fun other hmem ↦ haccepts other (List.mem_cons_of_mem _ hmem)) (hcount ▸ hlater) hfits
    refine ⟨words'', s'', ?_, hemit'', hwords''⟩
    rw [appendArgs, List.foldlM_cons, hstep]
    exact hrun

/-- A run that returned stayed within the 32-bit range. -/
theorem appendArgs_fits (rest : List (Arg × CArg)) (hemit : EmitInv moves method done words s)
    (hwords : WordsInv moves method.isMtproto done words)
    (hdone : 4 + argsLength method.isMtproto done + 1 < 2 ^ 32)
    (haccepts : ∀ pair ∈ rest, Accepts method.isMtproto pair)
    (hscoped : Scoped (flagCount done) (rest.map Prod.fst)) {result : Emit}
    (hsome : appendArgs moves method.isMtproto s rest = some result) :
    4 + argsLength method.isMtproto (done ++ rest) + 1 < 2 ^ 32 := by
  induction rest generalizing done words s with
  | nil => simpa using hdone
  | cons pair rest ih =>
    obtain ⟨hflagn, hflagb, hlater⟩ := hscoped
    have hcount : flagCount (done ++ [pair]) =
        if pair.1.isFlags then flagCount done + 1 else flagCount done := by
      simp only [flagCount, List.countP_append, List.countP_singleton]
      split <;> rfl
    rw [appendArgs, List.foldlM_cons, Option.bind_eq_bind, Option.bind_eq_some_iff] at hsome
    obtain ⟨middle, hstep, hrun⟩ := hsome
    have hpair := haccepts pair (by simp)
    have hfirst := appendArg_fits hemit hdone hpair hstep
    obtain ⟨words', s', hstep', hemit', hwords'⟩ :=
      appendArg_spec hemit hwords hpair hflagn hflagb hfirst
    rw [hstep] at hstep'
    cases hstep'
    have hall := ih hemit' hwords' hfirst
      (fun other hmem ↦ haccepts other (List.mem_cons_of_mem _ hmem)) (hcount ▸ hlater) hrun
    simpa using hall

end Emit

/-! ## Whole calls -/

section Call

variable (moves : ℕ → Bool) (method : Method) (args : List CArg)

/-- Within the 32-bit range a call returns the layout with the flags words that have arrived. -/
theorem tlMethod_spec (hlength : method.args.length = args.length)
    (hscoped : Scoped 0 method.args)
    (haccepts : ∀ pair ∈ method.args.zip args, Accepts method.isMtproto pair)
    (hfits : 4 + argsLength method.isMtproto (method.args.zip args) + 1 < 2 ^ 32) :
    ∃ words buf, tlMethod moves method args = some buf ∧
      Holds buf (emitted method words (method.args.zip args)) ∧
      WordsInv moves method.isMtproto (method.args.zip args) words := by
  obtain ⟨first, hfirst, hstart⟩ := emitInv_start moves method
  have hfst : Scoped (flagCount []) ((method.args.zip args).map Prod.fst) := by
    rw [List.map_fst_zip hlength.le]
    exact hscoped
  obtain ⟨words, s, hrun, hemit, hwords⟩ :=
    appendArgs_spec _ hstart (wordsInv_nil moves method.isMtproto) haccepts hfst hfits
  refine ⟨words, s.buf, ?_, hemit.holds, hwords⟩
  simp [tlMethod, hfirst, hrun]

/-- A call that returned stayed within the 32-bit range. -/
theorem tlMethod_fits (hlength : method.args.length = args.length)
    (hscoped : Scoped 0 method.args)
    (haccepts : ∀ pair ∈ method.args.zip args, Accepts method.isMtproto pair) {buf : Buf}
    (hsome : tlMethod moves method args = some buf) :
    4 + argsLength method.isMtproto (method.args.zip args) + 1 < 2 ^ 32 := by
  obtain ⟨first, hfirst, hstart⟩ := emitInv_start moves method
  have hfst : Scoped (flagCount []) ((method.args.zip args).map Prod.fst) := by
    rw [List.map_fst_zip hlength.le]
    exact hscoped
  rw [tlMethod, hfirst] at hsome
  simp only [Option.bind_eq_bind, Option.bind_some, Option.bind_eq_some_iff] at hsome
  obtain ⟨s, hrun, -⟩ := hsome
  exact appendArgs_fits _ hstart (wordsInv_nil moves method.isMtproto) (by simp [argsLength, argsLayout])
    haccepts hfst hrun

/-- The word that stands at the place of the `k`-th flags word. -/
theorem getUi32_emitted {method : Method} (words : ℕ → UInt32) {pairs : List (Arg × CArg)}
    {k off : ℕ} (h : flagOffset method.isMtproto k pairs = some off) :
    getUi32 (((emitted method words pairs).drop (4 + off)).take 4) = words k := by
  obtain ⟨before, after, hbefore, hlayout⟩ := argsLayout_split h words
  have hall := hlayout (words k)
  rw [Function.update_eq_self] at hall
  have hoff : 4 + off = (le32 method.id ++ before).length := by
    rw [List.length_append, length_le32, hbefore]
  rw [emitted, hall, ← List.append_assoc, ← List.append_assoc, List.append_assoc (_ ++ before),
    hoff, List.drop_left, ← length_le32 (words k), List.take_left, getUi32_le32]

theorem flagsCorrect_iff {method : Method} {words : ℕ → UInt32} {pairs : List (Arg × CArg)}
    {buf : Buf} (h : Holds buf (emitted method words pairs)) :
    FlagsCorrect method.isMtproto pairs buf ↔
      ∀ k off, flagOffset method.isMtproto k pairs = some off → ∀ bit,
        (words k).toNat.testBit bit = true ↔ ∃ pair ∈ pairs, Sets pair k bit := by
  rw [FlagsCorrect, h.bytes_eq]
  constructor
  · intro hcorrect k off hoff
    rw [← getUi32_emitted words hoff]
    exact hcorrect k off hoff
  · intro hbits k off hoff
    rw [getUi32_emitted words hoff]
    exact hbits k off hoff

theorem exists_flagOffset (isMtproto : Bool) {pairs : List (Arg × CArg)} {k : ℕ} (hk : k ≠ 0)
    (hle : k ≤ flagCount pairs) : ∃ off, flagOffset isMtproto k pairs = some off := by
  induction pairs generalizing k with
  | nil => exact absurd (Nat.le_zero.mp hle) hk
  | cons pair rest ih =>
    rw [flagCount, List.countP_cons, ← flagCount] at hle
    rw [flagOffset]
    split
    · rename_i hflags
      split
      · exact ⟨0, rfl⟩
      · rename_i hne
        rw [if_pos hflags] at hle
        obtain ⟨off, hoff⟩ := ih (k := k - 1) (by omega) (by omega)
        exact ⟨4 + off, by rw [hoff, Option.map_some]⟩
    · rename_i hflags
      rw [if_neg hflags] at hle
      obtain ⟨off, hoff⟩ := ih hk hle
      exact ⟨(argBytes isMtproto pair.1 pair.2).length + off, by rw [hoff, Option.map_some]⟩

theorem flagn_le_of_scoped {seen : ℕ} {pairs : List (Arg × CArg)}
    (h : Scoped seen (pairs.map Prod.fst)) {pair : Arg × CArg} (hmem : pair ∈ pairs) :
    pair.1.flagn ≤ seen + flagCount pairs := by
  induction pairs generalizing seen with
  | nil => cases hmem
  | cons head rest ih =>
    obtain ⟨hhead, -, hrest⟩ := h
    rw [flagCount, List.countP_cons, ← flagCount]
    rcases List.mem_cons.mp hmem with rfl | hlater
    · omega
    · have hle := ih hrest hlater
      split at hle <;> rename_i hflags
      · rw [if_pos hflags]
        omega
      · rw [if_neg hflags]
        omega

/-- If the flags words are right under a `realloc` that always moves, the encoding fits a 32-bit
size and every bit is set by some argument that ends within the first `bufsiz` bytes. -/
theorem early_of_flagsCorrect (hlength : method.args.length = args.length)
    (hscoped : Scoped 0 method.args)
    (haccepts : ∀ pair ∈ method.args.zip args, Accepts method.isMtproto pair) {buf : Buf}
    (hbuf : tlMethod (fun _ ↦ true) method args = some buf)
    (hcorrect : FlagsCorrect method.isMtproto (method.args.zip args) buf) :
    4 + argsLength method.isMtproto (method.args.zip args) + 1 < 2 ^ 32 ∧
      ∀ pair ∈ method.args.zip args, ∀ k bit, Sets pair k bit →
        Early method.isMtproto (method.args.zip args) k bit := by
  have hfits := tlMethod_fits _ method args hlength hscoped haccepts hbuf
  refine ⟨hfits, ?_⟩
  intro pair hmem k bit hsets
  obtain ⟨words, found, hfound, hholds, hwords⟩ :=
    tlMethod_spec (fun _ ↦ true) method args hlength hscoped haccepts hfits
  rw [hbuf, Option.some.injEq] at hfound
  subst hfound
  have hscopedPairs : Scoped 0 ((method.args.zip args).map Prod.fst) := by
    rw [List.map_fst_zip hlength.le]
    exact hscoped
  have hle := flagn_le_of_scoped hscopedPairs hmem
  rw [Nat.zero_add, hsets.2.1] at hle
  obtain ⟨off, hoff⟩ := exists_flagOffset method.isMtproto hsets.1 hle
  apply hwords.early_of_bit (fun _ ↦ rfl)
  exact ((flagsCorrect_iff hholds).mp hcorrect k off hoff bit).mpr ⟨pair, hmem, hsets⟩

/-- Whatever `realloc` does, the flags words of the returned buffer are right exactly when the
encoding fits a 32-bit size and every bit is set by some argument that ends within the first
`bufsiz` bytes. -/
theorem tlMethod_flagsCorrect_iff (hlength : method.args.length = args.length)
    (hscoped : Scoped 0 method.args)
    (haccepts : ∀ pair ∈ method.args.zip args, Accepts method.isMtproto pair) :
    (∀ moves, ∃ buf, tlMethod moves method args = some buf ∧
      FlagsCorrect method.isMtproto (method.args.zip args) buf) ↔
    4 + argsLength method.isMtproto (method.args.zip args) + 1 < 2 ^ 32 ∧
      ∀ pair ∈ method.args.zip args, ∀ k bit, Sets pair k bit →
        Early method.isMtproto (method.args.zip args) k bit := by
  constructor
  · intro hall
    obtain ⟨buf, hbuf, hcorrect⟩ := hall (fun _ ↦ true)
    exact early_of_flagsCorrect method args hlength hscoped haccepts hbuf hcorrect
  · rintro ⟨hfits, hearly⟩ moves
    obtain ⟨words, buf, hbuf, hholds, hwords⟩ :=
      tlMethod_spec moves method args hlength hscoped haccepts hfits
    refine ⟨buf, hbuf, (flagsCorrect_iff hholds).mpr ?_⟩
    intro k off _ bit
    constructor
    · exact hwords.sets_of_bit k bit
    · rintro ⟨pair, hmem, hsets⟩
      exact hwords.bit_of_early k bit (hearly pair hmem k bit hsets)

end Call

/-- `messages.saveDraft#d372c5ce`, whose text stands before three arguments under flags. -/
def messagesSaveDraft : Method where
  name := "messages_saveDraft"
  id := 0xd372c5ce
  isMtproto := false
  args :=
    [⟨"flags", none, 0, 0⟩, ⟨"no_webpage", some "true", 1, 1⟩,
      ⟨"invert_media", some "true", 1, 6⟩, ⟨"reply_to", some "InputReplyTo", 1, 4⟩,
      ⟨"peer", some "InputPeer", 0, 0⟩, ⟨"message", some "string", 0, 0⟩,
      ⟨"entities", some "Vector<MessageEntity>", 1, 3⟩, ⟨"media", some "InputMedia", 1, 5⟩,
      ⟨"effect", some "long", 1, 7⟩]

/-- A draft for oneself with the given text and effect, and nothing else. -/
def draftArgs (message : Bytes) (effect : UInt64) : List CArg :=
  [.null, .bool false, .bool false, .null, .one (.buf (le32 0x7da07ec9)), .one (.cstr message),
    .null, .null, .one (.u64 effect)]

theorem accepts_draftArgs (message : Bytes) (effect : UInt64) :
    ∀ pair ∈ messagesSaveDraft.args.zip (draftArgs message effect),
      Accepts messagesSaveDraft.isMtproto pair := by
  intro pair hmem
  simp only [messagesSaveDraft, draftArgs, List.zip_cons_cons, List.zip_nil_right,
    List.mem_cons, List.not_mem_nil, or_false] at hmem ⊢
  rcases hmem with rfl | rfl | rfl | rfl | rfl | rfl | rfl | rfl | rfl <;>
    simp [Accepts, valueFormat, vectorElem, strstr, elemFormat, CArg.toOne, CArg.toVec]

/-- Only the effect of such a draft sets a bit. -/
theorem sets_draftArgs {message : Bytes} {effect : UInt64} {pair : Arg × CArg} {k bit : ℕ}
    (hmem : pair ∈ messagesSaveDraft.args.zip (draftArgs message effect))
    (hsets : Sets pair k bit) : k = 1 ∧ bit = 7 := by
  obtain ⟨hk, rfl, rfl, hpresent⟩ := hsets
  simp only [messagesSaveDraft, draftArgs, List.zip_cons_cons, List.zip_nil_right,
    List.mem_cons, List.not_mem_nil, or_false] at hmem
  rcases hmem with rfl | rfl | rfl | rfl | rfl | rfl | rfl | rfl | rfl <;>
    simp [CArg.present] at hk hpresent ⊢

/-- The text `hi` with the effect `7`: the last bit is set long before the block is full. -/
theorem saveDraft_short_flagsCorrect :
    Scoped 0 messagesSaveDraft.args ∧
    ∀ moves, ∃ buf, tlMethod moves messagesSaveDraft (draftArgs [104, 105] 7) = some buf ∧
      FlagsCorrect false (messagesSaveDraft.args.zip (draftArgs [104, 105] 7)) buf := by
  have hscoped : Scoped 0 messagesSaveDraft.args := by decide
  refine ⟨hscoped, ?_⟩
  apply (tlMethod_flagsCorrect_iff messagesSaveDraft (draftArgs [104, 105] 7) rfl hscoped
    (accepts_draftArgs _ _)).mpr
  refine ⟨by decide, ?_⟩
  intro pair hmem k bit hsets
  obtain ⟨rfl, rfl⟩ := sets_draftArgs hmem hsets
  refine ⟨(messagesSaveDraft.args.zip (draftArgs [104, 105] 7)).take 8,
    (⟨"effect", some "long", 1, 7⟩, .one (.u64 7)), [], rfl, ⟨by decide, rfl, rfl, rfl⟩, by decide⟩

/-- A text without NUL and longer than `bufsiz` pushes the effect out of the first `bufsiz` bytes. -/
theorem not_early_draftArgs {message : Bytes} (effect : UInt64)
    (hnul : message.takeWhile (· ≠ 0) = message) (hlong : bufsiz < message.length) :
    ¬ Early false (messagesSaveDraft.args.zip (draftArgs message effect)) 1 7 := by
  rintro ⟨before, pair, after, hsplit, ⟨-, -, hflagb, -⟩, hlength⟩
  have hbefore : before.length < 9 := by
    have htotal := congrArg List.length hsplit
    simp [messagesSaveDraft, draftArgs] at htotal
    omega
  have hpair : (messagesSaveDraft.args.zip (draftArgs message effect))[before.length]? =
      some pair := by
    rw [hsplit, List.getElem?_append_right le_rfl, Nat.sub_self, List.getElem?_cons_zero]
  have hlast : before.length = 8 := by
    interval_cases before.length <;>
      simp [messagesSaveDraft, draftArgs] at hpair ⊢ <;> subst hpair <;> cases hflagb
  have htake : before = (messagesSaveDraft.args.zip (draftArgs message effect)).take 8 := by
    rw [hsplit, ← hlast, List.take_left]
  have hmessage : (tlBytes message).length ≤ argsLength false before := by
    rw [htake]
    simp only [ne_eq, decide_not] at hnul
    simp [messagesSaveDraft, draftArgs, argsLength, argsLayout, argBytes, Arg.isFlags, strstr,
      valueFormat, vectorElem, elemFormat, CArg.present, CArg.toOne, hnul]
    omega
  have hle := length_le_length_tlBytes message
  rw [argsLength_append] at hlength
  omega

/-- A text of 1100 bytes before the effect: some behaviour of `realloc` loses the bit. -/
theorem saveDraft_long_not_flagsCorrect :
    ¬ ∀ moves, ∃ buf,
      tlMethod moves messagesSaveDraft (draftArgs (List.replicate 1100 97) 7) = some buf ∧
      FlagsCorrect false
        (messagesSaveDraft.args.zip (draftArgs (List.replicate 1100 97) 7)) buf := by
  intro hall
  obtain ⟨buf, hbuf, hcorrect⟩ := hall (fun _ ↦ true)
  obtain ⟨-, hearly⟩ := early_of_flagsCorrect messagesSaveDraft _ rfl (by decide)
    (accepts_draftArgs _ _) hbuf hcorrect
  have hnul : (List.replicate 1100 (97 : UInt8)).takeWhile (· ≠ 0) = List.replicate 1100 97 := by
    rw [List.takeWhile_replicate]
    rfl
  apply not_early_draftArgs 7 hnul (by rw [List.length_replicate]; decide)
  apply hearly (⟨"effect", some "long", 1, 7⟩, .one (.u64 7)) _ 1 7 ⟨by decide, rfl, rfl, rfl⟩
  generalize List.replicate 1100 (97 : UInt8) = message
  simp [messagesSaveDraft, draftArgs]

end LibTg.Tl
