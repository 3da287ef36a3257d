import LibTg.Tl.Methods

/-!
# The layout of an encoded constructor

`argsLayout` lists the bytes of the arguments one after the other, with the flags words taken from
a function `words` that numbers them from one. The emitted encoder writes this layout with all
words zero and fills them in while it goes on; the lemmas here say where the `k`-th word stands and
how the layout changes when that word does.
-/

namespace LibTg.Tl

/-- The bytes that an argument other than a flags word contributes. -/
def argBytes (isMtproto : Bool) (arg : Arg) (value : CArg) : Bytes :=
  match arg.type with
  | none => []
  | some type =>
    if type = "true" then []
    else if arg.flagn ≠ 0 ∧ ¬ value.present then []
    else (valueFormat isMtproto type value).getD []

/-- The bytes of a list of arguments, after `seen` flags words. -/
def argsLayout (isMtproto : Bool) (words : ℕ → UInt32) : ℕ → List (Arg × CArg) → Bytes
  | _, [] => []
  | seen, pair :: rest =>
    if pair.1.isFlags then
      le32 (words (seen + 1)) ++ argsLayout isMtproto words (seen + 1) rest
    else argBytes isMtproto pair.1 pair.2 ++ argsLayout isMtproto words seen rest

/-- The number of bytes of a list of arguments, whatever the flags words hold. -/
def argsLength (isMtproto : Bool) (pairs : List (Arg × CArg)) : ℕ :=
  (argsLayout isMtproto (fun _ ↦ 0) 0 pairs).length

/-- The number of flags words in a list of arguments. -/
def flagCount (pairs : List (Arg × CArg)) : ℕ := pairs.countP fun pair ↦ pair.1.isFlags

/-- The offset of the `k`-th flags word among the bytes of the arguments, counted from one. -/
def flagOffset (isMtproto : Bool) : ℕ → List (Arg × CArg) → Option ℕ
  | _, [] => none
  | k, pair :: rest =>
    if pair.1.isFlags then
      if k = 1 then some 0 else (flagOffset isMtproto (k - 1) rest).map (4 + ·)
    else (flagOffset isMtproto k rest).map ((argBytes isMtproto pair.1 pair.2).length + ·)

section Layout

variable {isMtproto : Bool}

theorem length_argsLayout (words other : ℕ → UInt32) (seen shift : ℕ)
    (pairs : List (Arg × CArg)) :
    (argsLayout isMtproto words seen pairs).length =
      (argsLayout isMtproto other shift pairs).length := by
  induction pairs generalizing seen shift with
  | nil => rfl
  | cons pair rest ih =>
    simp only [argsLayout]
    split
    · simp only [List.length_append, length_le32, ih (seen + 1) (shift + 1)]
    · simp only [List.length_append, ih seen shift]

theorem length_argsLayout_eq (words : ℕ → UInt32) (seen : ℕ) (pairs : List (Arg × CArg)) :
    (argsLayout isMtproto words seen pairs).length = argsLength isMtproto pairs :=
  length_argsLayout words _ seen 0 pairs

theorem argsLayout_append (words : ℕ → UInt32) (seen : ℕ) (first second : List (Arg × CArg)) :
    argsLayout isMtproto words seen (first ++ second) =
      argsLayout isMtproto words seen first ++
        argsLayout isMtproto words (seen + flagCount first) second := by
  induction first generalizing seen with
  | nil => rfl
  | cons pair rest ih =>
    simp only [List.cons_append, argsLayout, flagCount, List.countP_cons]
    split
    · rw [ih, List.append_assoc, flagCount, Nat.add_right_comm, Nat.add_assoc]
    · rw [ih, List.append_assoc, flagCount, Nat.add_zero]

theorem argsLength_append (first second : List (Arg × CArg)) :
    argsLength isMtproto (first ++ second) =
      argsLength isMtproto first + argsLength isMtproto second := by
  rw [argsLength, argsLayout_append, List.length_append, length_argsLayout_eq,
    length_argsLayout_eq]

theorem argsLength_singleton (pair : Arg × CArg) :
    argsLength isMtproto [pair] =
      if pair.1.isFlags then 4 else (argBytes isMtproto pair.1 pair.2).length := by
  simp only [argsLength, argsLayout]
  split <;> simp

theorem flagCount_append (first second : List (Arg × CArg)) :
    flagCount (first ++ second) = flagCount first + flagCount second := List.countP_append

/-- The layout only depends on the flags words that it contains. -/
theorem argsLayout_congr (words other : ℕ → UInt32) (seen : ℕ) (pairs : List (Arg × CArg))
    (h : ∀ k, seen < k → k ≤ seen + flagCount pairs → words k = other k) :
    argsLayout isMtproto words seen pairs = argsLayout isMtproto other seen pairs := by
  induction pairs generalizing seen with
  | nil => rfl
  | cons pair rest ih =>
    simp only [flagCount, List.countP_cons] at h
    simp only [argsLayout]
    split
    · rename_i hflags
      rw [if_pos hflags] at h
      rw [h (seen + 1) (by omega) (by omega), ih (seen + 1)]
      intro k hlow hhigh
      rw [flagCount] at hhigh
      exact h k (by omega) (by omega)
    · rename_i hflags
      rw [if_neg hflags] at h
      rw [ih seen]
      intro k hlow hhigh
      rw [flagCount] at hhigh
      exact h k hlow (by omega)

/-- The `k`-th flags word is preceded by `k - 1` others, and its offset is the length before it. -/
theorem flagOffset_eq_some {k off : ℕ} {pairs : List (Arg × CArg)}
    (h : flagOffset isMtproto k pairs = some off) :
    ∃ before pair after, pairs = before ++ pair :: after ∧ pair.1.isFlags = true ∧
      flagCount before + 1 = k ∧ off = argsLength isMtproto before := by
  induction pairs generalizing k off with
  | nil => cases h
  | cons pair rest ih =>
    simp only [flagOffset] at h
    split at h
    · rename_i hflags
      split at h
      · rename_i hone
        cases h
        exact ⟨[], pair, rest, rfl, hflags, by simp [flagCount, hone], rfl⟩
      · rename_i hne
        obtain ⟨inner, hinner, rfl⟩ := Option.map_eq_some_iff.mp h
        obtain ⟨before, word, after, rfl, hword, hcount, rfl⟩ := ih hinner
        refine ⟨pair :: before, word, after, rfl, hword, ?_, ?_⟩
        · rw [flagCount, List.countP_cons, if_pos hflags]
          rw [flagCount] at hcount
          omega
        · rw [← List.singleton_append, argsLength_append, argsLength_singleton, if_pos hflags]
    · rename_i hflags
      obtain ⟨inner, hinner, rfl⟩ := Option.map_eq_some_iff.mp h
      obtain ⟨before, word, after, rfl, hword, hcount, rfl⟩ := ih hinner
      refine ⟨pair :: before, word, after, rfl, hword, ?_, ?_⟩
      · rw [flagCount, List.countP_cons, if_neg hflags]
        exact hcount
      · rw [← List.singleton_append, argsLength_append, argsLength_singleton, if_neg hflags]

theorem flagOffset_of_split (before : List (Arg × CArg)) (pair : Arg × CArg)
    (after : List (Arg × CArg)) (hflags : pair.1.isFlags = true) :
    flagOffset isMtproto (flagCount before + 1) (before ++ pair :: after) =
      some (argsLength isMtproto before) := by
  induction before with
  | nil => simp [flagOffset, hflags, flagCount, argsLength, argsLayout]
  | cons head rest ih =>
    have hlength : argsLength isMtproto (head :: rest) =
        argsLength isMtproto [head] + argsLength isMtproto rest := argsLength_append [head] rest
    rw [hlength, argsLength_singleton]
    simp only [List.cons_append, flagOffset, flagCount, List.countP_cons]
    rw [flagCount] at ih
    split
    · rw [if_neg (by omega), Nat.add_sub_cancel, ih, Option.map_some]
    · rw [Nat.add_zero, ih, Option.map_some]

/-- The bytes around the `k`-th flags word. -/
theorem argsLayout_split {k off : ℕ} {pairs : List (Arg × CArg)}
    (h : flagOffset isMtproto k pairs = some off) (words : ℕ → UInt32) :
    ∃ before after : Bytes, before.length = off ∧
      ∀ word, argsLayout isMtproto (Function.update words k word) 0 pairs =
        before ++ le32 word ++ after := by
  obtain ⟨before, pair, after, rfl, hflags, hcount, rfl⟩ := flagOffset_eq_some h
  refine ⟨argsLayout isMtproto words 0 before, argsLayout isMtproto words k after,
    length_argsLayout_eq _ _ _, ?_⟩
  intro word
  have hbefore : argsLayout isMtproto (Function.update words k word) 0 before =
      argsLayout isMtproto words 0 before := by
    apply argsLayout_congr
    intro j hlow hhigh
    rw [Function.update_of_ne (by omega)]
  have hafter : argsLayout isMtproto (Function.update words k word) k after =
      argsLayout isMtproto words k after := by
    apply argsLayout_congr
    intro j hlow hhigh
    rw [Function.update_of_ne (by omega)]
  rw [argsLayout_append, hbefore, argsLayout, if_pos hflags, Nat.zero_add, hcount, hafter,
    Function.update_self, List.append_assoc]

end Layout

end LibTg.Tl
