import LibTg.Tl.Buf
import Mathlib.Data.List.TakeWhile

/-!
# Growing strings (`tl/str.h`)

A `struct str` has written `len` characters and a NUL behind them into a heap block of `size`. The
block grows by `BUFSIZ` until there is room. Lengths and sizes are of type `int`: a sum that does not
fit has no meaning in C, and the model answers `none` there.
-/

namespace LibTg.Tl

/-- A `struct str`: the characters before the last NUL, and the size of the block. -/
structure Str where
  str : Bytes
  size : ℕ
  str_lt : str.length < size
  size_lt : size < 2 ^ 31
  dvd_size : bufsiz ∣ size

def strInit : Str where
  str := []
  size := bufsiz
  str_lt := by decide
  size_lt := by decide
  dvd_size := dvd_rfl

def strRealloc (s : Str) (newSize : ℕ) : Option Str :=
  if s.size < newSize then
    if hsize : s.size + bufsiz < 2 ^ 31 then
      strRealloc
        { s with
          size := s.size + bufsiz
          str_lt := s.str_lt.trans_le (Nat.le_add_right _ _)
          size_lt := hsize
          dvd_size := (Nat.dvd_add_self_right).mpr s.dvd_size } newSize
    else none
  else some s
termination_by newSize - s.size
decreasing_by
  have hpos : 0 < bufsiz := by decide
  omega

/-- Growing keeps what is written and makes room. -/
theorem strRealloc_spec {s grown : Str} {newSize : ℕ} (hgrow : strRealloc s newSize = some grown) :
    grown.str = s.str ∧ newSize ≤ grown.size := by
  fun_induction strRealloc s newSize with
  | case1 s hlt hsize ih => exact ih hgrow
  | case2 s hlt hsize => cases hgrow
  | case3 s hlt =>
    obtain rfl := Option.some.inj hgrow
    exact ⟨rfl, Nat.le_of_not_lt hlt⟩

def strAppend (s : Str) (str : Bytes) : Option Str :=
  if str = [] then some s
  else if s.str.length + str.length + 1 < 2 ^ 31 then
    match hgrow : strRealloc s (s.str.length + str.length + 1) with
    | none => none
    | some grown =>
      some
        { grown with
          str := grown.str ++ str
          str_lt := by
            obtain ⟨hstr, hsize⟩ := strRealloc_spec hgrow
            rw [List.length_append, hstr]
            omega }
  else none

/-- `str_appendf` with the text that the format gives: `snprintf` writes no more of it than there is
room for, and `strlen` goes up to its first NUL. -/
def strAppendf (s : Str) (text : Bytes) : Option Str :=
  strAppend s ((text.take (bufsiz - 2)).takeWhile (· ≠ 0))

/-! ## What is written -/

/-- The largest size of a block. -/
def strMax : ℕ := 2 ^ 31 - bufsiz

theorem Str.size_le_strMax (s : Str) : s.size ≤ strMax := by
  obtain ⟨count, hcount⟩ := s.dvd_size
  have hlt := s.size_lt
  unfold strMax bufsiz at *
  omega

/-- There is room up to the largest size. -/
theorem strRealloc_isSome (s : Str) (newSize : ℕ) :
    (strRealloc s newSize).isSome = true ↔ newSize ≤ strMax := by
  fun_induction strRealloc s newSize with
  | case1 s hlt hsize ih => exact ih
  | case2 s hlt hsize =>
    have hlast : strMax ≤ s.size := by
      obtain ⟨count, hcount⟩ := s.dvd_size
      unfold strMax bufsiz at *
      omega
    simp
    omega
  | case3 s hlt =>
    have hle := s.size_le_strMax
    simp
    omega

/-- What a string is after an append, if it fits. -/
def grown {Symbol : Type*} (text appended : List Symbol) : Option (List Symbol) :=
  if text.length + appended.length < strMax then some (text ++ appended) else none

/-- Appends one after the other fit exactly if all of them fit together. -/
theorem foldlM_grown {Symbol Piece : Type*} (write : Piece → List Symbol) (pieces : List Piece)
    {text : List Symbol} (htext : text.length < strMax) :
    pieces.foldlM (fun text piece ↦ grown text (write piece)) text =
      grown text (pieces.flatMap write) := by
  induction pieces generalizing text with
  | nil => simp [grown, htext]
  | cons piece pieces ih =>
    rw [List.foldlM_cons, List.flatMap_cons]
    by_cases hpiece : text.length + (write piece).length < strMax
    · have hnext : (text ++ write piece).length < strMax := by rwa [List.length_append]
      rw [grown, if_pos hpiece, Option.bind_eq_bind, Option.bind_some, ih hnext, grown, grown,
        List.length_append, List.length_append, List.append_assoc, Nat.add_assoc]
    · rw [grown, if_neg hpiece, grown, if_neg (by rw [List.length_append]; omega)]
      rfl

theorem strAppend_str (s : Str) (str : Bytes) :
    (strAppend s str).map Str.str = grown s.str str := by
  have hroom := s.str_lt.trans_le s.size_le_strMax
  unfold strAppend grown
  split
  · next hempty => simp [hempty, hroom]
  · split
    · next hint =>
      split
      · next hnone =>
        have hfull := (strRealloc_isSome s (s.str.length + str.length + 1)).not.mp (by simp [hnone])
        rw [if_neg (by omega)]
        rfl
      · next larger hsome =>
        have hfits := (strRealloc_isSome s (s.str.length + str.length + 1)).mp (by simp [hsome])
        rw [if_pos (by omega)]
        exact congrArg (some <| · ++ str) (strRealloc_spec hsome).1
    · next hint =>
      have hle : strMax < 2 ^ 31 := by decide
      rw [if_neg (by omega)]
      rfl

/-- A function writes a text behind whatever is there, if it fits. -/
def Appends (step : Str → Option Str) (appended : Bytes) : Prop :=
  ∀ s, (step s).map Str.str = grown s.str appended

theorem appends_nil : Appends some [] := by
  intro s
  have hroom := s.str_lt.trans_le s.size_le_strMax
  simp [grown, hroom]

theorem appends_strAppend (str : Bytes) : Appends (strAppend · str) str := fun s ↦ strAppend_str s str

/-- A short text without a NUL is written as it is. -/
theorem appends_strAppendf {text : Bytes} (hshort : text.length ≤ bufsiz - 2) (hnul : 0 ∉ text) :
    Appends (strAppendf · text) text := by
  intro s
  have hwhole : (text.take (bufsiz - 2)).takeWhile (fun c : UInt8 ↦ c ≠ 0) = text := by
    rw [List.take_of_length_le hshort, List.takeWhile_eq_self_iff]
    intro c hmem
    exact decide_eq_true fun hzero ↦ hnul (hzero ▸ hmem)
  unfold strAppendf
  rw [hwhole]
  exact strAppend_str s text

theorem Appends.bind {first second : Str → Option Str} {text rest : Bytes}
    (hfirst : Appends first text) (hsecond : Appends second rest) :
    Appends (fun s ↦ (first s).bind second) (text ++ rest) := by
  intro s
  have hgrown := hfirst s
  unfold grown at hgrown ⊢
  rw [List.length_append]
  dsimp only
  cases hstep : first s with
  | none =>
    rw [hstep] at hgrown
    split at hgrown
    · cases hgrown
    · rw [if_neg (by omega)]
      rfl
  | some next =>
    rw [hstep] at hgrown
    split at hgrown
    · have hnext := Option.some.inj hgrown
      rw [Option.bind_some, hsecond next, grown, hnext, List.length_append, List.append_assoc,
        Nat.add_assoc]
    · cases hgrown

/-- A loop writes what its rounds write. -/
theorem appends_foldlM {Item : Type*} {step : Str → Item → Option Str} {piece : Item → Bytes}
    (hstep : ∀ item, Appends (step · item) (piece item)) (items : List Item) :
    Appends (items.foldlM step ·) (items.flatMap piece) := by
  induction items with
  | nil => exact appends_nil
  | cons item items ih => exact (hstep item).bind ih

end LibTg.Tl
