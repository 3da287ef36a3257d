import Mathlib.Data.BitVec
import Mathlib.Data.Finite.Prod

/-!
# Mixing items into a word

A hash that is kept in one word takes an item after the other. A step that can be undone, and that
tells two items apart, makes the hash of a list change whenever one item does. The steps in use xor a
word with a shift of itself: a word that its own shift leaves alone is zero.
-/

namespace LibTg

/-! ## Words -/

section XorShift

variable {width : ℕ}

/-- A word xor a linear map of it gives the word back if the map leaves no other word than zero
alone. -/
theorem xor_injective_of_fixed {shift : BitVec width → BitVec width}
    (hxor : ∀ first second, shift (first ^^^ second) = shift first ^^^ shift second)
    (hfixed : ∀ word, word = shift word → word = 0) :
    Function.Injective fun word ↦ word ^^^ shift word := by
  intro first second heq
  apply BitVec.xor_eq_zero_iff.mp
  apply hfixed
  apply BitVec.xor_eq_zero_iff.mp
  calc
    first ^^^ second ^^^ shift (first ^^^ second)
      = first ^^^ second ^^^ (shift first ^^^ shift second) := by rw [hxor]
    _ = first ^^^ shift first ^^^ (second ^^^ shift second) := by ac_rfl
    _ = 0 := BitVec.xor_eq_zero_iff.mpr heq

variable {count : ℕ}

theorem eq_zero_of_eq_ushiftRight (hcount : 0 < count) {word : BitVec width}
    (hword : word = word >>> count) : word = 0 := by
  have hdiv : word.toNat = word.toNat / 2 ^ count := by
    calc
      word.toNat = (word >>> count).toNat := congrArg BitVec.toNat hword
      _ = word.toNat / 2 ^ count := by
        rw [BitVec.toNat_ushiftRight, Nat.shiftRight_eq_div_pow]
  apply BitVec.eq_of_toNat_eq
  by_contra hpos
  have hlt := Nat.div_lt_self (Nat.pos_of_ne_zero hpos) (Nat.one_lt_two_pow hcount.ne')
  omega

theorem eq_zero_of_eq_shiftLeft (hcount : 0 < count) {word : BitVec width}
    (hword : word = word <<< count) : word = 0 := by
  have hbit (index : ℕ) : word.getLsbD index = false := by
    induction index using Nat.strong_induction_on with
    | _ index ih =>
      rw [hword, BitVec.getLsbD_shiftLeft]
      by_cases hlow : index < count
      · simp [hlow]
      · rw [ih (index - count) (by omega), Bool.and_false]
  apply BitVec.eq_of_getLsbD_eq
  intro index _
  exact (hbit index).trans BitVec.getLsbD_zero.symm

theorem xorShiftRight_injective (hcount : 0 < count) :
    Function.Injective fun word : BitVec width ↦ word ^^^ word >>> count :=
  xor_injective_of_fixed (fun first second ↦ BitVec.ushiftRight_xor_distrib first second count)
    fun _ ↦ eq_zero_of_eq_ushiftRight hcount

theorem xorShiftLeft_injective (hcount : 0 < count) :
    Function.Injective fun word : BitVec width ↦ word ^^^ word <<< count :=
  xor_injective_of_fixed (fun first second ↦ BitVec.shiftLeft_xor_distrib first second count)
    fun _ ↦ eq_zero_of_eq_shiftLeft hcount

end XorShift

/-! ## Lists that differ once -/

section Lists

variable {Item Word : Type*}

/-- Two lists of one length that differ in exactly one place. -/
def DifferOnce (first second : List Item) : Prop :=
  first.length = second.length ∧ ∃! index : ℕ, first[index]? ≠ second[index]?

theorem DifferOnce.split {first second : List Item} (h : DifferOnce first second) :
    ∃ front old new back, first = front ++ old :: back ∧ second = front ++ new :: back ∧
      old ≠ new := by
  induction first generalizing second with
  | nil =>
    obtain ⟨hlength, index, hindex, -⟩ := h
    exact absurd (congrArg (·[index]?) (List.length_eq_zero_iff.mp hlength.symm).symm) hindex
  | cons old first ih =>
    obtain ⟨hlength, index, hindex, hunique⟩ := h
    cases second with
    | nil => cases hlength
    | cons new second =>
      rw [List.length_cons, List.length_cons, Nat.add_right_cancel_iff] at hlength
      by_cases hsame : old = new
      · cases index with
        | zero => exact absurd (congrArg some hsame) hindex
        | succ index =>
          have hrest : DifferOnce first second :=
            ⟨hlength, index, hindex, fun other hother ↦ Nat.succ.inj (hunique (other + 1) hother)⟩
          obtain ⟨front, a, b, back, hfirst, hsecond, hne⟩ := ih hrest
          exact ⟨old :: front, a, b, back, by rw [hfirst]; rfl, by rw [hsame, hsecond]; rfl, hne⟩
      · have hzero : index = 0 := (hunique 0 fun heq ↦ hsame (Option.some.inj heq)).symm
        have hrest : first = second := by
          apply List.ext_getElem?
          intro other
          by_contra hother
          exact absurd ((hunique (other + 1) hother).trans hzero) (Nat.succ_ne_zero other)
        exact ⟨[], old, new, second, by rw [hrest]; rfl, rfl, hsame⟩

theorem differOnce_of_split {old new : Item} (hne : old ≠ new) (front back : List Item) :
    DifferOnce (front ++ old :: back) (front ++ new :: back) := by
  refine ⟨by simp, front.length, by simpa using hne, fun index hindex ↦ ?_⟩
  by_contra hother
  apply hindex
  rw [List.getElem?_append, List.getElem?_append]
  split
  · rfl
  · rw [List.getElem?_cons, List.getElem?_cons, if_neg (by omega), if_neg (by omega)]

variable {step : Word → Item → Word}

theorem foldl_injective (hstep : ∀ item, Function.Injective (step · item)) (items : List Item) :
    Function.Injective fun start ↦ items.foldl step start := by
  induction items with
  | nil => exact Function.injective_id
  | cons item items ih => exact ih.comp (hstep item)

/-- A step that can be undone and that tells two items apart tells two lists that differ once
apart. -/
theorem foldl_ne_of_differOnce (hstep : ∀ item, Function.Injective (step · item))
    (hitem : ∀ word, Function.Injective (step word)) {first second : List Item}
    (hdiffer : DifferOnce first second) (start : Word) :
    first.foldl step start ≠ second.foldl step start := by
  obtain ⟨front, old, new, back, rfl, rfl, hne⟩ := hdiffer.split
  rw [List.foldl_append, List.foldl_append, List.foldl_cons, List.foldl_cons]
  intro heq
  exact hne (hitem _ (foldl_injective hstep back heq))

end Lists

end LibTg
