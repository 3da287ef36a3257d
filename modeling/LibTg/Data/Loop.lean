import Mathlib.Data.List.Basic
import Mathlib.Tactic.Ring

/-!
# Counted loops

A loop `for (i = 0; i < count; i++)` applies its body to the state once for each value of the
counter. Two nested loops over equal blocks are one loop over all of them, and a loop that stops at
a condition is the counted loop with the number of rounds that it takes.
-/

namespace LibTg

variable {State : Type*}

/-- The state after `count` rounds of a body that sees the counter. -/
def loop (body : ℕ → State → State) : ℕ → State → State
  | 0, state => state
  | count + 1, state => body count (loop body count state)

@[simp]
theorem loop_zero (body : ℕ → State → State) (state : State) : loop body 0 state = state := rfl

theorem loop_succ (body : ℕ → State → State) (count : ℕ) (state : State) :
    loop body (count + 1) state = body count (loop body count state) := rfl

/-- What every round keeps, counted from the start. -/
theorem loop_invariant {body : ℕ → State → State} (invariant : ℕ → State → Prop) {count : ℕ}
    {state : State} (hstart : invariant 0 state)
    (hround : ∀ index state, index < count → invariant index state →
      invariant (index + 1) (body index state)) : invariant count (loop body count state) := by
  induction count with
  | zero => exact hstart
  | succ count ih =>
    have hbefore := ih fun index state hlt ↦ hround index state (Nat.lt_succ_of_lt hlt)
    exact hround count _ (Nat.lt_succ_self count) hbefore

theorem loop_congr {first second : ℕ → State → State} {count : ℕ} (state : State)
    (hbody : ∀ index state, index < count → first index state = second index state) :
    loop first count state = loop second count state := by
  induction count with
  | zero => rfl
  | succ count ih =>
    rw [loop_succ, loop_succ, ih fun index state hlt ↦ hbody index state (Nat.lt_succ_of_lt hlt)]
    exact hbody count _ (Nat.lt_succ_self count)

theorem loop_add (body : ℕ → State → State) (first second : ℕ) (state : State) :
    loop body (first + second) state =
      loop (fun index ↦ body (first + index)) second (loop body first state) := by
  induction second with
  | zero => rfl
  | succ second ih => rw [← Nat.add_assoc, loop_succ, ih, loop_succ]

/-- Nested loops: `width` rounds for each of `count` blocks. -/
theorem loop_nested (body : ℕ → State → State) (width count : ℕ) (state : State) :
    loop (fun block ↦ loop (fun index ↦ body (width * block + index)) width) count state =
      loop body (width * count) state := by
  induction count with
  | zero => rfl
  | succ count ih => rw [loop_succ, ih, Nat.mul_succ, loop_add]

/-- A loop whose body takes the next item of a sequence. -/
theorem loop_eq_foldl {Item : Type*} (push : State → Item → State) (item : ℕ → Item) (count : ℕ)
    (state : State) :
    loop (fun index state ↦ push state (item index)) count state =
      ((List.range count).map item).foldl push state := by
  induction count with
  | zero => rfl
  | succ count ih =>
    rw [loop_succ, ih, List.range_succ, List.map_append, List.foldl_append]
    rfl

/-- Two loops in step: what relates their states before a round relates them behind it. -/
theorem loop_related {Other : Type*} (first : ℕ → State → State) (second : ℕ → Other → Other)
    (related : ℕ → State → Other → Prop) (count : ℕ) (state : State) (other : Other)
    (hstart : related 0 state other)
    (hround : ∀ index state other, index < count → related index state other →
      related (index + 1) (first index state) (second index other)) :
    related count (loop first count state) (loop second count other) := by
  induction count with
  | zero => exact hstart
  | succ count ih =>
    have hbefore := ih fun index state other hlt ↦
      hround index state other (Nat.lt_succ_of_lt hlt)
    exact hround count _ _ (Nat.lt_succ_self count) hbefore

end LibTg
