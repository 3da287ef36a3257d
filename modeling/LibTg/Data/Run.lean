import Mathlib.Algebra.BigOperators.Group.List.Basic
import Mathlib.Data.List.Basic

/-!
# Runs of a labelled step function

A component with several threads is a partial step function: a label names the thread that moves
and what its environment supplies, and a step that is not enabled has no result. A run is a list
of labels, so a statement about all runs is one about all schedules. The library fixes neither the
states nor the labels.
-/

namespace LibTg

section Run

variable {State Label : Type*} (step : State → Label → Option State)

/-- The state after a schedule, if every step of it is enabled. -/
def run (state : State) (labels : List Label) : Option State := labels.foldlM step state

@[simp]
theorem run_nil (state : State) : run step state [] = some state := rfl

theorem run_cons (state : State) (label : Label) (labels : List Label) :
    run step state (label :: labels) = (step state label).bind fun next ↦ run step next labels :=
  rfl

theorem run_append (state : State) (first second : List Label) :
    run step state (first ++ second) =
      (run step state first).bind fun next ↦ run step next second := by
  unfold run
  rw [List.foldlM_append]
  rfl

/-- Every step of the schedule meets a condition on the state before it and its label. -/
def Along (condition : State → Label → Prop) : State → List Label → Prop
  | _, [] => True
  | state, label :: labels =>
    condition state label ∧ ∀ next, step state label = some next → Along condition next labels

/-- The condition can be checked along a given schedule. -/
instance decidableAlong (condition : State → Label → Prop)
    [∀ state label, Decidable (condition state label)] :
    ∀ state labels, Decidable (Along step condition state labels)
  | _, [] => isTrue trivial
  | state, label :: labels =>
    match hnext : step state label with
    | none => decidable_of_iff (condition state label)
        ⟨fun h ↦ ⟨h, fun next heq ↦ by rw [hnext] at heq; cases heq⟩, fun h ↦ h.1⟩
    | some next =>
      have := decidableAlong condition next labels
      decidable_of_iff (condition state label ∧ Along step condition next labels)
        ⟨fun h ↦ ⟨h.1, fun other heq ↦ by rw [hnext] at heq; cases heq; exact h.2⟩,
          fun h ↦ ⟨h.1, h.2 next hnext⟩⟩

variable {step}

/-- A property that every step meeting the condition keeps holds after every schedule whose steps
meet it. -/
theorem run_invariant_along {condition : State → Label → Prop} {invariant : State → Prop}
    (hstep : ∀ {state label next}, step state label = some next → condition state label →
      invariant state → invariant next)
    {state final : State} {labels : List Label} (hrun : run step state labels = some final)
    (halong : Along step condition state labels) (hstart : invariant state) : invariant final := by
  induction labels generalizing state with
  | nil =>
    rw [run_nil, Option.some.injEq] at hrun
    exact hrun ▸ hstart
  | cons label labels ih =>
    rw [run_cons, Option.bind_eq_some_iff] at hrun
    obtain ⟨next, hnext, hrest⟩ := hrun
    exact ih hrest (halong.2 next hnext) (hstep hnext halong.1 hstart)

theorem along_true (state : State) (labels : List Label) :
    Along step (fun _ _ ↦ True) state labels := by
  induction labels generalizing state with
  | nil => trivial
  | cons label labels ih => exact ⟨trivial, fun next _ ↦ ih next⟩

/-- A property that every step keeps holds after every schedule. -/
theorem run_invariant {invariant : State → Prop}
    (hstep : ∀ {state label next}, step state label = some next → invariant state → invariant next)
    {state final : State} {labels : List Label} (hrun : run step state labels = some final)
    (hstart : invariant state) : invariant final :=
  run_invariant_along (fun hnext _ hbefore ↦ hstep hnext hbefore) hrun (along_true state labels)
    hstart

variable (step) in
/-- A property holds of the first state and of every state that the schedule reaches. -/
def Always (property : State → Prop) : State → List Label → Prop
  | state, [] => property state
  | state, label :: labels =>
    property state ∧ ∀ next, step state label = some next → Always property next labels

theorem Always.first {property : State → Prop} {state : State} {labels : List Label}
    (h : Always step property state labels) : property state := by
  cases labels with
  | nil => exact h
  | cons label labels => exact h.1

theorem Always.final {property : State → Prop} {state final : State} {labels : List Label}
    (h : Always step property state labels) (hrun : run step state labels = some final) :
    property final := by
  induction labels generalizing state with
  | nil =>
    rw [run_nil, Option.some.injEq] at hrun
    exact hrun ▸ h
  | cons label labels ih =>
    rw [run_cons, Option.bind_eq_some_iff] at hrun
    obtain ⟨next, hnext, hrest⟩ := hrun
    exact ih (h.2 next hnext) hrest

/-- A property of the state before a step and its label, which an invariant implies, holds at every
step of a schedule whose steps keep the invariant. -/
theorem along_of_invariant {condition property : State → Label → Prop} {invariant : State → Prop}
    (hproperty : ∀ {state label}, invariant state → property state label)
    (hkeep : ∀ {state label next}, step state label = some next → condition state label →
      invariant state → invariant next)
    {state : State} {labels : List Label} (halong : Along step condition state labels)
    (hstart : invariant state) : Along step property state labels := by
  induction labels generalizing state with
  | nil => trivial
  | cons label labels ih =>
    exact ⟨hproperty hstart, fun next hnext ↦
      ih (halong.2 next hnext) (hkeep hnext halong.1 hstart)⟩

/-- A property that an invariant implies holds in every state of a schedule whose steps keep the
invariant. -/
theorem always_of_invariant {condition : State → Label → Prop} {invariant property : State → Prop}
    (hproperty : ∀ {state}, invariant state → property state)
    (hkeep : ∀ {state label next}, step state label = some next → condition state label →
      invariant state → invariant next)
    {state : State} {labels : List Label} (halong : Along step condition state labels)
    (hstart : invariant state) : Always step property state labels := by
  induction labels generalizing state with
  | nil => exact hproperty hstart
  | cons label labels ih =>
    exact ⟨hproperty hstart, fun next hnext ↦
      ih (halong.2 next hnext) (hkeep hnext halong.1 hstart)⟩

/-- If an invariant is kept by exactly the steps that meet a condition, and every other step breaks
the property at once, then the property always holds on exactly the schedules that meet the
condition throughout. -/
theorem always_iff_along {condition : State → Label → Prop} {invariant property : State → Prop}
    (hsound : ∀ {state}, invariant state → property state)
    (hkeep : ∀ {state label next}, step state label = some next → condition state label →
      invariant state → invariant next)
    (hbreak : ∀ {state label next}, step state label = some next → invariant state →
      ¬ condition state label → ¬ property next)
    {state final : State} {labels : List Label} (hrun : run step state labels = some final)
    (hstart : invariant state) :
    Always step property state labels ↔ Along step condition state labels := by
  induction labels generalizing state with
  | nil => exact iff_of_true (hsound hstart) trivial
  | cons label labels ih =>
    rw [run_cons, Option.bind_eq_some_iff] at hrun
    obtain ⟨next, hnext, hrest⟩ := hrun
    have hfirst {other : State} (hother : step state label = some other) : other = next := by
      rw [hnext, Option.some.injEq] at hother
      exact hother.symm
    by_cases hcondition : condition state label
    · have htail := ih hrest (hkeep hnext hcondition hstart)
      constructor
      · rintro ⟨-, hlater⟩
        exact ⟨hcondition, fun other hother ↦ hfirst hother ▸ htail.mp (hlater next hnext)⟩
      · rintro ⟨-, hlater⟩
        exact ⟨hsound hstart, fun other hother ↦ hfirst hother ▸ htail.mpr (hlater next hnext)⟩
    · refine iff_of_false (fun halways ↦ ?_) fun halong ↦ hcondition halong.1
      have hproperty := (halways.2 next hnext).first
      exact hbreak hnext hstart hcondition hproperty

/-- If a step that meets a condition can be followed by a step of another component, with the states
related as before, then so can a schedule whose steps meet it. -/
theorem run_simulation {Other : Type*} {step' : Other → Label → Option Other}
    {relation : State → Other → Prop} {condition : State → Label → Prop}
    (hstep : ∀ {state other label}, relation state other → condition state label →
      ∃ next next', step state label = some next ∧ step' other label = some next' ∧
        relation next next')
    {state : State} {other : Other} {labels : List Label}
    (halong : Along step condition state labels) (hstart : relation state other) :
    ∃ final final', run step state labels = some final ∧ run step' other labels = some final' ∧
      relation final final' := by
  induction labels generalizing state other with
  | nil => exact ⟨state, other, rfl, rfl, hstart⟩
  | cons label labels ih =>
    obtain ⟨next, next', hnext, hnext', hrelation⟩ := hstep hstart halong.1
    rw [run_cons, run_cons, hnext, hnext', Option.bind_some, Option.bind_some]
    exact ih (halong.2 next hnext) hrelation

end Run

/-! ## Histories -/

section History

variable {Call : Type*}

/-- A call is the last one of a history that concerns something. -/
def LastIn (calls : List Call) (call : Call) (concerns : Call → Prop) : Prop :=
  ∃ before after, calls = before ++ call :: after ∧ ∀ later ∈ after, ¬ concerns later

theorem LastIn.mem {calls : List Call} {call : Call} {concerns : Call → Prop}
    (h : LastIn calls call concerns) : call ∈ calls := by
  obtain ⟨before, after, rfl, -⟩ := h
  exact List.mem_append_right _ List.mem_cons_self

theorem not_lastIn_nil {call : Call} {concerns : Call → Prop} : ¬ LastIn [] call concerns :=
  fun h ↦ absurd h.mem List.not_mem_nil

/-- Conditions that agree on the calls of the history. -/
theorem lastIn_congr {calls : List Call} {call : Call} {first second : Call → Prop}
    (h : ∀ later ∈ calls, first later ↔ second later) :
    LastIn calls call first ↔ LastIn calls call second := by
  unfold LastIn
  apply exists_congr
  intro before
  apply exists_congr
  intro after
  apply and_congr_right
  rintro rfl
  apply forall₂_congr
  intro later hlater
  exact not_congr (h later (List.mem_append_right _ (List.mem_cons_of_mem _ hlater)))

/-- With one more call, that call is the last one, or it is not concerned. -/
theorem lastIn_append {calls : List Call} {last call : Call} {concerns : Call → Prop} :
    LastIn (calls ++ [last]) call concerns ↔
      last = call ∨ (¬ concerns last ∧ LastIn calls call concerns) := by
  constructor
  · rintro ⟨before, after, heq, hafter⟩
    rcases List.eq_nil_or_concat after with rfl | ⟨others, final, rfl⟩
    · exact .inl (List.cons.inj (List.append_inj_right' heq rfl)).1
    · rw [List.concat_eq_append, ← List.cons_append, ← List.append_assoc] at heq
      have hlast := (List.cons.inj (List.append_inj_right' heq rfl)).1
      refine .inr ⟨hafter last ?_, before, others, List.append_inj_left' heq rfl,
        fun later hlater ↦ hafter later ?_⟩
      · rw [hlast, List.concat_eq_append]
        exact List.mem_append_right _ (List.mem_singleton_self _)
      · rw [List.concat_eq_append]
        exact List.mem_append_left _ hlater
  · rintro (rfl | ⟨hlast, before, after, rfl, hafter⟩)
    · exact ⟨calls, [], rfl, fun later hlater ↦ absurd hlater List.not_mem_nil⟩
    · refine ⟨before, after ++ [last], ?_, fun later hlater ↦ ?_⟩
      · rw [List.append_assoc, List.cons_append]
      · rcases List.mem_append.mp hlater with h | h
        · exact hafter later h
        · exact List.mem_singleton.mp h ▸ hlast

end History

/-! ## Totals over the threads -/

section Threads

variable {Thread Total : Type*} [AddCommMonoid Total]

/-- The total over all threads splits into one thread's share and the rest, and the rest stays when
this thread moves. -/
theorem sum_map_set (share : Thread → Total) {threads : List Thread} {index : ℕ} {thread : Thread}
    (hthread : threads[index]? = some thread) :
    ∃ rest, (threads.map share).sum = share thread + rest ∧
      ∀ next, ((threads.set index next).map share).sum = share next + rest := by
  induction threads generalizing index with
  | nil => simp at hthread
  | cons first others ih =>
    cases index with
    | zero =>
      rw [List.getElem?_cons_zero, Option.some.injEq] at hthread
      refine ⟨(others.map share).sum, ?_, fun next ↦ ?_⟩
      · rw [List.map_cons, List.sum_cons, hthread]
      · rw [List.set_cons_zero, List.map_cons, List.sum_cons]
    | succ index =>
      rw [List.getElem?_cons_succ] at hthread
      obtain ⟨rest, hbefore, hafter⟩ := ih hthread
      refine ⟨share first + rest, ?_, fun next ↦ ?_⟩
      · rw [List.map_cons, List.sum_cons, hbefore, add_left_comm]
      · rw [List.set_cons_succ, List.map_cons, List.sum_cons, hafter, add_left_comm]

/-- The total stays when a thread moves without changing its share. -/
theorem sum_map_set_of_eq (share : Thread → Total) {threads : List Thread} {index : ℕ}
    {thread next : Thread} (hthread : threads[index]? = some thread)
    (hshare : share next = share thread) :
    ((threads.set index next).map share).sum = (threads.map share).sum := by
  obtain ⟨rest, hbefore, hafter⟩ := sum_map_set share hthread
  rw [hafter, hbefore, hshare]

end Threads

end LibTg
