import LibTg.Data.Run
import LibTg.Tg.Dispatch

/-!
# The receive loop of `tg_run_queue` and `socket_mutex`

Any number of threads run the receive loop for queues that are not `multithread`. The loop calls
`pthread_mutex_trylock` on `socket_mutex`, and goes into `_tg_receive` when the result is not zero,
that is when the mutex has not been acquired. A thread that has acquired it tries again, and then
finds its own mutex taken. Which threads are stopped from outside, what `_tg_receive` and `tg_send`
return, and whether an unlock by a thread that does not hold the mutex releases it, is up to the
schedule.
-/

namespace LibTg.Tg

/-- Where a thread of `tg_run_queue` stands: before its socket is open, before the test of
`queue->loop`, before `pthread_mutex_trylock`, inside `_tg_receive`, before the unlock after it,
before `tg_send` for `RTL_RESEND`, and behind the loop. -/
inductive LoopPc
  | start
  | test
  | trylock
  | receive
  | unlock (res : Rtl)
  | resend
  | exit
  deriving DecidableEq

/-- A thread of `tg_run_queue` and the flag `queue->loop`. -/
structure LoopThread where
  pc : LoopPc
  loop : Bool
  deriving DecidableEq

/-- The holder of `socket_mutex`, the threads, and as history for every unlock the thread that
called it and the holder at that time. -/
structure ReceiveLoop where
  owner : Option ℕ
  threads : List LoopThread
  unlocks : List (ℕ × Option ℕ)
  deriving DecidableEq

/-- `count` new threads. -/
def ReceiveLoop.start (count : ℕ) : ReceiveLoop where
  owner := none
  threads := List.replicate count ⟨.start, true⟩
  unlocks := []

/-- The steps: the beginning of a thread up to its first `tg_send`, `loop = false` by another
thread, the test of the loop, `pthread_mutex_trylock`, the return from `_tg_receive`,
`tg_mutex_unlock`, and `tg_send` again. -/
inductive LoopLabel
  | begin (thread : ℕ) (opened sent : Bool)
  | stop (thread : ℕ)
  | test (thread : ℕ)
  | trylock (thread : ℕ)
  | received (thread : ℕ) (res : Rtl)
  | unlock (thread : ℕ) (released : Bool)
  | resend (thread : ℕ) (sent : Bool)

def ReceiveLoop.put (tg : ReceiveLoop) (index : ℕ) (thread : LoopThread) : ReceiveLoop :=
  { tg with threads := tg.threads.set index thread }

/-- Where the loop goes with the result of `_tg_receive`. -/
def afterReceive : Rtl → LoopPc
  | .resend => .resend
  | .exit => .exit
  | .error => .exit
  | .reread => .test

/-- A step of one thread. A thread that acquires the mutex goes on without a receive, because the
result of `pthread_mutex_trylock` is then zero. -/
def threadStep (tg : ReceiveLoop) (index : ℕ) (thread : LoopThread) :
    LoopLabel → Option ReceiveLoop
  | .begin _ opened sent =>
    if thread.pc = .start then
      if opened then some (tg.put index { pc := .test, loop := thread.loop && sent })
      else some (tg.put index { thread with pc := .exit })
    else none
  | .stop _ => some (tg.put index { thread with loop := false })
  | .test _ =>
    if thread.pc = .test then
      some (tg.put index { thread with pc := if thread.loop then .trylock else .exit })
    else none
  | .trylock _ =>
    if thread.pc = .trylock then
      match tg.owner with
      | none => some ({ tg with owner := some index }.put index { thread with pc := .test })
      | some _ => some (tg.put index { thread with pc := .receive })
    else none
  | .received _ res =>
    if thread.pc = .receive then some (tg.put index { thread with pc := .unlock res }) else none
  | .unlock _ released =>
    match thread.pc with
    | .unlock res =>
      let owner := if tg.owner = some index ∨ released then none else tg.owner
      some ({ tg with owner := owner, unlocks := tg.unlocks ++ [(index, tg.owner)] }.put index
        { thread with pc := afterReceive res })
    | _ => none
  | .resend _ sent =>
    if thread.pc = .resend then
      some (tg.put index { thread with pc := if sent then .test else .exit })
    else none

def LoopLabel.thread : LoopLabel → ℕ
  | .begin thread _ _ => thread
  | .stop thread => thread
  | .test thread => thread
  | .trylock thread => thread
  | .received thread _ => thread
  | .unlock thread _ => thread
  | .resend thread _ => thread

def loopStep (tg : ReceiveLoop) (label : LoopLabel) : Option ReceiveLoop := do
  let thread ← tg.threads[label.thread]?
  threadStep tg label.thread thread label

/-! ## Exclusion -/

def ReceiveLoop.At (tg : ReceiveLoop) (index : ℕ) (pc : LoopPc) : Prop :=
  ∃ thread, tg.threads[index]? = some thread ∧ thread.pc = pc

/-- At most one thread is inside `_tg_receive`, only while it holds the mutex, and every unlock was
one by the holder. -/
structure ReceiveLoop.Exclusive (tg : ReceiveLoop) : Prop where
  single : ∀ {first second}, tg.At first .receive → tg.At second .receive → first = second
  held : ∀ {index}, tg.At index .receive → tg.owner = some index
  unlocks : ∀ {unlock}, unlock ∈ tg.unlocks → unlock.2 = some unlock.1

/-- No thread calls `pthread_mutex_trylock` while another one holds the mutex. -/
def Uncontended (tg : ReceiveLoop) : LoopLabel → Prop
  | .trylock thread => ∀ owner ∈ tg.owner, owner = thread
  | _ => True

instance (tg : ReceiveLoop) (label : LoopLabel) : Decidable (Uncontended tg label) := by
  cases label <;> unfold Uncontended <;> infer_instance

/-- What the steps keep: a thread that is inside, or about to unlock, holds the mutex. -/
structure ReceiveLoop.Held (tg : ReceiveLoop) : Prop where
  receive : ∀ {index}, tg.At index .receive → tg.owner = some index
  unlock : ∀ {index res}, tg.At index (.unlock res) → tg.owner = some index
  unlocks : ∀ {unlock}, unlock ∈ tg.unlocks → unlock.2 = some unlock.1

theorem ReceiveLoop.Held.exclusive {tg : ReceiveLoop} (h : tg.Held) : tg.Exclusive where
  single hfirst hsecond := by
    have hsame := (h.receive hfirst).symm.trans (h.receive hsecond)
    exact Option.some.inj hsame
  held := h.receive
  unlocks := h.unlocks

theorem held_start (count : ℕ) : (ReceiveLoop.start count).Held := by
  have hpc {index : ℕ} {pc : LoopPc} (hat : (ReceiveLoop.start count).At index pc) : pc = .start := by
    obtain ⟨thread, hthread, rfl⟩ := hat
    have hmem := List.mem_of_getElem? hthread
    rw [ReceiveLoop.start, List.mem_replicate] at hmem
    rw [hmem.2]
  constructor
  · intro index hat
    cases hpc hat
  · intro index res hat
    cases hpc hat
  · intro unlock hmem
    cases hmem

/-! ## What a step keeps -/

/-- A thread that stands somewhere after a step has moved there, or stood there before. -/
theorem at_put {tg : ReceiveLoop} {index other : ℕ} {thread : LoopThread} {pc : LoopPc}
    (hat : (tg.put index thread).At other pc) :
    (other = index ∧ thread.pc = pc) ∨ (other ≠ index ∧ tg.At other pc) := by
  obtain ⟨found, hfound, hpc⟩ := hat
  rw [ReceiveLoop.put, List.getElem?_set] at hfound
  split at hfound
  case isTrue hindex =>
    split at hfound
    · cases hfound
      exact .inl ⟨hindex.symm, hpc⟩
    · cases hfound
  case isFalse hindex => exact .inr ⟨Ne.symm hindex, found, hfound, hpc⟩

/-- A move that leaves the mutex alone, and ends inside or before the unlock only for the holder. -/
theorem ReceiveLoop.Held.put {tg : ReceiveLoop} (h : tg.Held) {index : ℕ} {thread : LoopThread}
    (hreceive : thread.pc = .receive → tg.owner = some index)
    (hunlock : ∀ res, thread.pc = .unlock res → tg.owner = some index) :
    (tg.put index thread).Held where
  receive hat := by
    rcases at_put hat with ⟨rfl, hpc⟩ | ⟨-, hbefore⟩
    · exact hreceive hpc
    · exact h.receive hbefore
  unlock hat := by
    rcases at_put hat with ⟨rfl, hpc⟩ | ⟨-, hbefore⟩
    · exact hunlock _ hpc
    · exact h.unlock hbefore
  unlocks := h.unlocks

/-- The mutex is free, so that no thread stands inside or before the unlock. -/
theorem ReceiveLoop.Held.acquire {tg : ReceiveLoop} (h : tg.Held) (howner : tg.owner = none)
    {index : ℕ} {thread : LoopThread} (hpc : thread.pc = .test) :
    ({ tg with owner := some index }.put index thread).Held where
  receive hat := by
    rcases at_put hat with ⟨-, hreceive⟩ | ⟨-, hbefore⟩
    · cases hpc.symm.trans hreceive
    · cases howner.symm.trans (h.receive hbefore)
  unlock hat := by
    rcases at_put hat with ⟨-, hunlock⟩ | ⟨-, hbefore⟩
    · cases hpc.symm.trans hunlock
    · cases howner.symm.trans (h.unlock hbefore)
  unlocks := h.unlocks

theorem afterReceive_ne (res : Rtl) :
    afterReceive res ≠ .receive ∧ ∀ other, afterReceive res ≠ .unlock other := by
  cases res <;> exact ⟨nofun, nofun⟩

/-- The holder unlocks, and no other thread stood inside or before the unlock. -/
theorem ReceiveLoop.Held.release {tg : ReceiveLoop} (h : tg.Held) {index : ℕ}
    (howner : tg.owner = some index) {thread : LoopThread} {res : Rtl}
    (hpc : thread.pc = afterReceive res) :
    ({ tg with owner := none, unlocks := tg.unlocks ++ [(index, tg.owner)] }.put index
      thread).Held where
  receive hat := by
    rcases at_put hat with ⟨-, hreceive⟩ | ⟨hother, hbefore⟩
    · exact absurd (hpc.symm.trans hreceive) (afterReceive_ne res).1
    · exact absurd (Option.some.inj ((h.receive hbefore).symm.trans howner)) hother
  unlock hat := by
    rcases at_put hat with ⟨-, hunlock⟩ | ⟨hother, hbefore⟩
    · exact absurd (hpc.symm.trans hunlock) ((afterReceive_ne res).2 _)
    · exact absurd (Option.some.inj ((h.unlock hbefore).symm.trans howner)) hother
  unlocks hmem := by
    rcases List.mem_append.mp hmem with hbefore | hlast
    · exact h.unlocks hbefore
    · rw [List.mem_singleton.mp hlast]
      exact howner

theorem loopStep_held {tg next : ReceiveLoop} {label : LoopLabel}
    (hstep : loopStep tg label = some next) (huncontended : Uncontended tg label)
    (h : tg.Held) : next.Held := by
  obtain ⟨thread, hthread, hstep⟩ := Option.bind_eq_some_iff.mp hstep
  have hquiet {pc : LoopPc} {loop : Bool} (hne : pc ≠ .receive ∧ ∀ res, pc ≠ .unlock res) :
      (tg.put label.thread ⟨pc, loop⟩).Held :=
    h.put (fun hpc ↦ absurd hpc hne.1) fun res hpc ↦ absurd hpc (hne.2 res)
  cases label with
  | begin index opened sent =>
    simp only [threadStep] at hstep
    split at hstep
    · split at hstep <;> cases hstep <;> exact hquiet ⟨nofun, nofun⟩
    · cases hstep
  | stop index =>
    cases hstep
    have hat {pc : LoopPc} (hpc : thread.pc = pc) : tg.At index pc := ⟨thread, hthread, hpc⟩
    exact h.put (fun hpc ↦ h.receive (hat hpc)) fun res hpc ↦ h.unlock (hat hpc)
  | test index =>
    simp only [threadStep] at hstep
    split at hstep
    · cases hstep
      refine hquiet ?_
      split <;> exact ⟨nofun, nofun⟩
    · cases hstep
  | trylock index =>
    simp only [threadStep] at hstep
    split at hstep
    · split at hstep
      case h_1 howner =>
        cases hstep
        exact h.acquire howner rfl
      case h_2 owner howner =>
        cases hstep
        have hown : tg.owner = some index := by
          rw [howner, huncontended owner howner]
        exact h.put (fun _ ↦ hown) fun res hpc ↦ nomatch hpc
    · cases hstep
  | received index res =>
    simp only [threadStep] at hstep
    split at hstep
    case isTrue hpc =>
      cases hstep
      have hown := h.receive ⟨thread, hthread, hpc⟩
      exact h.put (fun _ ↦ hown) fun _ _ ↦ hown
    · cases hstep
  | unlock index released =>
    simp only [threadStep] at hstep
    split at hstep
    case h_1 res hpc =>
      have hown := h.unlock ⟨thread, hthread, hpc⟩
      rw [if_pos (Or.inl hown)] at hstep
      cases hstep
      exact h.release hown rfl
    · cases hstep
  | resend index sent =>
    simp only [threadStep] at hstep
    split at hstep
    · cases hstep
      refine hquiet ?_
      split <;> exact ⟨nofun, nofun⟩
    · cases hstep

/-- A thread that finds the mutex of another one goes into `_tg_receive` without it. -/
theorem loopStep_contended {tg next : ReceiveLoop} {label : LoopLabel}
    (hstep : loopStep tg label = some next) (hcontended : ¬ Uncontended tg label) :
    ¬ next.Exclusive := by
  intro hexclusive
  cases label with
  | trylock index =>
    obtain ⟨owner, howner, hne⟩ : ∃ owner, tg.owner = some owner ∧ owner ≠ index := by
      by_contra hnone
      refine hcontended fun owner howner ↦ ?_
      by_contra hne
      exact hnone ⟨owner, howner, hne⟩
    obtain ⟨thread, hthread, hstep⟩ := Option.bind_eq_some_iff.mp hstep
    simp only [threadStep, howner] at hstep
    split at hstep
    · cases hstep
      have hlt := (List.getElem?_eq_some_iff.mp hthread).1
      have hat : (tg.put index { thread with pc := .receive }).At index .receive :=
        ⟨_, List.getElem?_set_self hlt, rfl⟩
      have hheld : tg.owner = some index := hexclusive.held hat
      exact hne (Option.some.inj (howner.symm.trans hheld))
    · cases hstep
  | _ => exact hcontended trivial

/-- The mutex excludes on exactly the schedules in which no thread tries it while another one
holds it. -/
theorem run_exclusive_iff (count : ℕ) {labels : List LoopLabel} {final : ReceiveLoop}
    (hrun : run loopStep (.start count) labels = some final) :
    Always loopStep ReceiveLoop.Exclusive (.start count) labels ↔
      Along loopStep Uncontended (.start count) labels :=
  always_iff_along ReceiveLoop.Held.exclusive loopStep_held
    (fun hstep _ hcontended ↦ loopStep_contended hstep hcontended) hrun (held_start count)

/-! ## Two threads one after the other, and two at the same time -/

/-- Each of two threads acquires the mutex, finds it taken, receives an answer and unlocks. -/
def turnReceive : List LoopLabel :=
  [.begin 0 true true, .begin 1 true true, .test 0, .test 1, .trylock 0, .test 0, .trylock 0,
    .received 0 .reread, .unlock 0 false, .trylock 1, .test 0, .test 1, .trylock 1,
    .received 1 .resend, .unlock 1 false, .resend 1 true, .trylock 0]

/-- A thread acquires the mutex; two more threads find it taken and receive at the same time. -/
def pairReceive : List LoopLabel :=
  [.begin 0 true true, .begin 1 true true, .begin 2 true true, .test 0, .test 1, .test 2,
    .trylock 0, .trylock 1, .trylock 2]

/-- The state after a schedule that is known to be enabled. -/
def loopAfter (count : ℕ) (labels : List LoopLabel) : ReceiveLoop :=
  (run loopStep (.start count) labels).getD (.start count)

theorem turnReceive_exclusive :
    Always loopStep ReceiveLoop.Exclusive (.start 2) turnReceive := by
  have hrun : run loopStep (.start 2) turnReceive = some (loopAfter 2 turnReceive) := by
    decide +kernel
  exact (run_exclusive_iff 2 hrun).mpr (by decide +kernel)

theorem pairReceive_not_exclusive :
    ¬ Always loopStep ReceiveLoop.Exclusive (.start 3) pairReceive := by
  intro halways
  have hrun : run loopStep (.start 3) pairReceive = some (loopAfter 3 pairReceive) := by
    decide +kernel
  have hinside (index : ℕ) (hpc : ((loopAfter 3 pairReceive).threads[index]?).map LoopThread.pc =
      some .receive) : (loopAfter 3 pairReceive).At index .receive :=
    Option.map_eq_some_iff.mp hpc
  have hsame := (halways.final hrun).single (hinside 1 (by decide +kernel))
    (hinside 2 (by decide +kernel))
  cases hsame

end LibTg.Tg
