import LibTg.Tg.Queues

/-!
# Queues that are freed (`tg_queue_free`)

The timer of a queue takes `inloop_lock` before it frees the queue, so that it waits for a thread of
`tg_run_queue` that is at work. It waits neither for a thread that has not yet begun nor for one
that has cut the queue out of `tg->queue` and still works on it, and the queue stays in the list if
the last cut of its own thread has found another one with the same `msgid`.
-/

namespace LibTg.Tg

open LibTg.Tl

/-! ## Uses of a queue -/

def Pool.Freed (pool : Pool) (key : ℕ) : Prop :=
  (pool.queues[key]?).map QueueFields.freed = some true

/-- The queues whose `msgid` a search of the list reads: those up to the first match. -/
def Pool.searched (pool : Pool) (id : UInt64) : List ℕ :=
  (pool.listed.take (pool.listed.findIdx (pool.cmpMsgid id) + 1)).map QueueRef.key

/-- The queues whose fields a step of a thread of `tg_run_queue` reads or writes. -/
def Pool.runTouches (pool : Pool) (key : ℕ) : RunPc → RunMove → List ℕ
  | .receiving, .catched msgId _ => key :: pool.searched msgId
  | .catching removal _ _, _ => [removal.queue.key]
  | .cutting, _ =>
    key :: (pool.queues[key]?).elim [] fun fields ↦ pool.searched fields.msgid
  | .ended, _ => []
  | _, _ => [key]

/-- The queues whose fields a step reads or writes. -/
def Pool.touches (pool : Pool) : PoolLabel → List ℕ
  | .request _ => []
  | .run key move =>
    (pool.threads[key]?).elim [] fun thread ↦ pool.runTouches key thread.pc move
  | .timer key => if pool.timers[key]? = some .ended then [] else [key]
  | .cancelQueue msgId => pool.searched msgId
  | .cancel index =>
    (pool.cancels[index]?).elim [] fun cancel ↦
      if cancel.pc = .ended then [] else [cancel.queue.key]
  | .cancelAll => pool.listed.map QueueRef.key

/-- The step does not use a queue that has been freed. -/
def UsesNoFreed (pool : Pool) (label : PoolLabel) : Prop :=
  ∀ key ∈ pool.touches label, ¬ pool.Freed key

def Pool.ListsNoFreed (pool : Pool) : Prop := ∀ queue ∈ pool.listed, ¬ pool.Freed queue.key

/-! ## The condition -/

/-- A thread of `tg_run_queue` at its end. -/
def RunPc.isEnded : RunPc → Bool
  | .ended => true
  | _ => false

/-- A thread of `tg_run_queue` before its last `tg_queue_cut`. -/
def RunPc.isCutting : RunPc → Bool
  | .cutting => true
  | _ => false

/-- The thread of the queue has come to its end. -/
def Pool.Ended (pool : Pool) (key : ℕ) : Prop :=
  ∃ thread ∈ pool.threads[key]?, thread.pc.isEnded = true

/-- A call of `catched_tl` or `tg_queue_cancell_queue` has cut the queue out and still works on
it. -/
def Pool.Held (pool : Pool) (key : ℕ) : Prop :=
  (∃ thread ∈ pool.threads, ∃ removal ∈ thread.pc.removal, removal.queue.key = key) ∨
    ∃ cancel ∈ pool.cancels, cancel.pc ≠ .ended ∧ cancel.queue.key = key

/-- If the queue is listed, a search for its `msgid` finds it. -/
def Pool.FindsOwn (pool : Pool) (key : ℕ) : Prop :=
  (∃ queue ∈ pool.listed, queue.key = key) → ∀ fields ∈ pool.queues[key]?,
    ∀ queue ∈ pool.listed.find? (pool.cmpMsgid fields.msgid), queue.key = key

/-- A timer frees a queue only after the thread of the queue has come to its end and when no other
thread works on it, and the last cut of that thread does not find another queue in its place. -/
def Orderly (pool : Pool) : PoolLabel → Prop
  | .run key _ => ∀ thread ∈ pool.threads[key]?, thread.pc.isCutting = true → pool.FindsOwn key
  | .timer key => pool.timers[key]? = some .freeing → pool.Ended key ∧ ¬ pool.Held key
  | _ => True

instance (pool : Pool) (key : ℕ) : Decidable (pool.Freed key) :=
  inferInstanceAs (Decidable (_ = _))

instance (pool : Pool) (key : ℕ) : Decidable (pool.Ended key) :=
  inferInstanceAs (Decidable (∃ thread ∈ pool.threads[key]?, thread.pc.isEnded = true))

instance (pool : Pool) (key : ℕ) : Decidable (pool.Held key) :=
  inferInstanceAs (Decidable
    ((∃ thread ∈ pool.threads, ∃ removal ∈ thread.pc.removal, removal.queue.key = key) ∨
      ∃ cancel ∈ pool.cancels, cancel.pc ≠ .ended ∧ cancel.queue.key = key))

instance (pool : Pool) (key : ℕ) : Decidable (pool.FindsOwn key) :=
  inferInstanceAs (Decidable ((∃ queue ∈ pool.listed, queue.key = key) →
    ∀ fields ∈ pool.queues[key]?,
      ∀ queue ∈ pool.listed.find? (pool.cmpMsgid fields.msgid), queue.key = key))

instance (pool : Pool) (label : PoolLabel) : Decidable (Orderly pool label) := by
  cases label <;> unfold Orderly <;> infer_instance

instance (pool : Pool) (label : PoolLabel) : Decidable (UsesNoFreed pool label) :=
  inferInstanceAs (Decidable (∀ key ∈ pool.touches label, ¬ pool.Freed key))

/-! ## What the orderly steps keep -/

/-- A thread of `tg_run_queue` between its `tg_queue_add` and its last `tg_queue_cut`. -/
def RunPc.isListable : RunPc → Bool
  | .start => false
  | .opening => false
  | .adding => false
  | .unlocking => false
  | .ended => false
  | _ => true

/-- A queue is listed at most once, while its thread is at work. One that has been freed is at the
end of both its threads, and nobody else works on it. -/
structure Pool.Alive (pool : Pool) : Prop where
  single : (pool.listed.map QueueRef.key).Nodup
  listed : ∀ queue ∈ pool.listed, ∃ thread,
    pool.threads[queue.key]? = some thread ∧ thread.pc.isListable = true
  ended : ∀ key, pool.Freed key → pool.Ended key
  timer : ∀ key, pool.Freed key → pool.timers[key]? = some .ended
  unheld : ∀ key, pool.Freed key → ¬ pool.Held key

section Alive

variable {pool next : Pool} {key : ℕ} {thread : RunThread}

theorem Pool.Alive.listsNoFreed (h : pool.Alive) : pool.ListsNoFreed := by
  intro queue hqueue hfreed
  obtain ⟨thread, hthread, hlistable⟩ := h.listed queue hqueue
  obtain ⟨other, hother, hended⟩ := h.ended queue.key hfreed
  rw [hthread, Option.mem_some_iff] at hother
  subst hother
  unfold RunPc.isEnded at hended
  split at hended
  case h_1 hpc =>
    rw [hpc] at hlistable
    cases hlistable
  case h_2 => cases hended

/-- A queue whose thread is not at its end has not been freed. -/
theorem Pool.Alive.not_freed (h : pool.Alive) (hthread : pool.threads[key]? = some thread)
    (hpc : thread.pc.isEnded = false) : ¬ pool.Freed key := by
  intro hfreed
  obtain ⟨other, hother, hended⟩ := h.ended key hfreed
  rw [hthread, Option.mem_some_iff] at hother
  rw [hother, hended] at hpc
  cases hpc

/-- A queue that a thread has cut out and still works on has not been freed. -/
theorem Pool.Alive.not_freed_removal (h : pool.Alive)
    (hthread : pool.threads[key]? = some thread) {removal : Removal}
    (hremoval : removal ∈ thread.pc.removal) : ¬ pool.Freed removal.queue.key := by
  intro hfreed
  exact h.unheld _ hfreed
    (.inl ⟨thread, List.mem_of_getElem? hthread, removal, hremoval, rfl⟩)

/-- A search reads listed queues only. -/
theorem Pool.Alive.not_freed_searched (h : pool.Alive) {id : UInt64} {key : ℕ}
    (hkey : key ∈ pool.searched id) : ¬ pool.Freed key := by
  obtain ⟨queue, hqueue, rfl⟩ := List.mem_map.mp hkey
  exact h.listsNoFreed queue (List.mem_of_mem_take hqueue)

/-- A thread uses its own queue, listed ones, and the one that it has cut out. -/
theorem mem_runTouches {touched : ℕ} {pc : RunPc} {move : RunMove}
    (htouched : touched ∈ pool.runTouches key pc move) :
    pc.isEnded = false ∧ touched = key ∨ (∃ id, touched ∈ pool.searched id) ∨
      ∃ removal ∈ pc.removal, removal.queue.key = touched := by
  unfold Pool.runTouches at htouched
  split at htouched
  case h_1 msgId tl =>
    obtain rfl | hsearched := List.mem_cons.mp htouched
    · exact .inl ⟨rfl, rfl⟩
    · exact .inr (.inl ⟨msgId, hsearched⟩)
  case h_2 removal tl pc =>
    rw [List.mem_singleton] at htouched
    exact .inr (.inr ⟨removal, rfl, htouched.symm⟩)
  case h_3 =>
    obtain rfl | hsearched := List.mem_cons.mp htouched
    · exact .inl ⟨rfl, rfl⟩
    · cases hfields : pool.queues[key]? with
      | none =>
        rw [hfields] at hsearched
        cases hsearched
      | some fields =>
        rw [hfields, Option.elim_some] at hsearched
        exact .inr (.inl ⟨fields.msgid, hsearched⟩)
  case h_4 => cases htouched
  case h_5 hended hreceiving =>
    rw [List.mem_singleton] at htouched
    refine .inl ⟨?_, htouched⟩
    unfold RunPc.isEnded
    split
    case h_1 => exact absurd rfl hended
    case h_2 => rfl

theorem Pool.Alive.usesNoFreed (h : pool.Alive) (label : PoolLabel) : UsesNoFreed pool label := by
  intro touched htouched
  cases label with
  | request onDone => cases htouched
  | run key move =>
    rw [Pool.touches] at htouched
    cases hthread : pool.threads[key]? with
    | none =>
      rw [hthread] at htouched
      cases htouched
    | some thread =>
      rw [hthread, Option.elim_some] at htouched
      obtain ⟨hpc, rfl⟩ | ⟨id, hsearched⟩ | ⟨removal, hremoval, rfl⟩ := mem_runTouches htouched
      · exact h.not_freed hthread hpc
      · exact h.not_freed_searched hsearched
      · exact h.not_freed_removal hthread hremoval
  | timer key =>
    rw [Pool.touches] at htouched
    split at htouched
    case isTrue => cases htouched
    case isFalse htimer =>
      rw [List.mem_singleton] at htouched
      exact fun hfreed ↦ htimer (h.timer key (htouched ▸ hfreed))
  | cancelQueue msgId => exact h.not_freed_searched htouched
  | cancel index =>
    rw [Pool.touches] at htouched
    cases hcancel : pool.cancels[index]? with
    | none =>
      rw [hcancel] at htouched
      cases htouched
    | some cancel =>
      rw [hcancel, Option.elim_some] at htouched
      split at htouched
      case isTrue => cases htouched
      case isFalse hpc =>
        rw [List.mem_singleton] at htouched
        intro hfreed
        exact h.unheld touched hfreed
          (.inr ⟨cancel, List.mem_of_getElem? hcancel, hpc, htouched.symm⟩)
  | cancelAll =>
    obtain ⟨queue, hqueue, rfl⟩ := List.mem_map.mp htouched
    exact h.listsNoFreed queue hqueue

/-! ## Every move -/

/-- Queues that are freed alike. -/
theorem freed_iff {queues : List QueueFields}
    (hfreed : queues.map QueueFields.freed = pool.queues.map QueueFields.freed) (key : ℕ) :
    Pool.Freed { pool with queues := queues } key ↔ pool.Freed key := by
  unfold Pool.Freed
  rw [← List.getElem?_map, ← List.getElem?_map, hfreed]

theorem Pool.Alive.queues (h : pool.Alive) {queues : List QueueFields}
    (hfreed : queues.map QueueFields.freed = pool.queues.map QueueFields.freed) :
    Pool.Alive { pool with queues := queues } where
  single := h.single
  listed := h.listed
  ended key hkey := h.ended key ((freed_iff hfreed key).mp hkey)
  timer key hkey := h.timer key ((freed_iff hfreed key).mp hkey)
  unheld key hkey := h.unheld key ((freed_iff hfreed key).mp hkey)

/-- A shorter list. -/
theorem Pool.Alive.sublist (h : pool.Alive) {listed : List QueueRef}
    (hlisted : listed.Sublist pool.listed) : Pool.Alive { pool with listed := listed } where
  single := (hlisted.map QueueRef.key).nodup h.single
  listed queue hqueue := h.listed queue (hlisted.subset hqueue)
  ended := h.ended
  timer := h.timer
  unheld := h.unheld

/-- A thread moves. It stays at work while its queue is listed, and does not take up a queue that
has been freed. -/
theorem Pool.Alive.turn (h : pool.Alive) (hthread : pool.threads[key]? = some thread)
    (hrunning : thread.pc.isEnded = false) {pc : RunPc}
    (hlisted : ∀ queue ∈ pool.listed, queue.key = key → pc.isListable = true)
    (hheld : ∀ removal ∈ pc.removal, ¬ pool.Freed removal.queue.key) :
    (pool.turn key thread pc).Alive where
  single := h.single
  listed queue hqueue := by
    obtain ⟨other, hother, hlistable⟩ := h.listed queue hqueue
    by_cases hkey : queue.key = key
    · have hlength := (List.getElem?_eq_some_iff.mp hthread).1
      refine ⟨{ thread with pc := pc }, ?_, hlisted queue hqueue hkey⟩
      rw [hkey]
      exact List.getElem?_set_self hlength
    · refine ⟨other, ?_, hlistable⟩
      exact (List.getElem?_set_ne (Ne.symm hkey)).trans hother
  ended other hfreed := by
    have hother : key ≠ other := by
      rintro rfl
      exact h.not_freed hthread hrunning hfreed
    obtain ⟨thread', hthread', hended⟩ := h.ended other hfreed
    exact ⟨thread', (List.getElem?_set_ne hother).trans hthread', hended⟩
  timer := h.timer
  unheld other hfreed := by
    rintro (⟨thread', hthread', removal, hremoval, rfl⟩ | hcancel)
    · obtain hmem | rfl := List.mem_or_eq_of_mem_set hthread'
      · exact h.unheld _ hfreed (.inl ⟨thread', hmem, removal, hremoval, rfl⟩)
      · exact hheld removal hremoval hfreed
    · exact h.unheld other hfreed (.inr hcancel)

theorem Pool.Alive.spawn (h : pool.Alive) (own : ℕ) (onDone : Bool) :
    (pool.spawn own onDone).Alive := by
  have hold {key : ℕ} (hfreed : (pool.spawn own onDone).Freed key) : pool.Freed key := by
    unfold Pool.Freed Pool.spawn at hfreed
    rw [List.getElem?_append] at hfreed
    split at hfreed
    case isTrue => exact hfreed
    case isFalse =>
      rw [List.getElem?_singleton] at hfreed
      split at hfreed <;> cases hfreed
  exact {
    single := h.single
    listed := fun queue hqueue ↦ by
      obtain ⟨thread, hthread, hlistable⟩ := h.listed queue hqueue
      exact ⟨thread, getElem?_spawn own onDone hthread, hlistable⟩
    ended := fun key hfreed ↦ by
      obtain ⟨thread, hthread, hended⟩ := h.ended key (hold hfreed)
      exact ⟨thread, getElem?_spawn own onDone hthread, hended⟩
    timer := fun key hfreed ↦ by
      have htimer := h.timer key (hold hfreed)
      obtain ⟨hkey, -⟩ := List.getElem?_eq_some_iff.mp htimer
      exact (List.getElem?_append_left hkey).trans htimer
    unheld := fun key hfreed ↦ by
      rintro (⟨thread, hthread, removal, hremoval, hkey⟩ | hcancel)
      · obtain hmem | hnew := List.mem_append.mp hthread
        · exact h.unheld key (hold hfreed) (.inl ⟨thread, hmem, removal, hremoval, hkey⟩)
        · rw [List.mem_singleton] at hnew
          subst hnew
          cases hremoval
      · exact h.unheld key (hold hfreed) (.inr hcancel) }

theorem PcMove.isEnded_eq {pc pc' : RunPc} (hmove : PcMove pc pc') : pc.isEnded = false := by
  cases hmove <;> rfl

/-- A thread comes to its end only by its last cut, or before its queue is listed. -/
theorem PcMove.isListable_of {pc pc' : RunPc} (hmove : PcMove pc pc')
    (hlistable : pc.isListable = true) : pc'.isListable = true := by
  cases hmove with
  | start => cases hlistable
  | opened => cases hlistable
  | failed => cases hlistable
  | unlocking => cases hlistable
  | received res => cases res <;> rfl
  | _ => rfl

/-- The thread of a listed queue is at work. -/
theorem Pool.Alive.isListable (h : pool.Alive) (hthread : pool.threads[key]? = some thread)
    {queue : QueueRef} (hqueue : queue ∈ pool.listed) (hkey : queue.key = key) :
    thread.pc.isListable = true := by
  obtain ⟨other, hother, hlistable⟩ := h.listed queue hqueue
  rw [hkey, hthread, Option.some.injEq] at hother
  exact hother ▸ hlistable

/-- The thread puts its queue into the list. -/
theorem Pool.Alive.add (h : pool.Alive) (hthread : pool.threads[key]? = some thread)
    (hpc : thread.pc = .adding) :
    ((pool.add (thread.ref key)).turn key thread (.preparing false)).Alive := by
  have hunlisted : ∀ queue ∈ pool.listed, queue.key ≠ key := by
    intro queue hqueue hkey
    have hlistable := h.isListable hthread hqueue hkey
    rw [hpc] at hlistable
    cases hlistable
  have hturn : (pool.turn key thread (.preparing false)).Alive :=
    h.turn hthread (hpc ▸ rfl) (fun _ _ _ ↦ rfl) nofun
  have hlength := (List.getElem?_eq_some_iff.mp hthread).1
  exact {
    single := List.nodup_cons.mpr ⟨fun hmem ↦ by
      obtain ⟨queue, hqueue, hkey⟩ := List.mem_map.mp hmem
      exact hunlisted queue hqueue hkey, hturn.single⟩
    listed := List.forall_mem_cons.mpr
      ⟨⟨_, List.getElem?_set_self hlength, rfl⟩, hturn.listed⟩
    ended := hturn.ended
    timer := hturn.timer
    unheld := hturn.unheld }

/-- The last cut of a thread takes its own queue out of the list. -/
theorem Pool.Alive.key_ne_of_cut (h : pool.Alive) {fields : QueueFields}
    (hfields : pool.queues[key]? = some fields) (hown : pool.FindsOwn key) :
    ∀ queue ∈ pool.listed.eraseP (pool.cmpMsgid fields.msgid), queue.key ≠ key := by
  intro queue hqueue hkey
  have hmem := List.mem_of_mem_eraseP hqueue
  have hcmp : pool.cmpMsgid fields.msgid queue = true := by
    rw [Pool.cmpMsgid, hkey, hfields, Option.any_some]
    exact decide_eq_true rfl
  obtain ⟨found, hfound⟩ := Option.isSome_iff_exists.mp
    (List.find?_isSome.mpr ⟨queue, hmem, hcmp⟩)
  have hfoundKey := hown ⟨queue, hmem, hkey⟩ fields hfields found hfound
  have hnodup := ((perm_cons_eraseP hfound).map QueueRef.key).nodup h.single
  rw [List.map_cons, List.nodup_cons] at hnodup
  exact hnodup.1 (List.mem_map.mpr ⟨queue, hqueue, hkey.trans hfoundKey.symm⟩)

/-- A thread that goes on with a queue that it has cut out. -/
theorem Pool.Alive.turn_catching (h : pool.Alive) (hthread : pool.threads[key]? = some thread)
    (hrunning : thread.pc.isEnded = false) {removal : Removal}
    (hremoval : ¬ pool.Freed removal.queue.key) (tl : Option TlObj) (pc : CatchPc) :
    (pool.turn key thread (.catching removal tl pc)).Alive := by
  apply h.turn hthread hrunning fun _ _ _ ↦ rfl
  rintro other ⟨⟩
  exact hremoval

/-- The queue that is cut out is not freed, so another thread may work on it. -/
theorem Pool.Alive.cancelCut (h : pool.Alive) {msgId : UInt64} {queue : QueueRef}
    (hqueue : pool.listed.find? (pool.cmpMsgid msgId) = some queue) : Pool.Alive
      { pool with
        listed := pool.listed.eraseP (pool.cmpMsgid msgId)
        cancels := pool.cancels ++ [⟨queue, .locking⟩] } := by
  have hcut := h.sublist (List.eraseP_sublist (p := pool.cmpMsgid msgId) (l := pool.listed))
  refine ⟨hcut.single, hcut.listed, hcut.ended, hcut.timer, fun key hfreed ↦ ?_⟩
  rintro (hthread | ⟨cancel, hcancel, hpc, hkey⟩)
  · exact h.unheld key hfreed (.inl hthread)
  · obtain hmem | hnew := List.mem_append.mp hcancel
    · exact h.unheld key hfreed (.inr ⟨cancel, hmem, hpc, hkey⟩)
    · rw [List.mem_singleton] at hnew
      subst hnew
      exact h.listsNoFreed queue (List.mem_of_find?_eq_some hqueue) (hkey ▸ hfreed)

theorem Pool.Alive.advance (h : pool.Alive) {index : ℕ} {cancel : Cancel} (pc : CancelPc)
    (hcancel : pool.cancels[index]? = some cancel) (hpc : cancel.pc ≠ .ended) :
    (pool.advance index cancel pc).Alive := by
  refine ⟨h.single, h.listed, h.ended, h.timer, fun key hfreed ↦ ?_⟩
  rintro (hthread | ⟨other, hother, hother', hkey⟩)
  · exact h.unheld key hfreed (.inl hthread)
  · obtain hmem | rfl := List.mem_or_eq_of_mem_set hother
    · exact h.unheld key hfreed (.inr ⟨other, hmem, hother', hkey⟩)
    · exact h.unheld key hfreed (.inr ⟨cancel, List.mem_of_getElem? hcancel, hpc, hkey⟩)

/-- A timer moves that is not at its end. -/
theorem Pool.Alive.tick (h : pool.Alive) {pc : TimerPc} (pc' : TimerPc)
    (htimer : pool.timers[key]? = some pc) (hpc : pc ≠ .ended) : (pool.tick key pc').Alive := by
  refine ⟨h.single, h.listed, h.ended, fun other hfreed ↦ ?_, h.unheld⟩
  have hother := h.timer other hfreed
  have hkey : key ≠ other := by
    rintro rfl
    rw [htimer, Option.some.injEq] at hother
    exact hpc hother
  exact (List.getElem?_set_ne hkey).trans hother

/-- `tg_queue_free` for a queue that nobody uses any more. -/
theorem Pool.Alive.free (h : pool.Alive) (htimer : pool.timers[key]? = some .freeing)
    (hended : pool.Ended key) (hunheld : ¬ pool.Held key) :
    ((pool.update key fun fields ↦ { fields with freed := true }).tick key .ended).Alive := by
  have hcases {other : ℕ}
      (hfreed : (pool.update key fun fields ↦ { fields with freed := true }).Freed other) :
      other = key ∨ key ≠ other ∧ pool.Freed other := by
    by_cases hother : key = other
    · exact .inl hother.symm
    · unfold Pool.Freed Pool.update at hfreed
      rw [List.getElem?_modify_ne _ _ hother] at hfreed
      exact .inr ⟨hother, hfreed⟩
  have hlength := (List.getElem?_eq_some_iff.mp htimer).1
  refine ⟨h.single, h.listed, fun other hfreed ↦ ?_, fun other hfreed ↦ ?_, fun other hfreed ↦ ?_⟩
  · obtain rfl | ⟨-, hother⟩ := hcases hfreed
    · exact hended
    · exact h.ended other hother
  · obtain rfl | ⟨hne, hother⟩ := hcases hfreed
    · exact List.getElem?_set_self hlength
    · exact (List.getElem?_set_ne hne).trans (h.timer other hother)
  · obtain rfl | ⟨-, hother⟩ := hcases hfreed
    · exact hunheld
    · exact h.unheld other hother

theorem alive_move {label : PoolLabel} (hmove : PoolMove pool label next)
    (horderly : Orderly pool label) (h : pool.Alive) : next.Alive := by
  cases hmove with
  | request onDone =>
    have hspawn := h.spawn pool.requests onDone
    exact ⟨hspawn.single, hspawn.listed, hspawn.ended, hspawn.timer, hspawn.unheld⟩
  | wait => exact h
  | @turn key thread pc queues move hthread hpc hfreed =>
    have hturn : (pool.turn key thread pc).Alive := by
      apply h.turn hthread hpc.isEnded_eq
      · exact fun queue hqueue hkey ↦ hpc.isListable_of (h.isListable hthread hqueue hkey)
      · exact fun removal hremoval ↦ h.not_freed_removal hthread (hpc.removal_eq removal hremoval)
    exact hturn.queues hfreed
  | add hthread hpc => exact h.add hthread hpc
  | missed msgId tl hthread hpc => exact ⟨h.single, h.listed, h.ended, h.timer, h.unheld⟩
  | @caught key thread msgId queue tl hthread hpc hqueue =>
    have hcut := h.sublist (List.eraseP_sublist (p := pool.cmpMsgid msgId) (l := pool.listed))
    let removal : Removal := ⟨pool.calls, msgId, queue, msgId⟩
    have hremoval : ¬ pool.Freed removal.queue.key :=
      h.listsNoFreed queue (List.mem_of_find?_eq_some hqueue)
    have hturn := hcut.turn_catching hthread (hpc ▸ rfl) hremoval tl .test
    exact ⟨hturn.single, hturn.listed, hturn.ended, hturn.timer, hturn.unheld⟩
  | @done key thread removal tl event events hthread hpc hevent =>
    have hremoval : ¬ pool.Freed removal.queue.key := h.not_freed_removal hthread (hpc ▸ rfl)
    have hturn := h.turn_catching hthread (hpc ▸ rfl) hremoval tl (.locked events)
    exact ⟨hturn.single, hturn.listed, hturn.ended, hturn.timer, hturn.unheld⟩
  | @replaced key thread removal tl event events hthread hpc hevent =>
    have hspawn := h.spawn removal.queue.request removal.queue.onDone
    have hthread' := getElem?_spawn removal.queue.request removal.queue.onDone hthread
    have hremoval : ¬ (pool.spawn _ _).Freed removal.queue.key :=
      hspawn.not_freed_removal hthread' (hpc ▸ rfl)
    exact hspawn.turn_catching hthread' (hpc ▸ rfl) hremoval tl (.locked events)
  | rpcError error events hthread hpc =>
    exact h.turn hthread (hpc ▸ rfl) (fun _ _ _ ↦ rfl) nofun
  | requeued hthread hpc hevent =>
    exact (h.spawn _ _).turn (getElem?_spawn _ _ hthread) (hpc ▸ rfl) (fun _ _ _ ↦ rfl) nofun
  | @cut key thread fields hthread hfields hpc =>
    have hown : pool.FindsOwn key := horderly thread hthread (hpc ▸ rfl)
    have hcut := h.sublist (List.eraseP_sublist (p := pool.cmpMsgid fields.msgid) (l := pool.listed))
    apply hcut.turn hthread (hpc ▸ rfl)
    · exact fun queue hqueue hkey ↦ absurd hkey (h.key_ne_of_cut hfields hown queue hqueue)
    · nofun
  | timer pc' htimer hpc hfreed => exact (h.queues hfreed).tick pc' htimer hpc
  | free htimer =>
    obtain ⟨hended, hunheld⟩ := horderly htimer
    exact h.free htimer hended hunheld
  | cancelCut hqueue => exact h.cancelCut hqueue
  | cancel pc hcancel hpc hfreed => exact (h.queues hfreed).advance pc hcancel hpc
  | cancelAll hfreed => exact (h.queues hfreed).sublist (List.nil_sublist _)

end Alive

/-! ## Every run -/

theorem alive_start : Pool.start.Alive where
  single := List.nodup_nil
  listed := List.forall_mem_nil _
  ended := nofun
  timer := nofun
  unheld := nofun

section Run

variable {model : DataModel} {table : List Method} {gunzip : Bytes → Gunzipped}

theorem poolStep_alive {pool next : Pool} {label : PoolLabel}
    (hstep : poolStep model table gunzip pool label = some next) (horderly : Orderly pool label)
    (h : pool.Alive) : next.Alive :=
  alive_move (poolStep_move hstep) horderly h

/-- In every orderly run no step uses a queue that has been freed, and none is ever listed. -/
theorem run_usesNoFreed {labels : List PoolLabel}
    (horderly : Along (poolStep model table gunzip) Orderly Pool.start labels) :
    Along (poolStep model table gunzip) UsesNoFreed Pool.start labels ∧
      Always (poolStep model table gunzip) Pool.ListsNoFreed Pool.start labels :=
  ⟨along_of_invariant (fun h ↦ h.usesNoFreed _) poolStep_alive horderly alive_start,
    always_of_invariant Pool.Alive.listsNoFreed poolStep_alive horderly alive_start⟩

end Run

/-- The thread of a queue leaves its loop and comes to its end, and the timer frees the queue. -/
def winds (key : ℕ) : List PoolLabel :=
  .timer key :: [.received .reread, .go, .go, .go, .go].map (.run key) ++ [.timer key, .timer key]

/-- A queue receives its answer and is freed afterwards. -/
def answered : List PoolLabel :=
  .request true :: listens 0 4 ++
    [.catched 4 (some (.mk 0x997275b5 [] [])), .go, .go, .go, .go, .go].map (.run 0) ++ winds 0

/-- The run is orderly. -/
theorem answered_usesNoFreed :
    (∃ pool, run (poolStep .lp64 [] fun _ ↦ ⟨false, [], 0⟩) Pool.start answered = some pool ∧
      pool.Freed 0) ∧
    Along (poolStep .lp64 [] fun _ ↦ ⟨false, [], 0⟩) UsesNoFreed Pool.start answered ∧
      Always (poolStep .lp64 [] fun _ ↦ ⟨false, [], 0⟩) Pool.ListsNoFreed Pool.start answered := by
  have hfreed : (run (poolStep .lp64 [] fun _ ↦ ⟨false, [], 0⟩) Pool.start answered).any
      (fun pool ↦ pool.Freed 0) = true := by
    decide +kernel
  obtain ⟨pool, hrun, hpool⟩ := (Option.any_eq_true ..).mp hfreed
  exact ⟨⟨pool, hrun, of_decide_eq_true hpool⟩, run_usesNoFreed (by decide +kernel)⟩

/-- The thread of one queue receives the answer for another one, and sleeps in
`flood_wait_for_seconds` until the other one has been freed. -/
def overslept : List PoolLabel :=
  .request true :: listens 0 4 ++ .request true :: listens 1 8 ++
    [.catched 4 (some (rpcErrorObj "FLOOD_WAIT_100")), .go, .go].map (.run 1) ++ winds 0 ++
    [.run 1 .go]

/-- When it wakes up, it makes a new queue from the fields of the one that has been freed. -/
theorem overslept_usesFreed :
    (run (poolStep .lp64 [] fun _ ↦ ⟨false, [], 0⟩) Pool.start overslept).isSome = true ∧
      ¬ Along (poolStep .lp64 [] fun _ ↦ ⟨false, [], 0⟩) UsesNoFreed Pool.start overslept := by
  decide +kernel

end LibTg.Tg
