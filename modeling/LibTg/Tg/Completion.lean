import LibTg.Tg.Queues

/-!
# One completion per request

A request of the user may pass through several queues: `migrate_to_dc` and `flood_wait_for_seconds`
put a new one in the place of the old one. At any time at most one of them can still lead to a call
of `on_done`, because it waits to be listed, is listed, or has been cut out by a call of
`catched_tl` that has not yet settled what becomes of the request. The weight of a request counts
these queues together with the calls of `on_done`; no step makes it greater.
-/

namespace LibTg.Tg

open LibTg.Tl

/-- Every request is completed at most once, by a call of `catched_tl` that has itself removed the
queue under the `msg_id` that it was called with, and from then on no queue of the request is
listed. -/
structure Pool.CompletesOnce (pool : Pool) : Prop where
  once : (pool.completions.map fun completion ↦ completion.queue.request).Nodup
  removed : ∀ completion ∈ pool.completions, ∃ removal ∈ pool.removals,
    removal.call = completion.call ∧ removal.queue = completion.queue ∧
      removal.msgid = removal.msgId
  single : (pool.removals.map Removal.call).Nodup
  unlisted : ∀ completion ∈ pool.completions, ∀ queue ∈ pool.listed,
    queue.request ≠ completion.queue.request

/-- No `rpc_error` arrives except as the result of an `rpc_result`. -/
def NoBareError : PoolLabel → Prop
  | .run _ (.rpcError _) => False
  | _ => True

instance (label : PoolLabel) : Decidable (NoBareError label) := by
  unfold NoBareError
  split <;> infer_instance

/-! ## The weight of a request -/

/-- What a call of `catched_tl` adds to the weight of the request of its queue. -/
def CatchPc.weight : CatchPc → ℕ
  | .test => 1
  | .lock => 1
  | .locked events => events.countP Event.settles

/-- What a thread of `tg_run_queue` for a queue of the request `own` adds to the weight of a
request. -/
def RunPc.weight (own request : ℕ) : RunPc → ℕ
  | .start => if own = request then 1 else 0
  | .opening => if own = request then 1 else 0
  | .adding => if own = request then 1 else 0
  | .catching removal _ pc => if removal.queue.request = request then pc.weight else 0
  | .requeuing events => if own = request then events.countP Event.settles else 0
  | _ => 0

theorem weight_catching (own request : ℕ) (removal : Removal) (tl : Option TlObj) (pc : CatchPc) :
    (RunPc.catching removal tl pc).weight own request =
      if removal.queue.request = request then pc.weight else 0 := rfl

theorem weight_requeuing (own request : ℕ) (events : List Event) :
    (RunPc.requeuing events).weight own request =
      if own = request then events.countP Event.settles else 0 := rfl

theorem weight_locked (events : List Event) :
    (CatchPc.locked events).weight = events.countP Event.settles := rfl

/-- What a thread adds to the weight of a request. -/
def RunThread.weight (request : ℕ) (thread : RunThread) : ℕ :=
  thread.pc.weight thread.request request

/-- The queues that may still complete a request, and its completions. -/
def Pool.weight (request : ℕ) (pool : Pool) : ℕ :=
  (pool.threads.map (RunThread.weight request)).sum +
    pool.listed.countP (fun queue ↦ queue.request = request) +
    pool.completions.countP fun completion ↦ completion.queue.request = request

section Weight

variable {pool next : Pool} {key : ℕ} {thread : RunThread} {request : ℕ}

/-- A thread that moves gives up the share of its old place for that of the new one. -/
theorem weight_turn (hthread : pool.threads[key]? = some thread) (pc : RunPc) (request : ℕ) :
    (pool.turn key thread pc).weight request + thread.pc.weight thread.request request =
      pool.weight request + pc.weight thread.request request := by
  obtain ⟨rest, hbefore, hafter⟩ := sum_map_set (RunThread.weight request) hthread
  unfold Pool.weight Pool.turn
  rw [hbefore, hafter, RunThread.weight, RunThread.weight]
  ring

/-- A thread that has settled a request goes on to its next event. -/
theorem weight_settled (removal : Removal) {event : Event} (hevent : event.settles = true)
    (own request : ℕ) (tl : Option TlObj) (events : List Event) :
    (RunPc.catching removal tl (.locked (event :: events))).weight own request =
      (RunPc.catching removal tl (.locked events)).weight own request +
        if removal.queue.request = request then 1 else 0 := by
  rw [weight_catching, weight_catching, weight_locked, weight_locked, List.countP_cons, hevent,
    if_pos rfl]
  split <;> rfl

/-- A new queue counts for the request that it is made for. -/
theorem weight_spawn (own request : ℕ) (onDone : Bool) :
    (pool.spawn own onDone).weight request =
      pool.weight request + if own = request then 1 else 0 := by
  unfold Pool.weight Pool.spawn
  rw [List.map_append, List.sum_append, List.map_singleton, List.sum_singleton, RunThread.weight,
    RunPc.weight]
  ring

theorem weight_add (queue : QueueRef) (request : ℕ) :
    (pool.add queue).weight request =
      pool.weight request + if queue.request = request then 1 else 0 := by
  unfold Pool.weight Pool.add listAdd
  rw [List.countP_cons]
  simp only [decide_eq_true_eq]
  ring

/-- The weight without the queue that is cut out. -/
theorem weight_listed {cmp : QueueRef → Bool} {queue : QueueRef} (request : ℕ)
    (hqueue : pool.listed.find? cmp = some queue) :
    pool.weight request = Pool.weight request { pool with listed := pool.listed.eraseP cmp } +
      if queue.request = request then 1 else 0 := by
  unfold Pool.weight
  rw [(perm_cons_eraseP hqueue).countP_eq, List.countP_cons]
  simp only [decide_eq_true_eq]
  ring

/-- A cut makes no weight greater. -/
theorem weight_eraseP_le (cmp : QueueRef → Bool) (request : ℕ) :
    Pool.weight request { pool with listed := pool.listed.eraseP cmp } ≤ pool.weight request := by
  have hlisted := (List.eraseP_sublist (p := cmp) (l := pool.listed)).countP_le
    (p := fun queue ↦ queue.request = request)
  unfold Pool.weight
  dsimp only
  omega

theorem weight_complete (completion : Completion) (request : ℕ) :
    Pool.weight request { pool with completions := pool.completions ++ [completion] } =
      pool.weight request + if completion.queue.request = request then 1 else 0 := by
  unfold Pool.weight
  rw [List.countP_append, List.countP_singleton]
  simp only [decide_eq_true_eq]
  ring

/-- The moves of one thread alone make no weight greater. -/
theorem PcMove.weight_le {pc pc' : RunPc} (hmove : PcMove pc pc') (own request : ℕ) :
    pc'.weight own request ≤ pc.weight own request := by
  cases hmove with
  | start => exact le_refl _
  | opened => exact le_refl _
  | failed => exact Nat.zero_le _
  | preparing again => exact le_refl _
  | drawing again => exact le_refl _
  | sent again => exact le_refl _
  | unsent again => exact le_refl _
  | stay => exact le_refl _
  | leave => exact le_refl _
  | received res => cases res <;> exact le_refl _
  | tested removal tl => exact le_refl _
  | dropped removal tl => exact Nat.zero_le _
  | locked removal tl hevents =>
    rw [weight_catching, weight_catching, weight_locked]
    split
    case isTrue => exact hevents
    case isFalse => exact le_refl _
  | performed removal tl events hevent =>
    rw [weight_catching, weight_catching, weight_locked, weight_locked, List.countP_cons, hevent]
    exact le_refl _
  | unlocked removal tl => exact Nat.zero_le _
  | requeued event events =>
    have hcount := (List.sublist_cons_self event events).countP_le (p := Event.settles)
    rw [weight_requeuing, weight_requeuing]
    split
    case isTrue => exact hcount
    case isFalse => exact le_refl _
  | handled => exact Nat.zero_le _
  | closing => exact le_refl _
  | unlocking => exact le_refl _

/-- A step makes no weight greater, except for the new request. -/
theorem weight_move {label : PoolLabel} (hmove : PoolMove pool label next)
    (hbare : NoBareError label) (request : ℕ) :
    next.requests = pool.requests ∧ next.weight request ≤ pool.weight request ∨
      next.requests = pool.requests + 1 ∧
        next.weight request = pool.weight request + if pool.requests = request then 1 else 0 := by
  cases hmove with
  | request onDone => exact .inr ⟨rfl, weight_spawn pool.requests request onDone⟩
  | wait => exact .inl ⟨rfl, le_refl _⟩
  | @turn key thread pc queues move hthread hpc hfreed =>
    have hturn := weight_turn hthread pc request
    have hle := hpc.weight_le thread.request request
    have hnext : ({ pool with queues := queues : Pool }.turn key thread pc).weight request =
        (pool.turn key thread pc).weight request := rfl
    refine .inl ⟨rfl, ?_⟩
    omega
  | @add key thread hthread hpc =>
    have hthread' : (pool.add (thread.ref key)).threads[key]? = some thread := hthread
    have hturn := weight_turn hthread' (.preparing false) request
    have hadd : (pool.add (thread.ref key)).weight request = _ := weight_add _ request
    rw [hpc] at hturn
    refine .inl ⟨rfl, le_of_eq (Nat.add_right_cancel (hturn.trans hadd))⟩
  | missed msgId tl hthread hpc => exact .inl ⟨rfl, le_refl _⟩
  | @caught key thread msgId queue tl hthread hpc hqueue =>
    let erased : Pool :=
      { pool with
        listed := pool.listed.eraseP (pool.cmpMsgid msgId)
        calls := pool.calls + 1
        removals := pool.removals ++ [⟨pool.calls, msgId, queue, msgId⟩] }
    have hthread' : erased.threads[key]? = some thread := hthread
    have hturn := weight_turn hthread' (.catching ⟨pool.calls, msgId, queue, msgId⟩ tl .test) request
    have hlisted : pool.weight request = erased.weight request + _ := weight_listed request hqueue
    rw [hpc] at hturn
    exact .inl ⟨rfl, le_of_eq (hturn.trans hlisted.symm)⟩
  | @done key thread removal tl event events hthread hpc hevent =>
    let completed : Pool :=
      { pool with completions := pool.completions ++ [⟨removal.call, removal.queue⟩] }
    have hthread' : completed.threads[key]? = some thread := hthread
    have hturn := weight_turn hthread' (.catching removal tl (.locked events)) request
    have hcomplete : completed.weight request =
        pool.weight request + if removal.queue.request = request then 1 else 0 :=
      weight_complete _ request
    have hsettled := weight_settled removal hevent thread.request request tl events
    rw [hpc, hsettled, hcomplete] at hturn
    refine .inl ⟨rfl, ?_⟩
    change (completed.turn key thread (.catching removal tl (.locked events))).weight request ≤ _
    omega
  | @replaced key thread removal tl event events hthread hpc hevent =>
    have hthread' := getElem?_spawn removal.queue.request removal.queue.onDone hthread
    have hturn := weight_turn hthread' (.catching removal tl (.locked events)) request
    have hsettled := weight_settled removal hevent thread.request request tl events
    rw [hpc, hsettled, weight_spawn] at hturn
    exact .inl ⟨rfl, by omega⟩
  | rpcError error events hthread hpc => exact absurd hbare id
  | @requeued key thread event events hthread hpc hevent =>
    have hthread' := getElem?_spawn thread.request thread.onDone hthread
    have hturn := weight_turn hthread' (.requeuing events) request
    have hsettled : (RunPc.requeuing (event :: events)).weight thread.request request =
        (RunPc.requeuing events).weight thread.request request +
          if thread.request = request then 1 else 0 := by
      rw [weight_requeuing, weight_requeuing, List.countP_cons, hevent, if_pos rfl]
      split <;> rfl
    rw [hpc, hsettled, weight_spawn] at hturn
    exact .inl ⟨rfl, by omega⟩
  | @cut key thread fields hthread hfields hpc =>
    let erased : Pool := { pool with listed := pool.listed.eraseP (pool.cmpMsgid fields.msgid) }
    have hthread' : erased.threads[key]? = some thread := hthread
    have hturn := weight_turn hthread' .unlocking request
    have hle : erased.weight request ≤ pool.weight request := weight_eraseP_le _ request
    rw [hpc] at hturn
    exact .inl ⟨rfl, hturn.le.trans hle⟩
  | timer pc htimer hpc hfreed => exact .inl ⟨rfl, le_refl _⟩
  | free htimer => exact .inl ⟨rfl, le_refl _⟩
  | cancelCut hqueue => exact .inl ⟨rfl, weight_eraseP_le _ request⟩
  | cancel pc hcancel hpc hfreed => exact .inl ⟨rfl, le_refl _⟩
  | cancelAll hfreed =>
    refine .inl ⟨rfl, ?_⟩
    unfold Pool.weight
    dsimp only [List.countP_nil]
    omega

/-- Every request of the user weighs at most one, and a number that is not yet used nothing. -/
def Pool.Unique (pool : Pool) : Prop :=
  ∀ request, pool.weight request ≤ if request < pool.requests then 1 else 0

theorem Pool.Unique.le_one (h : pool.Unique) (request : ℕ) : pool.weight request ≤ 1 := by
  apply (h request).trans
  split <;> decide

theorem unique_move {label : PoolLabel} (hmove : PoolMove pool label next)
    (hbare : NoBareError label) (h : pool.Unique) : next.Unique := by
  intro request
  have hrequest := h request
  obtain ⟨hrequests, hle⟩ | ⟨hrequests, heq⟩ := weight_move hmove hbare request
  · rw [hrequests]
    exact hle.trans hrequest
  · rw [hrequests, heq]
    split at hrequest <;> split <;> split <;> omega

end Weight

/-! ## The queues that are completed -/

/-- The calls of `catched_tl` have different numbers, they have found the `msg_id` that they were
called with, and those that are under way or have called `on_done` are among them. -/
structure Pool.Traced (pool : Pool) : Prop where
  named : ∀ removal ∈ pool.removals, removal.msgid = removal.msgId
  numbered : ∀ removal ∈ pool.removals, removal.call < pool.calls
  single : (pool.removals.map Removal.call).Nodup
  running : ∀ thread ∈ pool.threads, ∀ removal ∈ thread.pc.removal, removal ∈ pool.removals
  completed : ∀ completion ∈ pool.completions, ∃ removal ∈ pool.removals,
    removal.call = completion.call ∧ removal.queue = completion.queue

section Traced

variable {pool next : Pool} {key : ℕ} {thread : RunThread}

/-- A thread that moves stays in a call that is known. -/
theorem Pool.Traced.turn (h : pool.Traced) {pc : RunPc}
    (hpc : ∀ removal ∈ pc.removal, removal ∈ pool.removals) : (pool.turn key thread pc).Traced where
  named := h.named
  numbered := h.numbered
  single := h.single
  running other hother := by
    obtain hmem | rfl := List.mem_or_eq_of_mem_set hother
    · exact h.running other hmem
    · exact hpc
  completed := h.completed

theorem Pool.Traced.spawn (h : pool.Traced) (own : ℕ) (onDone : Bool) :
    (pool.spawn own onDone).Traced where
  named := h.named
  numbered := h.numbered
  single := h.single
  running other hother := by
    obtain hmem | hnew := List.mem_append.mp hother
    · exact h.running other hmem
    · rw [List.mem_singleton] at hnew
      subst hnew
      nofun
  completed := h.completed

/-- A thread that goes on is in a call that is known. -/
theorem Pool.Traced.mem_removals (h : pool.Traced) {removal : Removal}
    (hthread : pool.threads[key]? = some thread) (hpc : removal ∈ thread.pc.removal) :
    removal ∈ pool.removals :=
  h.running thread (List.mem_of_getElem? hthread) removal hpc

/-- Another call that finds the `msg_id` it was called with. -/
theorem Pool.Traced.call (h : pool.Traced) (listed : List QueueRef) (queue : QueueRef)
    (msgId : UInt64) : Pool.Traced
      { pool with
        listed := listed
        calls := pool.calls + 1
        removals := pool.removals ++ [⟨pool.calls, msgId, queue, msgId⟩] } where
  named := List.forall_mem_append.mpr ⟨h.named, List.forall_mem_singleton.mpr rfl⟩
  numbered := List.forall_mem_append.mpr
    ⟨fun removal hremoval ↦ (h.numbered removal hremoval).trans (Nat.lt_succ_self _),
      List.forall_mem_singleton.mpr (Nat.lt_succ_self _)⟩
  single := by
    rw [List.map_append, List.map_singleton, List.nodup_append]
    refine ⟨h.single, List.nodup_cons.mpr ⟨List.not_mem_nil, List.nodup_nil⟩, ?_⟩
    intro call hcall other hother
    obtain ⟨removal, hremoval, rfl⟩ := List.mem_map.mp hcall
    rw [List.mem_singleton] at hother
    exact hother ▸ (h.numbered removal hremoval).ne
  running other hother removal hremoval :=
    List.mem_append_left _ (h.running other hother removal hremoval)
  completed completion hcompletion := by
    obtain ⟨removal, hremoval, hequal⟩ := h.completed completion hcompletion
    exact ⟨removal, List.mem_append_left _ hremoval, hequal⟩

theorem traced_move {label : PoolLabel} (hmove : PoolMove pool label next) (h : pool.Traced) :
    next.Traced := by
  cases hmove with
  | request onDone =>
    have hspawn := h.spawn pool.requests onDone
    exact ⟨hspawn.named, hspawn.numbered, hspawn.single, hspawn.running, hspawn.completed⟩
  | wait => exact h
  | @turn key thread pc queues move hthread hpc hfreed =>
    have hturn : (pool.turn key thread pc).Traced :=
      h.turn fun removal hremoval ↦ h.mem_removals hthread (hpc.removal_eq removal hremoval)
    exact ⟨hturn.named, hturn.numbered, hturn.single, hturn.running, hturn.completed⟩
  | @add key thread hthread hpc =>
    have hadd : (pool.add (thread.ref key)).Traced :=
      ⟨h.named, h.numbered, h.single, h.running, h.completed⟩
    apply hadd.turn
    nofun
  | missed msgId tl hthread hpc =>
    exact ⟨h.named, fun removal hremoval ↦ (h.numbered removal hremoval).trans (Nat.lt_succ_self _),
      h.single, h.running, h.completed⟩
  | @caught key thread msgId queue tl hthread hpc hqueue =>
    have hcall := h.call (pool.listed.eraseP (pool.cmpMsgid msgId)) queue msgId
    apply hcall.turn
    rintro removal ⟨⟩
    exact List.mem_append_right _ (List.mem_singleton_self _)
  | @done key thread removal tl event events hthread hpc hevent =>
    have hremoval : removal ∈ pool.removals := h.mem_removals hthread (by rw [hpc]; rfl)
    have hcompleted : Pool.Traced
        { pool with completions := pool.completions ++ [⟨removal.call, removal.queue⟩] } :=
      ⟨h.named, h.numbered, h.single, h.running, List.forall_mem_append.mpr
        ⟨h.completed, List.forall_mem_singleton.mpr ⟨removal, hremoval, rfl, rfl⟩⟩⟩
    apply hcompleted.turn
    rintro other ⟨⟩
    exact hremoval
  | @replaced key thread removal tl event events hthread hpc hevent =>
    have hremoval : removal ∈ pool.removals := h.mem_removals hthread (by rw [hpc]; rfl)
    apply (h.spawn _ _).turn
    rintro other ⟨⟩
    exact hremoval
  | rpcError error events hthread hpc =>
    apply h.turn
    nofun
  | requeued hthread hpc hevent =>
    apply (h.spawn _ _).turn
    nofun
  | @cut key thread fields hthread hfields hpc =>
    have hcut : Pool.Traced
        { pool with listed := pool.listed.eraseP (pool.cmpMsgid fields.msgid) } :=
      ⟨h.named, h.numbered, h.single, h.running, h.completed⟩
    apply hcut.turn
    nofun
  | timer pc htimer hpc hfreed => exact ⟨h.named, h.numbered, h.single, h.running, h.completed⟩
  | free htimer => exact ⟨h.named, h.numbered, h.single, h.running, h.completed⟩
  | cancelCut hqueue => exact ⟨h.named, h.numbered, h.single, h.running, h.completed⟩
  | cancel pc hcancel hpc hfreed => exact ⟨h.named, h.numbered, h.single, h.running, h.completed⟩
  | cancelAll hfreed => exact ⟨h.named, h.numbered, h.single, h.running, h.completed⟩

end Traced

/-! ## Every run -/

/-- What the steps without a bare `rpc_error` keep. -/
structure Pool.Completing (pool : Pool) : Prop where
  unique : pool.Unique
  traced : pool.Traced

theorem Pool.Completing.completesOnce {pool : Pool} (h : pool.Completing) :
    pool.CompletesOnce where
  once := by
    apply List.nodup_iff_count.mpr
    intro request
    have hweight := h.unique.le_one request
    have hcount : List.count request
        (pool.completions.map fun completion ↦ completion.queue.request) =
          pool.completions.countP fun completion ↦ completion.queue.request = request := by
      rw [List.count, List.countP_map]
      rfl
    unfold Pool.weight at hweight
    omega
  removed completion hcompletion := by
    obtain ⟨removal, hremoval, hcall, hqueue⟩ := h.traced.completed completion hcompletion
    exact ⟨removal, hremoval, hcall, hqueue, h.traced.named removal hremoval⟩
  single := h.traced.single
  unlisted completion hcompletion queue hqueue hrequest := by
    have hweight := h.unique.le_one completion.queue.request
    have hlisted : 0 < pool.listed.countP
        (fun other ↦ other.request = completion.queue.request) :=
      List.countP_pos_iff.mpr ⟨queue, hqueue, decide_eq_true hrequest⟩
    have hcompleted : 0 < pool.completions.countP
        (fun other ↦ other.queue.request = completion.queue.request) :=
      List.countP_pos_iff.mpr ⟨completion, hcompletion, decide_eq_true rfl⟩
    unfold Pool.weight at hweight
    omega

theorem completing_start : Pool.start.Completing where
  unique _ := Nat.zero_le _
  traced := ⟨List.forall_mem_nil _, List.forall_mem_nil _, List.nodup_nil, List.forall_mem_nil _,
    List.forall_mem_nil _⟩

section Run

variable {model : DataModel} {table : List Method} {gunzip : Bytes → Gunzipped}

theorem poolStep_completing {pool next : Pool} {label : PoolLabel}
    (hstep : poolStep model table gunzip pool label = some next) (hbare : NoBareError label)
    (h : pool.Completing) : next.Completing where
  unique := unique_move (poolStep_move hstep) hbare h.unique
  traced := traced_move (poolStep_move hstep) h.traced

/-- In every run in which an `rpc_error` arrives only as the result of an `rpc_result`, each request
is completed at most once. -/
theorem run_completesOnce {labels : List PoolLabel} {pool : Pool}
    (hrun : run (poolStep model table gunzip) Pool.start labels = some pool)
    (hbare : Along (poolStep model table gunzip) (fun _ label ↦ NoBareError label) Pool.start
      labels) : pool.CompletesOnce :=
  (run_invariant_along poolStep_completing hrun hbare completing_start).completesOnce

end Run

/-- A request is moved to another data center. The first queue receives the answer for the second
one as well. -/
def migrated : List PoolLabel :=
  .request true :: listens 0 4 ++
    [.catched 4 (some (rpcErrorObj "USER_MIGRATE_2")), .go, .go, .go, .go, .go].map (.run 0) ++
    listens 1 8 ++
    [.catched 8 (some (.mk 0x997275b5 [] [])), .go, .go, .go, .go, .go].map (.run 0)

/-- The second queue is completed, in the second call of `catched_tl`. -/
theorem migrated_completesOnce :
    ∃ pool, run (poolStep .lp64 [] fun _ ↦ ⟨false, [], 0⟩) Pool.start migrated = some pool ∧
      pool.completions = [⟨1, ⟨1, 0, true⟩⟩] ∧ pool.CompletesOnce := by
  have hcompletions : (run (poolStep .lp64 [] fun _ ↦ ⟨false, [], 0⟩) Pool.start migrated).map
      Pool.completions = some [⟨1, ⟨1, 0, true⟩⟩] := by
    decide +kernel
  obtain ⟨pool, hrun, hpool⟩ := Option.map_eq_some_iff.mp hcompletions
  exact ⟨pool, hrun, hpool, run_completesOnce hrun (by decide +kernel)⟩

end LibTg.Tg
