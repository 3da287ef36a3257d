import LibTg.Data.Run
import LibTg.Tg.Dispatch

/-!
# The threads that share `tg->queue` (`tg/queue.c`)

Every `tg_queue_t` has a thread of `tg_run_queue`, which puts it into `tg->queue`, and a thread of
`tg_run_timer`, which frees it in the end. Any of the first kind may receive the answer for another
one's queue: `catched_tl` cuts that queue out of the list and then works on it under `queue->lock`.
So do the callers of `tg_queue_cancell_queue` and `tg_queue_cancell_all`.

A section under `queue_lock` is one step; all other threads may run between any two actions inside
a section under `queue->lock`, during the `sleep` of `flood_wait_for_seconds` in particular. What
arrives on the sockets is up to the schedule, and so is in which round of its loop a queue that is
not `multithread` goes on to `_tg_receive`. Freed queues keep their place and their fields.
-/

namespace LibTg.Tg

open LibTg.Tl

/-- A `tg_queue_t *` with what only `tg_queue_new` sets: which queue it is, whether it has an
`on_done`, and as history the number of the user's request that it was made for. -/
structure QueueRef where
  key : ℕ
  request : ℕ
  onDone : Bool
  deriving DecidableEq

/-- The fields of a `tg_queue_t` that change: `loop`, `msgid`, whether `lock` and `inloop_lock` are
taken, and whether `tg_queue_free` has been called. -/
structure QueueFields where
  loop : Bool
  msgid : UInt64
  locked : Bool
  inloop : Bool
  freed : Bool
  deriving DecidableEq

/-- A call of `catched_tl` that has cut a queue out: its number among all calls, the `msg_id` that
it was called with, the queue, and the `msgid` of the queue at that time. -/
structure Removal where
  call : ℕ
  msgId : UInt64
  queue : QueueRef
  msgid : UInt64
  deriving DecidableEq

/-- A call of `on_done`: the call of `catched_tl` that made it, and the queue. -/
structure Completion where
  call : ℕ
  queue : QueueRef
  deriving DecidableEq

/-- Where `catched_tl` stands after `tg_queue_cut`: before the test of `queue->loop`, before
`queue->lock`, or behind it with what is left to do before the unlock. -/
inductive CatchPc
  | test
  | lock
  | locked (events : List Event)

/-- Where a thread of `tg_run_queue` stands. `preparing`, `drawing` and `sending` are in `tg_send`:
before the reset of `msgid`, before the id is drawn, and before `send`; `again` tells the call after
`RTL_RESEND` from the first one. `requeuing` is in `handle_tl`, with an `rpc_error` that is not the
result of an `rpc_result`. -/
inductive RunPc
  | start
  | opening
  | adding
  | preparing (again : Bool)
  | drawing (again : Bool)
  | sending (again : Bool)
  | testing
  | receiving
  | catching (removal : Removal) (tl : Option TlObj) (pc : CatchPc)
  | requeuing (events : List Event)
  | closing
  | cutting
  | unlocking
  | ended

/-- A thread of `tg_run_queue`, with what `tg_queue_new` has set in its queue. -/
structure RunThread where
  request : ℕ
  onDone : Bool
  pc : RunPc

/-- Where a thread of `tg_run_timer` stands: in its `sleep`, before `inloop_lock`, before
`tg_queue_free`, or at its end. -/
inductive TimerPc
  | sleeping
  | locking
  | freeing
  | ended
  deriving DecidableEq

/-- Where a call of `tg_queue_cancell_queue` stands after `tg_queue_cut`: before `queue->lock`,
before `loop = false`, before the unlock, or at its end. -/
inductive CancelPc
  | locking
  | stopping
  | unlocking
  | ended
  deriving DecidableEq

/-- A call of `tg_queue_cancell_queue` that has cut a queue out. -/
structure Cancel where
  queue : QueueRef
  pc : CancelPc
  deriving DecidableEq

/-- The queues, `tg->queue` and the threads. `calls` and what follows is history: the number of
calls of `catched_tl`, those that have cut a queue out, and the calls of `on_done`. -/
structure Pool where
  queues : List QueueFields
  threads : List RunThread
  timers : List TimerPc
  cancels : List Cancel
  listed : List QueueRef
  requests : ℕ
  calls : ℕ
  removals : List Removal
  completions : List Completion

/-- Before the first request. -/
def Pool.start : Pool where
  queues := []
  threads := []
  timers := []
  cancels := []
  listed := []
  requests := 0
  calls := 0
  removals := []
  completions := []

/-- What the environment decides in a step of `tg_run_queue`: nothing, whether the socket could be
opened, the id that is drawn, whether `tg_send` has succeeded, a call of `catched_tl`, an
`rpc_error` that is not the result of an `rpc_result`, and the result of `_tg_receive`. -/
inductive RunMove
  | go
  | opened (ok : Bool)
  | drawn (id : UInt64)
  | sent (ok : Bool)
  | catched (msgId : UInt64) (tl : Option TlObj)
  | rpcError (error : List Char)
  | received (res : Rtl)

/-- The steps: a request of the user, a step of a thread of `tg_run_queue` or `tg_run_timer`, the
beginning and a later step of `tg_queue_cancell_queue`, and `tg_queue_cancell_all`. -/
inductive PoolLabel
  | request (onDone : Bool)
  | run (key : ℕ) (move : RunMove)
  | timer (key : ℕ)
  | cancelQueue (msgId : UInt64)
  | cancel (index : ℕ)
  | cancelAll

/-! ## The state -/

def RunThread.ref (thread : RunThread) (key : ℕ) : QueueRef := ⟨key, thread.request, thread.onDone⟩

def Pool.turn (pool : Pool) (key : ℕ) (thread : RunThread) (pc : RunPc) : Pool :=
  { pool with threads := pool.threads.set key { thread with pc := pc } }

/-- The fields of a queue change. -/
def Pool.update (pool : Pool) (key : ℕ) (change : QueueFields → QueueFields) : Pool :=
  { pool with queues := pool.queues.modify key change }

/-- `queue->loop = false`. -/
def QueueFields.stop (fields : QueueFields) : QueueFields := { fields with loop := false }

/-- `pthread_mutex_lock` on `queue->lock`, once it is free. -/
def QueueFields.lock (fields : QueueFields) : QueueFields := { fields with locked := true }

/-- `pthread_mutex_unlock` on `queue->lock`. -/
def QueueFields.unlock (fields : QueueFields) : QueueFields := { fields with locked := false }

def Pool.cmpMsgid (pool : Pool) (id : UInt64) (queue : QueueRef) : Bool :=
  (pool.queues[queue.key]?).any fun fields ↦ fields.msgid = id

/-- `tg_queue_add`. -/
def Pool.add (pool : Pool) (queue : QueueRef) : Pool :=
  { pool with listed := listAdd pool.listed queue }

/-- `tg_queue_cut`. -/
def Pool.cut (pool : Pool) (id : UInt64) : Option QueueRef × Pool :=
  let (queue, listed) := listCut (pool.cmpMsgid id) pool.listed
  (queue, { pool with listed := listed })

/-- `tg_queue_new`. -/
def Pool.spawn (pool : Pool) (request : ℕ) (onDone : Bool) : Pool :=
  { pool with
    queues := pool.queues ++ [⟨true, 0, false, false, false⟩]
    threads := pool.threads ++ [⟨request, onDone, .start⟩]
    timers := pool.timers ++ [.sleeping] }

/-- What an event of `migrate_to_dc`, `flood_wait_for_seconds` and `loop = false` does for a
queue. -/
def Pool.perform (pool : Pool) (queue : QueueRef) : Event → Pool
  | .migrate _ _ _ => pool.spawn queue.request queue.onDone
  | .floodWait _ _ => pool.spawn queue.request queue.onDone
  | .stop _ => pool.update queue.key QueueFields.stop
  | _ => pool

/-- The same in `catched_tl`, which may call `on_done`. -/
def Pool.performCaught (pool : Pool) (removal : Removal) : Event → Pool
  | .onDone _ _ =>
    { pool with completions := pool.completions ++ [⟨removal.call, removal.queue⟩] }
  | event => pool.perform removal.queue event

/-! ## The steps -/

section Step

variable (model : DataModel) (table : List Method) (gunzip : Bytes → Gunzipped)

/-- What `catched_tl` does for a queue in its loop. -/
def catchEvents (queue : Queue) : Option TlObj → Option (List Event)
  | none => some (queue.done none)
  | some tl => caught model table gunzip queue tl

/-- A step of `catched_tl` after `tg_queue_cut`, in the thread of the queue `key`. -/
def catchStep (pool : Pool) (key : ℕ) (thread : RunThread) (removal : Removal)
    (tl : Option TlObj) : CatchPc → Option Pool
  | .test => do
    let fields ← pool.queues[removal.queue.key]?
    some (pool.turn key thread (if fields.loop then .catching removal tl .lock else .receiving))
  | .lock => do
    let fields ← pool.queues[removal.queue.key]?
    if fields.locked then some pool
    else do
      let queue : Queue := ⟨removal.queue.key, fields.msgid, fields.loop, removal.queue.onDone⟩
      let events ← catchEvents model table gunzip queue tl
      some ((pool.update removal.queue.key QueueFields.lock).turn key thread
        (.catching removal tl (.locked events)))
  | .locked (event :: events) =>
    some ((pool.performCaught removal event).turn key thread (.catching removal tl (.locked events)))
  | .locked [] =>
    some ((pool.update removal.queue.key QueueFields.unlock).turn key thread .receiving)

/-- The beginning of `catched_tl`. -/
def catchCut (pool : Pool) (key : ℕ) (thread : RunThread) (msgId : UInt64) (tl : Option TlObj) :
    Pool :=
  match (pool.cut msgId).1 with
  | none => { (pool.cut msgId).2 with calls := pool.calls + 1 }
  | some queue =>
    let msgid := ((pool.queues[queue.key]?).map QueueFields.msgid).getD 0
    let removal : Removal := ⟨pool.calls, msgId, queue, msgid⟩
    { (pool.cut msgId).2 with
      calls := pool.calls + 1
      removals := pool.removals ++ [removal] }.turn key thread (.catching removal tl .test)

/-- Where `tg_run_queue` goes with the result of `_tg_receive`. -/
def afterReceived : Rtl → RunPc
  | .resend => .preparing true
  | .exit => .closing
  | .error => .closing
  | .reread => .testing

/-- A step of a thread of `tg_run_queue` with the fields of its queue. -/
def runStep (pool : Pool) (key : ℕ) (thread : RunThread) (fields : QueueFields) :
    RunPc → RunMove → Option Pool
  | .start, .go =>
    if fields.inloop then some pool
    else some ((pool.update key fun fields ↦ { fields with inloop := true }).turn key thread .opening)
  | .opening, .opened ok => some (pool.turn key thread (if ok then .adding else .unlocking))
  | .adding, .go => some ((pool.add (thread.ref key)).turn key thread (.preparing false))
  | .preparing again, .go =>
    some ((pool.update key fun fields ↦ { fields with msgid := 0 }).turn key thread (.drawing again))
  | .drawing again, .drawn id =>
    some ((pool.update key fun fields ↦ { fields with msgid := id }).turn key thread (.sending again))
  | .sending again, .sent ok =>
    if ok then some (pool.turn key thread .testing)
    else if again then some (pool.turn key thread .closing)
    else some ((pool.update key QueueFields.stop).turn key thread .testing)
  | .testing, .go => some (pool.turn key thread (if fields.loop then .receiving else .closing))
  | .receiving, .catched msgId tl => some (catchCut pool key thread msgId tl)
  | .receiving, .rpcError error => do
    let events ← requeue key error
    some (pool.turn key thread (.requeuing events))
  | .receiving, .received res => some (pool.turn key thread (afterReceived res))
  | .catching removal tl pc, .go => catchStep model table gunzip pool key thread removal tl pc
  | .requeuing (event :: events), .go =>
    some ((pool.perform (thread.ref key) event).turn key thread (.requeuing events))
  | .requeuing [], .go => some (pool.turn key thread .receiving)
  | .closing, .go => some (pool.turn key thread .cutting)
  | .cutting, .go => some ((pool.cut fields.msgid).2.turn key thread .unlocking)
  | .unlocking, .go =>
    some ((pool.update key fun fields ↦ { fields with inloop := false }).turn key thread .ended)
  | _, _ => none

/-- A timer moves. -/
def Pool.tick (pool : Pool) (key : ℕ) (pc : TimerPc) : Pool :=
  { pool with timers := pool.timers.set key pc }

/-- A step of a thread of `tg_run_timer` with the fields of its queue. -/
def timerStep (pool : Pool) (key : ℕ) (fields : QueueFields) : TimerPc → Option Pool
  | .sleeping => some ((pool.update key QueueFields.stop).tick key .locking)
  | .locking =>
    if fields.inloop then some pool
    else some ((pool.update key fun fields ↦ { fields with inloop := true }).tick key .freeing)
  | .freeing => some ((pool.update key fun fields ↦ { fields with freed := true }).tick key .ended)
  | .ended => none

/-- A cancellation moves. -/
def Pool.advance (pool : Pool) (index : ℕ) (cancel : Cancel) (pc : CancelPc) : Pool :=
  { pool with cancels := pool.cancels.set index { cancel with pc := pc } }

/-- A step of `tg_queue_cancell_queue` with the fields of the queue. -/
def cancelStep (pool : Pool) (index : ℕ) (cancel : Cancel) (fields : QueueFields) :
    CancelPc → Option Pool
  | .locking =>
    if fields.locked then some pool
    else some ((pool.update cancel.queue.key QueueFields.lock).advance index cancel .stopping)
  | .stopping =>
    some ((pool.update cancel.queue.key QueueFields.stop).advance index cancel .unlocking)
  | .unlocking =>
    some ((pool.update cancel.queue.key QueueFields.unlock).advance index cancel .ended)
  | .ended => none

/-- The beginning of `tg_queue_cancell_queue`. -/
def cancelCut (pool : Pool) (msgId : UInt64) : Pool :=
  match (pool.cut msgId).1 with
  | none => (pool.cut msgId).2
  | some queue => { (pool.cut msgId).2 with cancels := pool.cancels ++ [⟨queue, .locking⟩] }

/-- `loop = false` for a queue whose `lock` is free. -/
def QueueFields.tryStop (fields : QueueFields) : QueueFields :=
  if fields.locked then fields else fields.stop

/-- `tg_queue_cancell_all`. -/
def Pool.cancelAll (pool : Pool) : Pool :=
  { pool.listed.foldl (fun pool queue ↦ pool.update queue.key QueueFields.tryStop) pool with
    listed := [] }

def poolStep (pool : Pool) : PoolLabel → Option Pool
  | .request onDone =>
    some { pool.spawn pool.requests onDone with requests := pool.requests + 1 }
  | .run key move => do
    let thread ← pool.threads[key]?
    let fields ← pool.queues[key]?
    runStep model table gunzip pool key thread fields thread.pc move
  | .timer key => do
    let pc ← pool.timers[key]?
    let fields ← pool.queues[key]?
    timerStep pool key fields pc
  | .cancelQueue msgId => some (cancelCut pool msgId)
  | .cancel index => do
    let cancel ← pool.cancels[index]?
    let fields ← pool.queues[cancel.queue.key]?
    cancelStep pool index cancel fields cancel.pc
  | .cancelAll => some pool.cancelAll

end Step

/-- A queue without any answer until it waits for one under the id `msgid`. -/
def listens (key : ℕ) (msgid : UInt64) : List PoolLabel :=
  [.go, .opened true, .go, .go, .drawn msgid, .sent true, .go].map (.run key)

def rpcErrorObj (text : String) : TlObj :=
  .mk rpcError.id []
    [.int 303, .buf (text.toList.map fun char ↦ UInt8.ofNat char.toNat)]

/-! ## What a step can do -/

/-- A call of `on_done`, or a queue that takes the place of another one. -/
def Event.settles : Event → Bool
  | .onDone _ _ => true
  | .migrate _ _ _ => true
  | .floodWait _ _ => true
  | _ => false

/-- The call of `catched_tl` that a thread is in. -/
def RunPc.removal : RunPc → Option Removal
  | .catching removal _ _ => some removal
  | _ => none

/-- The moves of a thread of `tg_run_queue` that leave `tg->queue`, the queues that are there and
the calls of `on_done` as they are. -/
inductive PcMove : RunPc → RunPc → Prop
  | start : PcMove .start .opening
  | opened : PcMove .opening .adding
  | failed : PcMove .opening .unlocking
  | preparing (again : Bool) : PcMove (.preparing again) (.drawing again)
  | drawing (again : Bool) : PcMove (.drawing again) (.sending again)
  | sent (again : Bool) : PcMove (.sending again) .testing
  | unsent (again : Bool) : PcMove (.sending again) .closing
  | stay : PcMove .testing .receiving
  | leave : PcMove .testing .closing
  | received (res : Rtl) : PcMove .receiving (afterReceived res)
  | tested (removal : Removal) (tl : Option TlObj) :
      PcMove (.catching removal tl .test) (.catching removal tl .lock)
  | dropped (removal : Removal) (tl : Option TlObj) :
      PcMove (.catching removal tl .test) .receiving
  | locked (removal : Removal) (tl : Option TlObj) {events : List Event}
      (hevents : events.countP Event.settles ≤ 1) :
      PcMove (.catching removal tl .lock) (.catching removal tl (.locked events))
  | performed (removal : Removal) (tl : Option TlObj) (events : List Event) {event : Event}
      (hevent : event.settles = false) : PcMove (.catching removal tl (.locked (event :: events)))
      (.catching removal tl (.locked events))
  | unlocked (removal : Removal) (tl : Option TlObj) :
      PcMove (.catching removal tl (.locked [])) .receiving
  | requeued (event : Event) (events : List Event) :
      PcMove (.requeuing (event :: events)) (.requeuing events)
  | handled : PcMove (.requeuing []) .receiving
  | closing : PcMove .closing .cutting
  | unlocking : PcMove .unlocking .ended

/-- The moves of the threads, with the queues up to what is freed. -/
inductive PoolMove (pool : Pool) : PoolLabel → Pool → Prop
  | request (onDone : Bool) : PoolMove pool (.request onDone)
      { pool.spawn pool.requests onDone with requests := pool.requests + 1 }
  | wait (label : PoolLabel) : PoolMove pool label pool
  | turn {key thread pc queues} (move : RunMove) (hthread : pool.threads[key]? = some thread)
      (hpc : PcMove thread.pc pc)
      (hfreed : queues.map QueueFields.freed = pool.queues.map QueueFields.freed) :
      PoolMove pool (.run key move) ({ pool with queues := queues : Pool }.turn key thread pc)
  | add {key thread} (hthread : pool.threads[key]? = some thread) (hpc : thread.pc = .adding) :
      PoolMove pool (.run key .go)
        ((pool.add (thread.ref key)).turn key thread (.preparing false))
  | missed {key thread} (msgId : UInt64) (tl : Option TlObj)
      (hthread : pool.threads[key]? = some thread) (hpc : thread.pc = .receiving) :
      PoolMove pool (.run key (.catched msgId tl)) { pool with calls := pool.calls + 1 }
  | caught {key thread msgId queue} (tl : Option TlObj)
      (hthread : pool.threads[key]? = some thread) (hpc : thread.pc = .receiving)
      (hqueue : pool.listed.find? (pool.cmpMsgid msgId) = some queue) :
      PoolMove pool (.run key (.catched msgId tl))
        ({ pool with
          listed := pool.listed.eraseP (pool.cmpMsgid msgId)
          calls := pool.calls + 1
          removals := pool.removals ++ [⟨pool.calls, msgId, queue, msgId⟩] : Pool }.turn key thread
            (.catching ⟨pool.calls, msgId, queue, msgId⟩ tl .test))
  | done {key thread removal tl event events} (hthread : pool.threads[key]? = some thread)
      (hpc : thread.pc = .catching removal tl (.locked (event :: events)))
      (hevent : event.settles = true) : PoolMove pool (.run key .go)
        ({ pool with
          completions := pool.completions ++ [⟨removal.call, removal.queue⟩] : Pool }.turn key thread
            (.catching removal tl (.locked events)))
  | replaced {key thread removal tl event events} (hthread : pool.threads[key]? = some thread)
      (hpc : thread.pc = .catching removal tl (.locked (event :: events)))
      (hevent : event.settles = true) : PoolMove pool (.run key .go)
        ((pool.spawn removal.queue.request removal.queue.onDone).turn key thread
          (.catching removal tl (.locked events)))
  | rpcError {key thread} (error : List Char) (events : List Event)
      (hthread : pool.threads[key]? = some thread) (hpc : thread.pc = .receiving) :
      PoolMove pool (.run key (.rpcError error)) (pool.turn key thread (.requeuing events))
  | requeued {key thread event events} (hthread : pool.threads[key]? = some thread)
      (hpc : thread.pc = .requeuing (event :: events)) (hevent : event.settles = true) :
      PoolMove pool (.run key .go)
        ((pool.spawn thread.request thread.onDone).turn key thread (.requeuing events))
  | cut {key thread fields} (hthread : pool.threads[key]? = some thread)
      (hfields : pool.queues[key]? = some fields) (hpc : thread.pc = .cutting) :
      PoolMove pool (.run key .go)
        ({ pool with listed := pool.listed.eraseP (pool.cmpMsgid fields.msgid) : Pool }.turn key thread
          .unlocking)
  | timer {key pc queues} (pc' : TimerPc) (htimer : pool.timers[key]? = some pc)
      (hpc : pc ≠ .ended)
      (hfreed : queues.map QueueFields.freed = pool.queues.map QueueFields.freed) :
      PoolMove pool (.timer key) ({ pool with queues := queues : Pool }.tick key pc')
  | free {key} (htimer : pool.timers[key]? = some .freeing) : PoolMove pool (.timer key)
      ((pool.update key fun fields ↦ { fields with freed := true }).tick key .ended)
  | cancelCut {msgId queue} (hqueue : pool.listed.find? (pool.cmpMsgid msgId) = some queue) :
      PoolMove pool (.cancelQueue msgId)
        { pool with
          listed := pool.listed.eraseP (pool.cmpMsgid msgId)
          cancels := pool.cancels ++ [⟨queue, .locking⟩] }
  | cancel {index cancel queues} (pc : CancelPc) (hcancel : pool.cancels[index]? = some cancel)
      (hpc : cancel.pc ≠ .ended)
      (hfreed : queues.map QueueFields.freed = pool.queues.map QueueFields.freed) :
      PoolMove pool (.cancel index) ({ pool with queues := queues : Pool }.advance index cancel pc)
  | cancelAll {queues}
      (hfreed : queues.map QueueFields.freed = pool.queues.map QueueFields.freed) :
      PoolMove pool .cancelAll { pool with queues := queues, listed := [] }

/-- The item that a cut returns is the one that it takes out of the list. -/
theorem perm_cons_eraseP {Item : Type*} {cmp : Item → Bool} {items : List Item} {item : Item}
    (hitem : items.find? cmp = some item) : items.Perm (item :: items.eraseP cmp) := by
  obtain ⟨hcmp, first, second, hitems, hfirst⟩ := List.find?_eq_some_iff_append.mp hitem
  have hneg : ∀ other ∈ first, ¬ cmp other = true := by simpa using hfirst
  have herase : items.eraseP cmp = first ++ second := by
    rw [hitems, List.eraseP_append_right _ hneg, List.eraseP_cons_of_pos hcmp]
  rw [herase, hitems]
  exact List.perm_middle

/-- A thread comes into a call of `catched_tl` only by a cut. -/
theorem PcMove.removal_eq {pc pc' : RunPc} (hmove : PcMove pc pc') :
    ∀ removal ∈ pc'.removal, removal ∈ pc.removal := by
  cases hmove with
  | received res => cases res <;> nofun
  | tested removal tl => exact fun _ ↦ id
  | locked removal tl hevents => exact fun _ ↦ id
  | performed removal tl events hevent => exact fun _ ↦ id
  | _ => nofun

/-- A new queue leaves the other threads. -/
theorem getElem?_spawn {pool : Pool} {key : ℕ} {thread : RunThread} (own : ℕ) (onDone : Bool)
    (hthread : pool.threads[key]? = some thread) :
    (pool.spawn own onDone).threads[key]? = some thread := by
  obtain ⟨hkey, -⟩ := List.getElem?_eq_some_iff.mp hthread
  exact (List.getElem?_append_left hkey).trans hthread

/-- A change of a queue that leaves `freed` alone. -/
theorem map_freed_modify (queues : List QueueFields) (key : ℕ)
    {change : QueueFields → QueueFields} (hchange : ∀ fields, (change fields).freed = fields.freed) :
    (queues.modify key change).map QueueFields.freed = queues.map QueueFields.freed := by
  apply List.ext_getElem?
  intro index
  rw [List.getElem?_map, List.getElem?_map, List.getElem?_modify, Option.map_eq_map,
    Option.map_map]
  apply congrArg (Option.map · queues[index]?)
  funext fields
  rw [Function.comp_apply, apply_ite QueueFields.freed, hchange, ite_self]

theorem map_freed_foldl (listed : List QueueRef) (pool : Pool) :
    ((listed.foldl (fun pool queue ↦ pool.update queue.key QueueFields.tryStop) pool).queues).map
      QueueFields.freed = pool.queues.map QueueFields.freed := by
  have htryStop (fields : QueueFields) : fields.tryStop.freed = fields.freed := by
    rw [QueueFields.tryStop, apply_ite QueueFields.freed]
    exact ite_self _
  induction listed generalizing pool with
  | nil => rfl
  | cons queue listed ih =>
    rw [List.foldl_cons, ih]
    exact map_freed_modify pool.queues queue.key htryStop

/-- `tg_queue_cancell_all` changes the queues and the list only. -/
theorem cancelAll_frame (listed : List QueueRef) (pool : Pool) :
    ∃ queues, listed.foldl (fun pool queue ↦ pool.update queue.key QueueFields.tryStop) pool =
      { pool with queues := queues } := by
  induction listed generalizing pool with
  | nil => exact ⟨pool.queues, rfl⟩
  | cons queue listed ih =>
    obtain ⟨queues, hqueues⟩ := ih (pool.update queue.key QueueFields.tryStop)
    exact ⟨queues, hqueues⟩

theorem countP_settles_done (queue : Queue) (tl : Option TlObj) :
    (queue.done tl).countP Event.settles ≤ 1 := by
  unfold Queue.done
  split
  case isTrue => exact (List.countP_le_length).trans (le_refl 1)
  case isFalse => exact Nat.zero_le 1

theorem countP_settles_done_stop (queue : Queue) (tl : Option TlObj) :
    (queue.done tl ++ [Event.stop queue.key]).countP Event.settles ≤ 1 := by
  rw [List.countP_append]
  exact countP_settles_done queue tl

theorem countP_settles_requeue {key : ℕ} {error : List Char} {events : List Event}
    (hevents : requeue key error = some events) : events.countP Event.settles ≤ 1 := by
  unfold requeue at hevents
  dsimp only at hevents
  split at hevents
  case isTrue =>
    split at hevents
    case isTrue =>
      rw [Option.some.injEq] at hevents
      exact hevents ▸ le_refl 1
    case isFalse => cases hevents
  case isFalse =>
    split at hevents
    case isTrue =>
      rw [Option.some.injEq] at hevents
      exact hevents ▸ le_refl 1
    case isFalse =>
      rw [Option.some.injEq] at hevents
      exact hevents ▸ Nat.zero_le 1

section Moves

variable {model : DataModel} {table : List Method} {gunzip : Bytes → Gunzipped}

/-- `catched_tl` settles the request of its queue at most once. -/
theorem countP_settles_caught {queue : Queue} {tl : TlObj} {events : List Event}
    (hevents : caught model table gunzip queue tl = some events) :
    events.countP Event.settles ≤ 1 := by
  unfold caught at hevents
  split at hevents
  case isTrue =>
    rw [Option.map_eq_some_iff] at hevents
    obtain ⟨inner, -, hinner⟩ := hevents
    exact hinner ▸ countP_settles_done_stop queue inner
  case isFalse =>
    split at hevents
    case isTrue =>
      rw [Option.some.injEq] at hevents
      exact hevents ▸ countP_settles_done_stop queue none
    case isFalse =>
      split at hevents
      case isTrue =>
        simp only [Option.bind_eq_bind, Option.bind_eq_some_iff] at hevents
        obtain ⟨error, -, requeued, hrequeued, hnext⟩ := hevents
        split at hnext
        case isTrue =>
          rw [Option.some.injEq] at hnext
          exact hnext ▸ countP_settles_requeue hrequeued
        case isFalse =>
          rw [Option.some.injEq] at hnext
          exact hnext ▸ countP_settles_done_stop queue (some tl)
      case isFalse =>
        rw [Option.some.injEq] at hevents
        exact hevents ▸ countP_settles_done_stop queue (some tl)

theorem countP_settles_catchEvents {queue : Queue} {tl : Option TlObj} {events : List Event}
    (hevents : catchEvents model table gunzip queue tl = some events) :
    events.countP Event.settles ≤ 1 := by
  cases tl with
  | none =>
    rw [catchEvents, Option.some.injEq] at hevents
    exact hevents ▸ countP_settles_done queue none
  | some tl => exact countP_settles_caught hevents

variable {pool next : Pool} {key : ℕ} {thread : RunThread} {fields : QueueFields}

theorem catchStep_move {removal : Removal} {tl : Option TlObj} {pc : CatchPc}
    (hthread : pool.threads[key]? = some thread) (hpc : thread.pc = .catching removal tl pc)
    (hstep : catchStep model table gunzip pool key thread removal tl pc = some next) :
    PoolMove pool (.run key .go) next := by
  unfold catchStep at hstep
  split at hstep
  case h_1 =>
    rw [Option.bind_eq_bind, Option.bind_eq_some_iff] at hstep
    obtain ⟨fields, -, hnext⟩ := hstep
    rw [Option.some.injEq] at hnext
    subst hnext
    split
    case isTrue => exact .turn .go hthread (hpc ▸ .tested removal tl) rfl
    case isFalse => exact .turn .go hthread (hpc ▸ .dropped removal tl) rfl
  case h_2 =>
    rw [Option.bind_eq_bind, Option.bind_eq_some_iff] at hstep
    obtain ⟨fields, -, hnext⟩ := hstep
    split at hnext
    case isTrue =>
      rw [Option.some.injEq] at hnext
      exact hnext ▸ .wait _
    case isFalse =>
      rw [Option.bind_eq_bind, Option.bind_eq_some_iff] at hnext
      obtain ⟨events, hevents, hnext⟩ := hnext
      rw [Option.some.injEq] at hnext
      exact hnext ▸ .turn .go hthread
        (hpc ▸ .locked removal tl (countP_settles_catchEvents hevents))
        (map_freed_modify _ _ fun _ ↦ rfl)
  case h_3 event events =>
    rw [Option.some.injEq] at hstep
    subst hstep
    cases event with
    | onDone queue inner => exact .done hthread hpc rfl
    | migrate queue dc main => exact .replaced hthread hpc rfl
    | floodWait queue seconds => exact .replaced hthread hpc rfl
    | stop queue =>
      exact .turn .go hthread (hpc ▸ .performed removal tl events rfl)
        (map_freed_modify _ _ fun _ ↦ rfl)
    | addMsgid id => exact .turn .go hthread (hpc ▸ .performed removal tl events rfl) rfl
    | catchedTl msgId tl' => exact .turn .go hthread (hpc ▸ .performed removal tl events rfl) rfl
    | timediff value => exact .turn .go hthread (hpc ▸ .performed removal tl events rfl) rfl
    | doUpdates tl' => exact .turn .go hthread (hpc ▸ .performed removal tl events rfl) rfl
  case h_4 =>
    rw [Option.some.injEq] at hstep
    exact hstep ▸ .turn .go hthread (hpc ▸ .unlocked removal tl)
      (map_freed_modify _ _ fun _ ↦ rfl)

/-- The queue that is cut out has the `msgid` that was looked for. -/
theorem msgid_of_find {msgId : UInt64} {queue : QueueRef}
    (hqueue : pool.listed.find? (pool.cmpMsgid msgId) = some queue) :
    ((pool.queues[queue.key]?).map QueueFields.msgid).getD 0 = msgId := by
  have hcmp := List.find?_some hqueue
  rw [Pool.cmpMsgid, Option.any_eq_true] at hcmp
  obtain ⟨fields, hfields, hmsgid⟩ := hcmp
  rw [hfields, Option.map_some, Option.getD_some]
  exact of_decide_eq_true hmsgid

/-- A cut that finds nothing leaves the list. -/
theorem eraseP_of_find_none {msgId : UInt64}
    (hqueue : pool.listed.find? (pool.cmpMsgid msgId) = none) :
    pool.listed.eraseP (pool.cmpMsgid msgId) = pool.listed :=
  List.eraseP_of_forall_not (List.find?_eq_none.mp hqueue)

theorem catchCut_move {msgId : UInt64} {tl : Option TlObj}
    (hthread : pool.threads[key]? = some thread) (hpc : thread.pc = .receiving) :
    PoolMove pool (.run key (.catched msgId tl)) (catchCut pool key thread msgId tl) := by
  unfold catchCut
  split
  case h_1 hqueue =>
    have hmissed := PoolMove.missed msgId tl hthread hpc
    unfold Pool.cut listCut
    rwa [eraseP_of_find_none hqueue]
  case h_2 queue hqueue =>
    have hcaught := PoolMove.caught tl hthread hpc hqueue
    unfold Pool.cut listCut
    rwa [msgid_of_find hqueue]

theorem cancelCut_move {msgId : UInt64} :
    PoolMove pool (.cancelQueue msgId) (cancelCut pool msgId) := by
  unfold cancelCut
  split
  case h_1 hqueue =>
    have hwait : PoolMove pool (.cancelQueue msgId) pool := .wait _
    unfold Pool.cut listCut
    rwa [eraseP_of_find_none hqueue]
  case h_2 queue hqueue => exact .cancelCut hqueue

theorem runStep_move {move : RunMove} {pc : RunPc} (hthread : pool.threads[key]? = some thread)
    (hfields : pool.queues[key]? = some fields) (hpc : thread.pc = pc)
    (hstep : runStep model table gunzip pool key thread fields pc move = some next) :
    PoolMove pool (.run key move) next := by
  unfold runStep at hstep
  split at hstep
  case h_1 =>
    split at hstep
    case isTrue =>
      rw [Option.some.injEq] at hstep
      exact hstep ▸ .wait _
    case isFalse =>
      rw [Option.some.injEq] at hstep
      exact hstep ▸ .turn .go hthread (hpc ▸ .start) (map_freed_modify _ _ fun _ ↦ rfl)
  case h_2 ok =>
    rw [Option.some.injEq] at hstep
    subst hstep
    cases ok with
    | true => exact .turn _ hthread (hpc ▸ .opened) rfl
    | false => exact .turn _ hthread (hpc ▸ .failed) rfl
  case h_3 =>
    rw [Option.some.injEq] at hstep
    exact hstep ▸ .add hthread hpc
  case h_4 again =>
    rw [Option.some.injEq] at hstep
    exact hstep ▸ .turn .go hthread (hpc ▸ .preparing again) (map_freed_modify _ _ fun _ ↦ rfl)
  case h_5 again id =>
    rw [Option.some.injEq] at hstep
    exact hstep ▸ .turn _ hthread (hpc ▸ .drawing again) (map_freed_modify _ _ fun _ ↦ rfl)
  case h_6 again ok =>
    split at hstep
    case isTrue =>
      rw [Option.some.injEq] at hstep
      exact hstep ▸ .turn _ hthread (hpc ▸ .sent again) rfl
    case isFalse =>
      split at hstep
      case isTrue =>
        rw [Option.some.injEq] at hstep
        exact hstep ▸ .turn _ hthread (hpc ▸ .unsent again) rfl
      case isFalse =>
        rw [Option.some.injEq] at hstep
        exact hstep ▸ .turn _ hthread (hpc ▸ .sent again) (map_freed_modify _ _ fun _ ↦ rfl)
  case h_7 =>
    rw [Option.some.injEq] at hstep
    subst hstep
    split
    case isTrue => exact .turn .go hthread (hpc ▸ .stay) rfl
    case isFalse => exact .turn .go hthread (hpc ▸ .leave) rfl
  case h_8 msgId tl =>
    rw [Option.some.injEq] at hstep
    exact hstep ▸ catchCut_move hthread hpc
  case h_9 error =>
    rw [Option.bind_eq_bind, Option.bind_eq_some_iff] at hstep
    obtain ⟨events, -, hnext⟩ := hstep
    rw [Option.some.injEq] at hnext
    exact hnext ▸ .rpcError error events hthread hpc
  case h_10 res =>
    rw [Option.some.injEq] at hstep
    exact hstep ▸ .turn _ hthread (hpc ▸ .received res) rfl
  case h_11 removal tl pc => exact catchStep_move hthread hpc hstep
  case h_12 event events =>
    rw [Option.some.injEq] at hstep
    subst hstep
    cases event with
    | migrate queue dc main => exact .requeued hthread hpc rfl
    | floodWait queue seconds => exact .requeued hthread hpc rfl
    | stop queue =>
      exact .turn .go hthread (hpc ▸ .requeued _ events) (map_freed_modify _ _ fun _ ↦ rfl)
    | onDone queue inner => exact .turn .go hthread (hpc ▸ .requeued _ events) rfl
    | addMsgid id => exact .turn .go hthread (hpc ▸ .requeued _ events) rfl
    | catchedTl msgId tl => exact .turn .go hthread (hpc ▸ .requeued _ events) rfl
    | timediff value => exact .turn .go hthread (hpc ▸ .requeued _ events) rfl
    | doUpdates tl => exact .turn .go hthread (hpc ▸ .requeued _ events) rfl
  case h_13 =>
    rw [Option.some.injEq] at hstep
    exact hstep ▸ .turn .go hthread (hpc ▸ .handled) rfl
  case h_14 =>
    rw [Option.some.injEq] at hstep
    exact hstep ▸ .turn .go hthread (hpc ▸ .closing) rfl
  case h_15 =>
    rw [Option.some.injEq] at hstep
    exact hstep ▸ .cut hthread hfields hpc
  case h_16 =>
    rw [Option.some.injEq] at hstep
    exact hstep ▸ .turn .go hthread (hpc ▸ .unlocking) (map_freed_modify _ _ fun _ ↦ rfl)
  case h_17 => cases hstep

theorem timerStep_move {pc : TimerPc} (htimer : pool.timers[key]? = some pc)
    (hstep : timerStep pool key fields pc = some next) : PoolMove pool (.timer key) next := by
  unfold timerStep at hstep
  split at hstep
  case h_1 =>
    rw [Option.some.injEq] at hstep
    exact hstep ▸ .timer .locking htimer nofun (map_freed_modify _ _ fun _ ↦ rfl)
  case h_2 =>
    split at hstep
    case isTrue =>
      rw [Option.some.injEq] at hstep
      exact hstep ▸ .wait _
    case isFalse =>
      rw [Option.some.injEq] at hstep
      exact hstep ▸ .timer .freeing htimer nofun (map_freed_modify _ _ fun _ ↦ rfl)
  case h_3 =>
    rw [Option.some.injEq] at hstep
    exact hstep ▸ .free htimer
  case h_4 => cases hstep

theorem cancelStep_move {index : ℕ} {cancel : Cancel} {pc : CancelPc}
    (hcancel : pool.cancels[index]? = some cancel) (hpc : cancel.pc = pc)
    (hstep : cancelStep pool index cancel fields pc = some next) :
    PoolMove pool (.cancel index) next := by
  unfold cancelStep at hstep
  split at hstep
  case h_1 =>
    split at hstep
    case isTrue =>
      rw [Option.some.injEq] at hstep
      exact hstep ▸ .wait _
    case isFalse =>
      rw [Option.some.injEq] at hstep
      exact hstep ▸ .cancel .stopping hcancel (hpc ▸ nofun) (map_freed_modify _ _ fun _ ↦ rfl)
  case h_2 =>
    rw [Option.some.injEq] at hstep
    exact hstep ▸ .cancel .unlocking hcancel (hpc ▸ nofun) (map_freed_modify _ _ fun _ ↦ rfl)
  case h_3 =>
    rw [Option.some.injEq] at hstep
    exact hstep ▸ .cancel .ended hcancel (hpc ▸ nofun) (map_freed_modify _ _ fun _ ↦ rfl)
  case h_4 => cases hstep

/-- Every step is one of the moves. -/
theorem poolStep_move {label : PoolLabel}
    (hstep : poolStep model table gunzip pool label = some next) : PoolMove pool label next := by
  cases label with
  | request onDone =>
    rw [poolStep, Option.some.injEq] at hstep
    exact hstep ▸ .request onDone
  | run key move =>
    simp only [poolStep, Option.bind_eq_bind, Option.bind_eq_some_iff] at hstep
    obtain ⟨thread, hthread, fields, hfields, hnext⟩ := hstep
    exact runStep_move hthread hfields rfl hnext
  | timer key =>
    simp only [poolStep, Option.bind_eq_bind, Option.bind_eq_some_iff] at hstep
    obtain ⟨pc, htimer, fields, -, hnext⟩ := hstep
    exact timerStep_move htimer hnext
  | cancelQueue msgId =>
    rw [poolStep, Option.some.injEq] at hstep
    exact hstep ▸ cancelCut_move
  | cancel index =>
    simp only [poolStep, Option.bind_eq_bind, Option.bind_eq_some_iff] at hstep
    obtain ⟨cancel, hcancel, fields, -, hnext⟩ := hstep
    exact cancelStep_move hcancel rfl hnext
  | cancelAll =>
    rw [poolStep, Option.some.injEq] at hstep
    obtain ⟨queues, hqueues⟩ := cancelAll_frame pool.listed pool
    have hfreed := map_freed_foldl pool.listed pool
    unfold Pool.cancelAll at hstep
    rw [hqueues] at hstep hfreed
    exact hstep ▸ .cancelAll hfreed

end Moves

end LibTg.Tg
