import LibTg.Data.Run
import LibTg.Tg.HeaderSpec

/-!
# Threads that build packets side by side

Any number of threads run `tg_header` on one session while receivers append to its two lists. A
thread stops between any two sections under a mutex and around every reading of the clock; a
section under `msgidsm` or `seqnm` is one step, and so is each message of `tg_to_drop`, which keeps
`todropm` over all of them. What the threads have produced is kept as history, in the order in
which the sections ran.
-/

namespace LibTg.Tg

open LibTg.Tl

/-- What a message carries. -/
inductive Kind
  | query
  | ack (ids : List UInt64)
  | drop (id : UInt64)
  | outer
  deriving DecidableEq

/-- A message that has got its id and its sequence number. -/
structure Sent where
  kind : Kind
  content : Bool
  msgId : UInt64
  seqno : UInt32
  deriving DecidableEq

/-- The message that a thread of `tg_header` is working on, with what it has built before:
the query and the `msgs_ack` of a container, the drop answer at an index of `tg->todrop`, and the
message around the payload. -/
inductive Job
  | query (ids : List UInt64)
  | ack (ids : List UInt64) (first : Sent)
  | drop (inner : List Sent) (index : ℕ)
  | outer (inner : List Sent) (content : Bool)
  deriving DecidableEq

/-- Where a thread stands: outside `tg_header`, before `tg_ack`, before a reading of the clock,
before the section under `seqnm`, or before `tg_to_drop`. -/
inductive Pc
  | idle
  | ack (content : Bool)
  | time (job : Job)
  | seqno (job : Job) (msgId : UInt64)
  | toDrop (inner : List Sent)
  deriving DecidableEq

/-- A thread with its queue record: `msgid` is `queue->msgid`, and `added` says that the record
has been put into `tg->queue`. -/
structure Worker where
  pc : Pc
  msgid : UInt64
  query : Bytes
  added : Bool
  deriving DecidableEq

/-- A packet: its query, the messages of its container (none if it is not a container) and the
message around them. -/
structure Packet where
  query : Bytes
  inner : List Sent
  outer : Sent
  deriving DecidableEq

/-- The session, its threads and its history. `owner` is the thread that holds `todropm`, `last`
the latest reading of the clock, and `matched` has for every `list_cut` the number of queues that
it could have taken. -/
structure Sender where
  msgids : List UInt64
  todrop : List UInt64
  seqn : ℤ
  timediff : ℤ
  owner : Option ℕ
  queue : List ℕ
  last : Option ℕ
  workers : List Worker
  addedMsgids : List UInt64
  addedTodrop : List UInt64
  acks : List (List UInt64)
  draws : List (ℕ × UInt64)
  messages : List Sent
  packets : List Packet
  matched : List ℕ
  deriving DecidableEq

/-- `count` threads before their first packet. -/
def Sender.start (count : ℕ) (seqn : ℤ) : Sender where
  msgids := []
  todrop := []
  seqn := seqn
  timediff := 0
  owner := none
  queue := []
  last := none
  workers := List.replicate count ⟨.idle, 0, [], false⟩
  addedMsgids := []
  addedTodrop := []
  acks := []
  draws := []
  messages := []
  packets := []
  matched := []

/-- The steps: `tg_add_msgid`, `tg_add_todrop`, a handler of `bad_msg_notification`,
`tg_queue_add`, `tg_queue_cut`, a call of `tg_header`, a section of a thread, and a reading of the
clock by a thread. -/
inductive Label
  | addMsgid (id : UInt64)
  | addTodrop (id : UInt64)
  | badMsgNotification
  | queueAdd (thread : ℕ)
  | queueCut (id : UInt64)
  | header (thread : ℕ) (query : Bytes) (content : Bool)
  | locked (thread : ℕ)
  | clock (thread : ℕ) (reading : Timespec)

/-- The `content` that a job's message is numbered with. -/
def Job.content : Job → Bool
  | .query _ => true
  | .ack _ _ => false
  | .drop _ _ => true
  | .outer _ content => content

def Sender.put (tg : Sender) (thread : ℕ) (worker : Worker) : Sender :=
  { tg with workers := tg.workers.set thread worker }

def Sender.cmpMsgid (tg : Sender) (id : UInt64) (thread : ℕ) : Bool :=
  (tg.workers[thread]?).any fun worker ↦ worker.msgid = id

/-- After `tg_to_drop`: `*msgid` becomes the id of the query, the first of the messages. -/
def Worker.contained (worker : Worker) (inner : List Sent) : Worker :=
  { worker with
    msgid := (inner.head?.map Sent.msgId).getD worker.msgid
    pc := .time (.outer inner false) }

/-- `tg_ack`, and the branch on the size of its result. -/
def ackSection (tg : Sender) (thread : ℕ) (worker : Worker) (content : Bool) : Sender :=
  if tg.msgids.length < 1 then
    tg.put thread { worker with pc := .time (.outer [] content) }
  else
    { tg with msgids := [], acks := tg.acks ++ [tg.msgids] }.put thread
      { worker with pc := .time (.query tg.msgids) }

/-- The beginning of `tg_to_drop`, which waits while another thread holds `todropm`. -/
def toDropSection (tg : Sender) (thread : ℕ) (worker : Worker) (inner : List Sent) :
    Option Sender :=
  if tg.owner.isSome then none
  else if tg.todrop.length < 1 then some (tg.put thread (worker.contained inner))
  else
    some ({ tg with owner := some thread }.put thread { worker with pc := .time (.drop inner 0) })

/-- The body of a job's message. -/
def jobKind (tg : Sender) : Job → Option Kind
  | .query _ => some .query
  | .ack ids _ => some (.ack ids)
  | .drop _ index => (tg.todrop[index]?).map .drop
  | .outer _ _ => some .outer

/-- What follows the section under `seqnm`, up to the next stop. -/
def afterMessage (tg : Sender) (thread : ℕ) (worker : Worker) (message : Sent) : Job → Sender
  | .query ids => tg.put thread { worker with pc := .time (.ack ids message) }
  | .ack _ first => tg.put thread { worker with pc := .toDrop [first, message] }
  | .drop inner index =>
    if index + 1 < tg.todrop.length then
      tg.put thread { worker with pc := .time (.drop (inner ++ [message]) (index + 1)) }
    else
      { tg with todrop := [], owner := none }.put thread
        (worker.contained (inner ++ [message]))
  | .outer inner _ =>
    let packet : Packet := ⟨worker.query, inner, message⟩
    { tg with packets := tg.packets ++ [packet] }.put thread { worker with pc := .idle }

/-- A message with the next sequence number. -/
def Sender.number (tg : Sender) (kind : Kind) (content : Bool) (msgId : UInt64) : Sent :=
  ⟨kind, content, msgId, UInt32.ofInt (nextSeqno tg.seqn content).1⟩

/-- The session after the section under `seqnm` that numbered a message. -/
def Sender.record (tg : Sender) (message : Sent) : Sender :=
  { tg with
    seqn := (nextSeqno tg.seqn message.content).2
    messages := tg.messages ++ [message] }

/-- The section under `seqnm`, and what follows it. -/
def seqnoSection (tg : Sender) (thread : ℕ) (worker : Worker) (job : Job) (msgId : UInt64) :
    Option Sender := do
  let kind ← jobKind tg job
  let message := tg.number kind job.content msgId
  some (afterMessage (tg.record message) thread worker message job)

def sectionStep (tg : Sender) (thread : ℕ) (worker : Worker) : Option Sender :=
  match worker.pc with
  | .ack content => some (ackSection tg thread worker content)
  | .toDrop inner => toDropSection tg thread worker inner
  | .seqno job msgId => seqnoSection tg thread worker job msgId
  | _ => none

/-- `*msgid` after an id has been drawn: the message around the payload sets it unless a container
has set it before. -/
def Worker.drawn (worker : Worker) (msgId : UInt64) : Job → UInt64
  | .outer _ _ => if worker.msgid = 0 then msgId else worker.msgid
  | _ => worker.msgid

/-- The session after a thread has read the clock and drawn an id from it. -/
def Sender.draw (tg : Sender) (thread : ℕ) (worker : Worker) (job : Job) (nanos : ℕ)
    (msgId : UInt64) : Sender :=
  { tg with last := some nanos, draws := tg.draws ++ [(thread, msgId)] }.put thread
    { worker with pc := .seqno job msgId, msgid := worker.drawn msgId job }

/-- `tg_get_current_time`. -/
def clockStep (tg : Sender) (thread : ℕ) (worker : Worker) (reading : Timespec) : Option Sender :=
  match worker.pc with
  | .time job =>
    if tg.last.any fun last ↦ reading.nanos < last then none
    else some (tg.draw thread worker job reading.nanos (msgIdAt reading tg.timediff))
  | _ => none

def senderStep (tg : Sender) : Label → Option Sender
  | .addMsgid id =>
    some { tg with msgids := tg.msgids ++ [id], addedMsgids := tg.addedMsgids ++ [id] }
  | .addTodrop id =>
    if tg.owner.isSome then none
    else some { tg with todrop := tg.todrop ++ [id], addedTodrop := tg.addedTodrop ++ [id] }
  | .badMsgNotification => some { tg with timediff := ntpTimeDiff }
  | .queueAdd thread => do
    let worker ← tg.workers[thread]?
    if worker.pc = .idle ∧ ¬ worker.added then
      some ({ tg with queue := listAdd tg.queue thread }.put thread { worker with added := true })
    else none
  | .queueCut id =>
    some { tg with
      queue := (listCut (tg.cmpMsgid id) tg.queue).2
      matched := tg.matched ++ [tg.queue.countP (tg.cmpMsgid id)] }
  | .header thread query content => do
    let worker ← tg.workers[thread]?
    if worker.pc = .idle then
      some (tg.put thread { worker with pc := .ack content, msgid := 0, query := query })
    else none
  | .locked thread => do
    let worker ← tg.workers[thread]?
    sectionStep tg thread worker
  | .clock thread reading => do
    let worker ← tg.workers[thread]?
    clockStep tg thread worker reading

/-- A schedule of two threads: the first sends a container with one acknowledgement and one drop,
the second a bare query, which it numbers while the first one holds `todropm`. The clock shows the
given seconds at the five readings. -/
def interleaved (seconds : ℕ → ℕ) : List Label :=
  let reading (index : ℕ) : Timespec := ⟨seconds index, 0, zero_nsec_lt⟩
  [.queueAdd 0, .queueAdd 1, .addMsgid 5, .addTodrop 7, .header 0 [1] true, .header 1 [2] true,
    .locked 0, .locked 1, .clock 0 (reading 0), .locked 0, .clock 0 (reading 1), .locked 0,
    .locked 0, .clock 0 (reading 2), .clock 1 (reading 3), .locked 1, .locked 0,
    .clock 0 (reading 4), .locked 0]

/-! ## What a step can do -/

/-- What follows a message touches the drops, the packets and the threads only. -/
theorem afterMessage_frame (tg : Sender) (thread : ℕ) (worker : Worker) (message : Sent)
    (job : Job) : ∃ todrop owner packets workers, afterMessage tg thread worker message job =
      { tg with todrop := todrop, owner := owner, packets := packets, workers := workers } := by
  cases job with
  | query ids => exact ⟨_, _, _, _, rfl⟩
  | ack ids first => exact ⟨_, _, _, _, rfl⟩
  | drop inner index =>
    rw [afterMessage]
    split <;> exact ⟨_, _, _, _, rfl⟩
  | outer inner content => exact ⟨_, _, _, _, rfl⟩

/-- The moves of the session, one constructor for each branch of a step. -/
inductive SenderMove (tg : Sender) : Label → Sender → Prop
  | addMsgid (id : UInt64) : SenderMove tg (.addMsgid id)
      { tg with msgids := tg.msgids ++ [id], addedMsgids := tg.addedMsgids ++ [id] }
  | addTodrop (id : UInt64) (howner : tg.owner = none) : SenderMove tg (.addTodrop id)
      { tg with todrop := tg.todrop ++ [id], addedTodrop := tg.addedTodrop ++ [id] }
  | badMsgNotification : SenderMove tg .badMsgNotification { tg with timediff := ntpTimeDiff }
  | queueAdd {thread worker} (hworker : tg.workers[thread]? = some worker)
      (hpc : worker.pc = .idle) (hadded : worker.added = false) : SenderMove tg (.queueAdd thread)
      ({ tg with queue := thread :: tg.queue }.put thread { worker with added := true })
  | queueCut (id : UInt64) : SenderMove tg (.queueCut id)
      { tg with
        queue := tg.queue.eraseP (tg.cmpMsgid id)
        matched := tg.matched ++ [tg.queue.countP (tg.cmpMsgid id)] }
  | header {thread worker} (query : Bytes) (content : Bool)
      (hworker : tg.workers[thread]? = some worker) (hpc : worker.pc = .idle) :
      SenderMove tg (.header thread query content)
        (tg.put thread { worker with pc := .ack content, msgid := 0, query := query })
  | ackNone {thread worker content} (hworker : tg.workers[thread]? = some worker)
      (hpc : worker.pc = .ack content) (hnil : tg.msgids = []) : SenderMove tg (.locked thread)
      (tg.put thread { worker with pc := .time (.outer [] content) })
  | ackSome {thread worker content} (hworker : tg.workers[thread]? = some worker)
      (hpc : worker.pc = .ack content) : SenderMove tg (.locked thread)
      ({ tg with msgids := [], acks := tg.acks ++ [tg.msgids] }.put thread
        { worker with pc := .time (.query tg.msgids) })
  | clock {thread worker job} (reading : Timespec) (hworker : tg.workers[thread]? = some worker)
      (hpc : worker.pc = .time job) (hlast : ∀ last ∈ tg.last, last ≤ reading.nanos) :
      SenderMove tg (.clock thread reading)
        (tg.draw thread worker job reading.nanos (msgIdAt reading tg.timediff))
  | toDropNone {thread worker inner} (hworker : tg.workers[thread]? = some worker)
      (hpc : worker.pc = .toDrop inner) (howner : tg.owner = none) (hnil : tg.todrop = []) :
      SenderMove tg (.locked thread) (tg.put thread (worker.contained inner))
  | toDropSome {thread worker inner} (hworker : tg.workers[thread]? = some worker)
      (hpc : worker.pc = .toDrop inner) (howner : tg.owner = none) (hsome : 0 < tg.todrop.length) :
      SenderMove tg (.locked thread)
        ({ tg with owner := some thread }.put thread { worker with pc := .time (.drop inner 0) })
  | message {thread worker job msgId kind} (hworker : tg.workers[thread]? = some worker)
      (hpc : worker.pc = .seqno job msgId) (hkind : jobKind tg job = some kind) :
      SenderMove tg (.locked thread)
        (afterMessage (tg.record (tg.number kind job.content msgId)) thread worker
          (tg.number kind job.content msgId) job)

theorem sectionStep_move {tg next : Sender} {thread : ℕ} {worker : Worker}
    (hworker : tg.workers[thread]? = some worker) (hstep : sectionStep tg thread worker = some next) :
    SenderMove tg (.locked thread) next := by
  unfold sectionStep at hstep
  split at hstep
  case h_1 content hpc =>
    rw [Option.some.injEq] at hstep
    subst hstep
    unfold ackSection
    split
    case isTrue hshort => exact .ackNone hworker hpc (List.eq_nil_of_length_eq_zero (by omega))
    case isFalse => exact .ackSome hworker hpc
  case h_2 inner hpc =>
    unfold toDropSection at hstep
    split at hstep
    case isTrue => cases hstep
    case isFalse hfree =>
      have howner : tg.owner = none := by simpa using hfree
      split at hstep
      case isTrue hshort =>
        rw [Option.some.injEq] at hstep
        exact hstep ▸ .toDropNone hworker hpc howner (List.eq_nil_of_length_eq_zero (by omega))
      case isFalse hlong =>
        rw [Option.some.injEq] at hstep
        exact hstep ▸ .toDropSome hworker hpc howner (by omega)
  case h_3 job msgId hpc =>
    unfold seqnoSection at hstep
    rw [Option.bind_eq_bind, Option.bind_eq_some_iff] at hstep
    obtain ⟨kind, hkind, hnext⟩ := hstep
    rw [Option.some.injEq] at hnext
    exact hnext ▸ .message hworker hpc hkind
  case h_4 => cases hstep

theorem le_of_not_any_lt {last : Option ℕ} {nanos : ℕ}
    (hlast : ¬ (last.any fun last ↦ nanos < last) = true) : ∀ value ∈ last, value ≤ nanos := by
  intro value hmem
  rw [Option.mem_def] at hmem
  simpa [hmem] using hlast

theorem clockStep_move {tg next : Sender} {thread : ℕ} {worker : Worker} {reading : Timespec}
    (hworker : tg.workers[thread]? = some worker)
    (hstep : clockStep tg thread worker reading = some next) :
    SenderMove tg (.clock thread reading) next := by
  unfold clockStep at hstep
  split at hstep
  case h_1 job hpc =>
    split at hstep
    case isTrue => cases hstep
    case isFalse hlast =>
      rw [Option.some.injEq] at hstep
      exact hstep ▸ .clock reading hworker hpc (le_of_not_any_lt hlast)
  case h_2 => cases hstep

/-- Every step is one of the moves. -/
theorem senderStep_move {tg next : Sender} {label : Label}
    (hstep : senderStep tg label = some next) : SenderMove tg label next := by
  cases label with
  | addMsgid id =>
    rw [senderStep, Option.some.injEq] at hstep
    exact hstep ▸ .addMsgid id
  | addTodrop id =>
    rw [senderStep] at hstep
    split at hstep
    case isTrue => cases hstep
    case isFalse hfree =>
      rw [Option.some.injEq] at hstep
      exact hstep ▸ .addTodrop id (by simpa using hfree)
  | badMsgNotification =>
    rw [senderStep, Option.some.injEq] at hstep
    exact hstep ▸ .badMsgNotification
  | queueAdd thread =>
    rw [senderStep, Option.bind_eq_bind, Option.bind_eq_some_iff] at hstep
    obtain ⟨worker, hworker, hnext⟩ := hstep
    split at hnext
    case isTrue hready =>
      rw [Option.some.injEq] at hnext
      exact hnext ▸ .queueAdd hworker hready.1 (by simpa using hready.2)
    case isFalse => cases hnext
  | queueCut id =>
    rw [senderStep, Option.some.injEq] at hstep
    exact hstep ▸ .queueCut id
  | header thread query content =>
    rw [senderStep, Option.bind_eq_bind, Option.bind_eq_some_iff] at hstep
    obtain ⟨worker, hworker, hnext⟩ := hstep
    split at hnext
    case isTrue hidle =>
      rw [Option.some.injEq] at hnext
      exact hnext ▸ .header query content hworker hidle
    case isFalse => cases hnext
  | locked thread =>
    rw [senderStep, Option.bind_eq_bind, Option.bind_eq_some_iff] at hstep
    obtain ⟨worker, hworker, hnext⟩ := hstep
    exact sectionStep_move hworker hnext
  | clock thread reading =>
    rw [senderStep, Option.bind_eq_bind, Option.bind_eq_some_iff] at hstep
    obtain ⟨worker, hworker, hnext⟩ := hstep
    exact clockStep_move hworker hnext

end LibTg.Tg
