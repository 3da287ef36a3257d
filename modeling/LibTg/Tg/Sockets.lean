import LibTg.Data.Run
import LibTg.Tg.Dispatch

/-!
# The sockets of the queues (`tg/queue.c`, `tg/net.c`)

A descriptor is a number, and the kernel gives a number that has been closed to whoever opens next.
`tg_send` closes the socket of its queue when it fails, and `tg_run_queue` closes it once more. A key
that is missing makes `tg_prepare_mtproto` put another socket in the place of the queue's own, and
`tg_net_open` forgets the socket that it could not connect. `run_closesOnce` says that nothing else
goes wrong: while none of this happens, every socket of a queue is closed once, by its queue.

The threads of `tg_run_queue` of all accounts run between any two actions below. Whatever else the
program opens and closes has its numbers from the same table.
-/

namespace LibTg.Tg

/-- A socket: its number in the table of descriptors, and as history which one of all it is. -/
structure Descriptor where
  number : ℕ
  serial : ℕ
  deriving DecidableEq, Repr

/-- Where a thread of `tg_run_queue` stands. `connecting` is in `tg_net_open` behind `socket`;
`locking` to `failing` are in `tg_send`: before `queue_lock`, in `tg_prepare_mtproto`, behind
`api.app.open`, before `tg_prepare_query`, before `send` and before `tg_net_close`. -/
inductive SocketPc
  | start
  | connecting (opened : Descriptor)
  | locking
  | preparing
  | installing
  | querying
  | sending
  | failing
  | testing
  | receiving
  | closing
  | ended
  deriving DecidableEq, Repr

/-- A thread of `tg_run_queue`: its account, `queue->socket` if that is not negative, and where it
stands. -/
structure SocketThread where
  account : ℕ
  socket : Option Descriptor
  pc : SocketPc
  deriving DecidableEq, Repr

/-- A call of `tg_net_close` for a queue: the queue, the socket that is meant, and the one that has its
number by then. -/
structure CloseCall where
  thread : ℕ
  serial : ℕ
  found : Option ℕ
  deriving DecidableEq, Repr

/-- The threads, the table of descriptors, `tg->queue_lock` and the presence of `tg->key` of every
account, and `shared_rc.net.sockfd`. The rest is history: how many sockets there have been, which
ones the program has opened elsewhere, which ones a queue has obtained, and the calls of
`tg_net_close`. -/
structure SocketPool where
  threads : List SocketThread
  table : ℕ → Option ℕ
  locked : ℕ → Bool
  keyed : ℕ → Bool
  shared : Option Descriptor
  serials : ℕ
  outside : List ℕ
  obtained : List (ℕ × ℕ)
  closes : List CloseCall

def SocketPool.start : SocketPool where
  threads := []
  table _ := none
  locked _ := false
  keyed _ := false
  shared := none
  serials := 0
  outside := []
  obtained := []
  closes := []

/-- What the environment decides in a step of `tg_run_queue`: whether a lock is got, the number that
`socket` returns if it succeeds, whether `connect` succeeds, whether the negotiation has made a key,
whether there is a query to send, whether `send` succeeds, `queue->loop`, and the result of
`_tg_receive`. -/
inductive SocketMove
  | go
  | locked (ok : Bool)
  | opened (number : Option ℕ)
  | connected (ok : Bool)
  | negotiated (key : Bool)
  | prepared (ok : Bool)
  | sent (ok : Bool)
  | looped (loop : Bool)
  | received (res : Rtl)
  deriving DecidableEq

/-- The steps: `tg_queue_new`, a step of a thread of `tg_run_queue`, a key that an account gets or
loses, and descriptors that are opened and closed elsewhere. -/
inductive SocketLabel
  | request (account : ℕ)
  | run (key : ℕ) (move : SocketMove)
  | keyed (account : ℕ) (present : Bool)
  | openOutside (number : ℕ)
  | closeOutside (number : ℕ)
  deriving DecidableEq

/-! ## The steps -/

def SocketPool.turn (pool : SocketPool) (key : ℕ) (thread : SocketThread) (pc : SocketPc) :
    SocketPool :=
  { pool with threads := pool.threads.set key { thread with pc := pc } }

/-- A thread moves and sets `queue->socket`. -/
def SocketPool.assign (pool : SocketPool) (key : ℕ) (thread : SocketThread)
    (socket : Option Descriptor) (pc : SocketPc) : SocketPool :=
  { pool with threads := pool.threads.set key { thread with socket := socket, pc := pc } }

/-- `tg_mutex_lock` and `tg_mutex_unlock` on `queue_lock`. -/
def SocketPool.lock (pool : SocketPool) (account : ℕ) (locked : Bool) : SocketPool :=
  { pool with locked := Function.update pool.locked account locked }

/-- The socket that a number would stand for next. -/
def SocketPool.fresh (pool : SocketPool) (number : ℕ) : Descriptor := ⟨number, pool.serials⟩

/-- `socket` with a number that is free. -/
def SocketPool.allot (pool : SocketPool) (number : ℕ) : Option SocketPool :=
  if pool.table number = none then
    some { pool with
      table := Function.update pool.table number (some pool.serials)
      serials := pool.serials + 1 }
  else none

/-- A queue has got a socket. -/
def SocketPool.obtain (pool : SocketPool) (key : ℕ) (socket : Descriptor) : SocketPool :=
  { pool with obtained := pool.obtained ++ [(key, socket.serial)] }

/-- `tg_net_close`. A number that is not in use stays so. -/
def SocketPool.close (pool : SocketPool) (key : ℕ) (socket : Descriptor) : SocketPool :=
  { pool with
    table := Function.update pool.table socket.number none
    closes := pool.closes ++ [⟨key, socket.serial, pool.table socket.number⟩] }

/-- A step of a thread of `tg_run_queue`. Where nothing is sent, `loop` is false after the first call, and
a later one is left by `break`. -/
def socketStep (pool : SocketPool) (key : ℕ) (thread : SocketThread) :
    SocketPc → SocketMove → Option SocketPool
  | .start, .locked false => some (pool.turn key thread .ended)
  | .start, .opened none => some (pool.assign key thread none .ended)
  | .start, .opened (some number) => do
    let next ← pool.allot number
    some ((next.obtain key (pool.fresh number)).turn key thread (.connecting (pool.fresh number)))
  | .connecting opened, .connected true => some (pool.assign key thread (some opened) .locking)
  | .connecting _, .connected false => some (pool.assign key thread none .ended)
  | .locking, .locked false => some (pool.turn key thread .closing)
  | .locking, .locked true =>
    if pool.locked thread.account then some pool
    else some ((pool.lock thread.account true).turn key thread .preparing)
  | .preparing, .go =>
    if pool.keyed thread.account then
      some ((pool.lock thread.account false).turn key thread .querying)
    else none
  | .preparing, .opened none =>
    if pool.keyed thread.account then none
    else some ({ pool with shared := none }.turn key thread .installing)
  | .preparing, .opened (some number) =>
    if pool.keyed thread.account then none
    else do
      let next ← pool.allot number
      some ({ next with shared := some (pool.fresh number) }.turn key thread .installing)
  | .installing, .negotiated present =>
    let next : SocketPool := (pool.shared.elim pool fun socket ↦ pool.obtain key socket).lock
      thread.account false
    some ({ next with
      keyed := Function.update pool.keyed thread.account present }.assign key thread pool.shared
        .querying)
  | .querying, .prepared ok => some (pool.turn key thread (if ok then .sending else .failing))
  | .sending, .sent ok => some (pool.turn key thread (if ok then .testing else .failing))
  | .failing, .go =>
    some ((thread.socket.elim pool fun socket ↦ pool.close key socket).turn key thread .closing)
  | .testing, .looped loop => some (pool.turn key thread (if loop then .receiving else .closing))
  | .receiving, .received .resend => some (pool.turn key thread .locking)
  | .receiving, .received .reread => some (pool.turn key thread .testing)
  | .receiving, .received _ => some (pool.turn key thread .closing)
  | .closing, .go =>
    some ((thread.socket.elim pool fun socket ↦ pool.close key socket).turn key thread .ended)
  | _, _ => none

def socketPoolStep (pool : SocketPool) : SocketLabel → Option SocketPool
  | .request account => some { pool with threads := pool.threads ++ [⟨account, none, .start⟩] }
  | .run key move => do
    let thread ← pool.threads[key]?
    socketStep pool key thread thread.pc move
  | .keyed account present =>
    some { pool with keyed := Function.update pool.keyed account present }
  | .openOutside number => do
    let next ← pool.allot number
    some { next with outside := pool.serials :: pool.outside }
  | .closeOutside number =>
    if (pool.table number).any (· ∈ pool.outside) then
      some { pool with table := Function.update pool.table number none }
    else none

/-! ## The promise -/

/-- The thread of the queue has come to its end. -/
def SocketPool.Ended (pool : SocketPool) (key : ℕ) : Prop :=
  (pool.threads[key]?).map SocketThread.pc = some .ended

/-- How often a socket has been closed. -/
def SocketPool.closeCount (pool : SocketPool) (serial : ℕ) : ℕ :=
  pool.closes.countP (·.serial = serial)

/-- Every socket that a queue has obtained is closed exactly once by the time its thread ends, and no
thread closes a socket of another queue. -/
structure SocketPool.ClosesOnce (pool : SocketPool) : Prop where
  once : ∀ socket ∈ pool.obtained, pool.Ended socket.1 → pool.closeCount socket.2 = 1
  own : ∀ call ∈ pool.closes, ∀ serial ∈ call.found, ∀ socket ∈ pool.obtained,
    socket.2 = serial → socket.1 = call.thread

/-- A socket that has been opened is connected, an account that sends has a key, and what is prepared
can be sent. -/
def Undisturbed (pool : SocketPool) : SocketLabel → Prop
  | .run _ (.connected ok) => ok = true
  | .run key (.opened _) => ∀ thread ∈ pool.threads[key]?, thread.pc ≠ .preparing
  | .run _ (.prepared ok) => ok = true
  | .run _ (.sent ok) => ok = true
  | _ => True

instance SocketPool.decidableEnded (pool : SocketPool) (key : ℕ) : Decidable (pool.Ended key) :=
  inferInstanceAs (Decidable (_ = _))

instance (pool : SocketPool) (label : SocketLabel) : Decidable (Undisturbed pool label) := by
  unfold Undisturbed
  split <;> infer_instance

/-! ## What undisturbed steps keep -/

/-- The thread has not yet begun or has come to its end. -/
def SocketPc.isIdle : SocketPc → Bool
  | .start => true
  | .ended => true
  | _ => false

/-- The thread is not about to close or to replace a socket that it will close again. -/
def SocketPc.isSound : SocketPc → Bool
  | .installing => false
  | .failing => false
  | _ => true

/-- The socket that a thread has still to close. -/
def SocketThread.held (thread : SocketThread) : Option Descriptor :=
  match thread.pc with
  | .start => none
  | .ended => none
  | .connecting opened => some opened
  | _ => thread.socket

theorem SocketThread.held_of_isIdle {thread : SocketThread} (hidle : thread.pc.isIdle = true) :
    thread.held = none := by
  unfold SocketPc.isIdle at hidle
  split at hidle
  case h_1 hpc => rw [held, hpc]
  case h_2 hpc => rw [held, hpc]
  case h_3 => cases hidle

/-- A socket that a queue has obtained is closed at the end of its thread, and before that it is the
one that the thread has still to close. -/
def SocketPool.Accounted (pool : SocketPool) (entry : ℕ × ℕ) : Prop :=
  ∃ thread, pool.threads[entry.1]? = some thread ∧
    (thread.held.map Descriptor.serial = some entry.2 ∧ pool.closeCount entry.2 = 0 ∨
      thread.pc = .ended ∧ pool.closeCount entry.2 = 1)

/-- A thread at work has a socket of its own, whose number stands for it. -/
def SocketPool.Works (pool : SocketPool) (key : ℕ) (thread : SocketThread) : Prop :=
  thread.pc.isSound = true ∧ (thread.pc.isIdle = true ∨ ∃ socket, thread.held = some socket ∧
    pool.table socket.number = some socket.serial ∧ (key, socket.serial) ∈ pool.obtained)

/-- Every queue has one socket at most, which is open until the queue closes it. -/
structure SocketPool.Kept (pool : SocketPool) : Prop where
  threads : ∀ key thread, pool.threads[key]? = some thread → pool.Works key thread
  obtained : ∀ entry ∈ pool.obtained, pool.Accounted entry
  unique : ∀ first ∈ pool.obtained, ∀ second ∈ pool.obtained,
    first.2 = second.2 → first.1 = second.1
  below : ∀ entry ∈ pool.obtained, entry.2 < pool.serials
  outside : ∀ serial ∈ pool.outside, serial < pool.serials ∧
    ∀ entry ∈ pool.obtained, entry.2 ≠ serial
  closes : ∀ call ∈ pool.closes, call.found = some call.serial ∧
    (call.thread, call.serial) ∈ pool.obtained
  shared : pool.shared = none

namespace SocketPool

variable {pool : SocketPool} {key : ℕ} {thread : SocketThread}

theorem Kept.closesOnce (h : pool.Kept) : pool.ClosesOnce where
  once socket hsocket hended := by
    obtain ⟨thread, hthread, ⟨hheld, -⟩ | ⟨-, hcount⟩⟩ := h.obtained socket hsocket
    · rw [Ended, hthread, Option.map_some, Option.some.injEq] at hended
      rw [SocketThread.held, hended] at hheld
      cases hheld
    · exact hcount
  own call hcall serial hserial socket hsocket heq := by
    obtain ⟨hfound, hmem⟩ := h.closes call hcall
    rw [hfound, Option.mem_some_iff] at hserial
    exact h.unique socket hsocket _ hmem (heq.trans hserial.symm)

theorem getElem?_set_thread (hthread : pool.threads[key]? = some thread) (next : SocketThread)
    (other : ℕ) : (pool.threads.set key next)[other]? =
      if other = key then some next else pool.threads[other]? := by
  split
  case isTrue h =>
    rw [h]
    exact List.getElem?_set_self (List.getElem?_eq_some_iff.mp hthread).1
  case isFalse h => exact List.getElem?_set_ne (Ne.symm h)

/-- A thread moves and has the same socket to close as before. -/
theorem Kept.move (h : pool.Kept) (hthread : pool.threads[key]? = some thread)
    {next : SocketThread} (hheld : next.held = thread.held) (hsound : next.pc.isSound = true)
    (hidle : thread.pc.isIdle = true → next.pc.isIdle = true) (hended : thread.pc ≠ .ended) :
    Kept { pool with threads := pool.threads.set key next } where
  threads other moved hmoved := by
    rw [getElem?_set_thread hthread] at hmoved
    split at hmoved
    case isTrue heq =>
      rw [Option.some.injEq] at hmoved
      obtain ⟨-, hwork⟩ := h.threads key thread hthread
      rw [heq, ← hmoved, Works, hheld]
      exact ⟨hsound, hwork.imp_left hidle⟩
    case isFalse => exact h.threads other moved hmoved
  obtained entry hentry := by
    obtain ⟨owner, howner, haccounted⟩ := h.obtained entry hentry
    by_cases heq : entry.1 = key
    · have hsame : owner = thread := by
        rw [heq, hthread, Option.some.injEq] at howner
        exact howner.symm
      refine ⟨next, by rw [getElem?_set_thread hthread, if_pos heq], ?_⟩
      rw [hheld]
      rw [hsame] at haccounted
      exact haccounted.imp_right fun hdone ↦ absurd hdone.1 hended
    · exact ⟨owner, by rw [getElem?_set_thread hthread, if_neg heq, howner], haccounted⟩
  unique := h.unique
  below := h.below
  outside := h.outside
  closes := h.closes
  shared := h.shared

/-- The pool after `socket` has returned a number. -/
def allotted (pool : SocketPool) (number : ℕ) : SocketPool :=
  { pool with
    table := Function.update pool.table number (some pool.serials)
    serials := pool.serials + 1 }

theorem allot_eq_some_iff {number : ℕ} {next : SocketPool} :
    pool.allot number = some next ↔ pool.table number = none ∧ pool.allotted number = next := by
  unfold allot
  split
  case isTrue h => rw [Option.some.injEq, and_iff_right h]; rfl
  case isFalse h => exact iff_of_false (by simp) fun hnext ↦ h hnext.1

/-- A socket that nobody has yet leaves the others alone. -/
theorem Kept.allotted (h : pool.Kept) {number : ℕ} (hfree : pool.table number = none) :
    (pool.allotted number).Kept where
  threads key thread hthread := by
    obtain ⟨hsound, hwork⟩ := h.threads key thread hthread
    refine ⟨hsound, hwork.imp_right fun ⟨socket, hheld, htable, hmem⟩ ↦ ⟨socket, hheld, ?_, hmem⟩⟩
    have hne : socket.number ≠ number := by
      intro heq
      rw [heq, hfree] at htable
      cases htable
    exact (Function.update_of_ne hne _ _).trans htable
  obtained := h.obtained
  unique := h.unique
  below entry hentry := Nat.lt_succ_of_lt (h.below entry hentry)
  outside serial hserial := ⟨Nat.lt_succ_of_lt (h.outside serial hserial).1,
    (h.outside serial hserial).2⟩
  closes := h.closes
  shared := h.shared

/-- Nothing is obtained by a thread that has not begun. -/
theorem Kept.ne_of_start (h : pool.Kept) (hthread : pool.threads[key]? = some thread)
    (hpc : thread.pc = .start) {entry : ℕ × ℕ} (hentry : entry ∈ pool.obtained) :
    entry.1 ≠ key := by
  rintro rfl
  obtain ⟨owner, howner, haccounted⟩ := h.obtained entry hentry
  rw [hthread, Option.some.injEq] at howner
  rw [← howner, SocketThread.held, hpc] at haccounted
  rcases haccounted with ⟨hheld, -⟩ | ⟨hended, -⟩
  · cases hheld
  · cases hended

theorem Kept.closeCount_eq_zero (h : pool.Kept) : pool.closeCount pool.serials = 0 := by
  rw [closeCount, List.countP_eq_zero]
  intro call hcall heq
  have hbelow := h.below _ (h.closes call hcall).2
  rw [of_decide_eq_true heq] at hbelow
  exact lt_irrefl _ hbelow

/-- `tg_net_open` in a thread of its own. -/
theorem Kept.opened (h : pool.Kept) (hthread : pool.threads[key]? = some thread)
    (hpc : thread.pc = .start) {number : ℕ} (hfree : pool.table number = none) :
    (((pool.allotted number).obtain key (pool.fresh number)).turn key thread
      (.connecting (pool.fresh number))).Kept where
  threads other moved hmoved := by
    have hset := getElem?_set_thread hthread
      { thread with pc := .connecting (pool.fresh number) } other
    rw [turn, obtain, SocketPool.allotted] at hmoved
    rw [hset] at hmoved
    split at hmoved
    case isTrue heq =>
      rw [Option.some.injEq] at hmoved
      rw [heq, ← hmoved]
      refine ⟨rfl, .inr ⟨pool.fresh number, rfl, Function.update_self .., ?_⟩⟩
      exact List.mem_append_right _ (List.mem_singleton_self _)
    case isFalse =>
      obtain ⟨hsound, hwork⟩ := (h.allotted hfree).threads other moved hmoved
      exact ⟨hsound, hwork.imp_right fun ⟨socket, hheld, htable, hmem⟩ ↦
        ⟨socket, hheld, htable, List.mem_append_left _ hmem⟩⟩
  obtained entry hentry := by
    rcases List.mem_append.mp hentry with hold | hnew
    · have hne := h.ne_of_start hthread hpc hold
      obtain ⟨owner, howner, haccounted⟩ := h.obtained entry hold
      exact ⟨owner, (List.getElem?_set_ne hne.symm).trans howner, haccounted⟩
    · rw [List.mem_singleton] at hnew
      rw [hnew]
      exact ⟨_, List.getElem?_set_self (List.getElem?_eq_some_iff.mp hthread).1,
        .inl ⟨rfl, h.closeCount_eq_zero⟩⟩
  unique first hfirst second hsecond heq := by
    rcases List.mem_append.mp hfirst with hfirst | hfirst <;>
      rcases List.mem_append.mp hsecond with hsecond | hsecond
    · exact h.unique first hfirst second hsecond heq
    · rw [List.mem_singleton] at hsecond
      have hbelow := h.below first hfirst
      rw [heq, hsecond] at hbelow
      exact absurd hbelow (lt_irrefl _)
    · rw [List.mem_singleton] at hfirst
      have hbelow := h.below second hsecond
      rw [← heq, hfirst] at hbelow
      exact absurd hbelow (lt_irrefl _)
    · rw [List.mem_singleton.mp hfirst, List.mem_singleton.mp hsecond]
  below entry hentry := by
    rcases List.mem_append.mp hentry with hold | hnew
    · exact Nat.lt_succ_of_lt (h.below entry hold)
    · rw [List.mem_singleton.mp hnew]
      exact Nat.lt_succ_self _
  outside serial hserial := by
    obtain ⟨hbelow, hothers⟩ := h.outside serial hserial
    refine ⟨Nat.lt_succ_of_lt hbelow, fun entry hentry ↦ ?_⟩
    rcases List.mem_append.mp hentry with hold | hnew
    · exact hothers entry hold
    · rw [List.mem_singleton.mp hnew]
      exact hbelow.ne'
  closes call hcall := by
    obtain ⟨hfound, hmem⟩ := h.closes call hcall
    exact ⟨hfound, List.mem_append_left _ hmem⟩
  shared := h.shared

/-- Another close of another socket changes no count. -/
theorem closeCount_close (pool : SocketPool) (key : ℕ) (socket : Descriptor) (serial : ℕ) :
    (pool.close key socket).closeCount serial =
      pool.closeCount serial + if socket.serial = serial then 1 else 0 := by
  rw [closeCount, close, List.countP_append, List.countP_singleton]
  simp [closeCount]

/-- The last `tg_net_close` of a thread. -/
theorem Kept.closed (h : pool.Kept) (hthread : pool.threads[key]? = some thread)
    (hpc : thread.pc = .closing) {socket : Descriptor} (hsocket : thread.socket = some socket) :
    ((pool.close key socket).turn key thread .ended).Kept := by
  have hheld : thread.held = some socket := by
    rw [SocketThread.held, hpc, hsocket]
  obtain ⟨-, hidle | ⟨other, hother, htable, hmem⟩⟩ := h.threads key thread hthread
  · rw [hpc] at hidle
    cases hidle
  rw [hheld, Option.some.injEq] at hother
  rw [← hother] at htable hmem
  refine ⟨?_, ?_, h.unique, h.below, h.outside, ?_, h.shared⟩
  · intro moved movedThread hmoved
    have hset := getElem?_set_thread hthread { thread with pc := .ended } moved
    rw [turn, close, hset] at hmoved
    split at hmoved
    case isTrue heq =>
      rw [Option.some.injEq] at hmoved
      rw [← hmoved]
      exact ⟨rfl, .inl rfl⟩
    case isFalse hne =>
      obtain ⟨hsound, hwork⟩ := h.threads moved movedThread hmoved
      refine ⟨hsound, hwork.imp_right ?_⟩
      rintro ⟨own, hown, hownTable, hownMem⟩
      have hnumber : own.number ≠ socket.number := by
        intro heq
        rw [heq, htable, Option.some.injEq] at hownTable
        exact hne (h.unique _ hownMem _ hmem hownTable.symm)
      exact ⟨own, hown, (Function.update_of_ne hnumber _ _).trans hownTable, hownMem⟩
  · intro entry hentry
    obtain ⟨owner, howner, haccounted⟩ := h.obtained entry hentry
    by_cases heq : entry.1 = key
    · rw [heq, hthread, Option.some.injEq] at howner
      rw [← howner, hheld, hpc] at haccounted
      rcases haccounted with ⟨hserial, hcount⟩ | ⟨hended, -⟩
      · rw [Option.map_some, Option.some.injEq] at hserial
        have hself : ((pool.close key socket).turn key thread .ended).threads[entry.1]? =
            some { thread with pc := .ended } := by
          rw [heq]
          exact List.getElem?_set_self (List.getElem?_eq_some_iff.mp hthread).1
        refine ⟨_, hself, .inr ⟨rfl, ?_⟩⟩
        exact (closeCount_close pool key socket entry.2).trans (by rw [hcount, if_pos hserial])
      · cases hended
    · have hserial : socket.serial ≠ entry.2 :=
        fun hsame ↦ heq (h.unique entry hentry _ hmem hsame.symm)
      have hcount : (pool.close key socket).closeCount entry.2 = pool.closeCount entry.2 := by
        rw [closeCount_close, if_neg hserial, Nat.add_zero]
      refine ⟨owner, (List.getElem?_set_ne (Ne.symm heq)).trans howner, ?_⟩
      exact haccounted.imp (fun hopen ↦ ⟨hopen.1, hcount.trans hopen.2⟩)
        fun hdone ↦ ⟨hdone.1, hcount.trans hdone.2⟩
  · intro call hcall
    rcases List.mem_append.mp hcall with hold | hnew
    · exact h.closes call hold
    · rw [List.mem_singleton] at hnew
      rw [hnew]
      exact ⟨htable, hmem⟩

/-- A queue that `tg_queue_new` makes. -/
theorem Kept.request (h : pool.Kept) (account : ℕ) :
    Kept { pool with threads := pool.threads ++ [⟨account, none, .start⟩] } := by
  refine ⟨fun key thread hthread ↦ ?_, fun entry hentry ↦ ?_, h.unique, h.below, h.outside,
    h.closes, h.shared⟩
  · rw [List.getElem?_append] at hthread
    split at hthread
    case isTrue => exact h.threads key thread hthread
    case isFalse =>
      rw [List.getElem?_singleton] at hthread
      split at hthread
      case isTrue =>
        rw [Option.some.injEq] at hthread
        rw [← hthread]
        exact ⟨rfl, .inl rfl⟩
      case isFalse => cases hthread
  · obtain ⟨owner, howner, haccounted⟩ := h.obtained entry hentry
    have hlength := (List.getElem?_eq_some_iff.mp howner).1
    exact ⟨owner, (List.getElem?_append_left hlength).trans howner, haccounted⟩

/-- A descriptor that is opened elsewhere. -/
theorem Kept.openOutside (h : pool.Kept) {number : ℕ} (hfree : pool.table number = none) :
    Kept { pool.allotted number with outside := pool.serials :: pool.outside } := by
  have hallotted := h.allotted hfree
  refine ⟨hallotted.threads, hallotted.obtained, hallotted.unique, hallotted.below, ?_,
    hallotted.closes, hallotted.shared⟩
  intro serial hserial
  rcases List.mem_cons.mp hserial with rfl | hold
  · exact ⟨Nat.lt_succ_self _, fun entry hentry ↦ (h.below entry hentry).ne⟩
  · exact hallotted.outside serial hold

/-- A descriptor that is closed elsewhere. -/
theorem Kept.closeOutside (h : pool.Kept) {number : ℕ}
    (houtside : (pool.table number).any (· ∈ pool.outside) = true) :
    Kept { pool with table := Function.update pool.table number none } := by
  refine ⟨fun key thread hthread ↦ ?_, h.obtained, h.unique, h.below, h.outside, h.closes,
    h.shared⟩
  obtain ⟨hsound, hwork⟩ := h.threads key thread hthread
  refine ⟨hsound, hwork.imp_right fun ⟨socket, hheld, htable, hmem⟩ ↦ ⟨socket, hheld, ?_, hmem⟩⟩
  have hne : socket.number ≠ number := by
    rintro rfl
    rw [htable, Option.any_some, decide_eq_true_eq] at houtside
    exact (h.outside _ houtside).2 _ hmem rfl
  exact (Function.update_of_ne hne _ _).trans htable

/-- The fields that the sockets do not depend on. -/
theorem Kept.congr {other : SocketPool} (h : pool.Kept) (hthreads : other.threads = pool.threads)
    (htable : other.table = pool.table) (hserials : other.serials = pool.serials)
    (houtside : other.outside = pool.outside) (hobtained : other.obtained = pool.obtained)
    (hcloses : other.closes = pool.closes) (hshared : other.shared = pool.shared) :
    other.Kept := by
  cases pool
  cases other
  subst hthreads htable hserials houtside hobtained hcloses hshared
  exact ⟨h.threads, h.obtained, h.unique, h.below, h.outside, h.closes, h.shared⟩

theorem Kept.lock (h : pool.Kept) (account : ℕ) (locked : Bool) :
    (pool.lock account locked).Kept := h.congr rfl rfl rfl rfl rfl rfl rfl

/-- A thread at work goes on with its socket. -/
theorem Kept.turn (h : pool.Kept) (hthread : pool.threads[key]? = some thread) {pc : SocketPc}
    (hheld : SocketThread.held { thread with pc := pc } = thread.held) (hsound : pc.isSound = true)
    (hidle : thread.pc.isIdle = false) : (pool.turn key thread pc).Kept := by
  apply h.move hthread hheld hsound
  · intro hother
    rw [hidle] at hother
    cases hother
  · intro hended
    rw [hended] at hidle
    cases hidle

/-- A step of a thread that is not disturbed. -/
theorem Kept.step (h : pool.Kept) (hthread : pool.threads[key]? = some thread) {move : SocketMove}
    {next : SocketPool} (hstep : socketStep pool key thread thread.pc move = some next)
    (hundisturbed : Undisturbed pool (.run key move)) : next.Kept := by
  have hsound := (h.threads key thread hthread).1
  have hheld {pc pc' : SocketPc} (hpc : thread.pc = pc)
      (hsame : SocketThread.held { thread with pc := pc' } =
        SocketThread.held { thread with pc := pc }) :
      SocketThread.held { thread with pc := pc' } = thread.held := by
    rw [hsame, ← hpc]
  unfold socketStep at hstep
  split at hstep
  case h_1 hpc =>
    rw [← Option.some.inj hstep]
    exact h.move hthread (hheld hpc rfl) rfl (fun _ ↦ rfl) (by simp [hpc])
  case h_2 hpc =>
    rw [← Option.some.inj hstep]
    have hnone : thread.held = none := by rw [SocketThread.held, hpc]
    exact h.move hthread hnone.symm rfl (fun _ ↦ rfl) (by simp [hpc])
  case h_3 hpc =>
    obtain ⟨opened, hallot, hnext⟩ := Option.bind_eq_some_iff.mp hstep
    obtain ⟨hfree, rfl⟩ := allot_eq_some_iff.mp hallot
    rw [← Option.some.inj hnext]
    exact h.opened hthread hpc hfree
  case h_4 opened hpc =>
    rw [← Option.some.inj hstep]
    have hsocket : thread.held = some opened := by rw [SocketThread.held, hpc]
    exact h.move hthread hsocket.symm rfl (by simp [hpc, SocketPc.isIdle]) (by simp [hpc])
  case h_5 => cases hundisturbed
  case h_6 hpc =>
    rw [← Option.some.inj hstep]
    exact h.turn hthread (hheld hpc rfl) rfl (by rw [hpc]; rfl)
  case h_7 hpc =>
    split at hstep
    case isTrue => exact Option.some.inj hstep ▸ h
    case isFalse =>
      rw [← Option.some.inj hstep]
      exact (h.lock _ _).turn hthread (hheld hpc rfl) rfl (by rw [hpc]; rfl)
  case h_8 hpc =>
    split at hstep
    case isTrue =>
      rw [← Option.some.inj hstep]
      exact (h.lock _ _).turn hthread (hheld hpc rfl) rfl (by rw [hpc]; rfl)
    case isFalse => cases hstep
  case h_9 hpc => exact absurd hpc (hundisturbed thread hthread)
  case h_10 hpc => exact absurd hpc (hundisturbed thread hthread)
  case h_11 hpc =>
    rw [hpc] at hsound
    cases hsound
  case h_12 ok hpc =>
    have hok : ok = true := hundisturbed
    rw [← Option.some.inj hstep, hok]
    exact h.turn hthread (hheld hpc rfl) rfl (by rw [hpc]; rfl)
  case h_13 ok hpc =>
    have hok : ok = true := hundisturbed
    rw [← Option.some.inj hstep, hok]
    exact h.turn hthread (hheld hpc rfl) rfl (by rw [hpc]; rfl)
  case h_14 hpc =>
    rw [hpc] at hsound
    cases hsound
  case h_15 loop hpc =>
    rw [← Option.some.inj hstep]
    cases loop with
    | true => exact h.turn hthread (hheld hpc rfl) rfl (by rw [hpc]; rfl)
    | false => exact h.turn hthread (hheld hpc rfl) rfl (by rw [hpc]; rfl)
  case h_16 hpc =>
    rw [← Option.some.inj hstep]
    exact h.turn hthread (hheld hpc rfl) rfl (by rw [hpc]; rfl)
  case h_17 hpc =>
    rw [← Option.some.inj hstep]
    exact h.turn hthread (hheld hpc rfl) rfl (by rw [hpc]; rfl)
  case h_18 _ _ hpc =>
    rw [← Option.some.inj hstep]
    exact h.turn hthread (hheld hpc rfl) rfl (by rw [hpc]; rfl)
  case h_19 hpc =>
    rw [← Option.some.inj hstep]
    obtain ⟨-, hidle | ⟨socket, hsocket, -⟩⟩ := h.threads key thread hthread
    · rw [hpc] at hidle
      cases hidle
    · have hown : thread.socket = some socket := by
        rw [SocketThread.held, hpc] at hsocket
        exact hsocket
      rw [hown, Option.elim_some]
      exact h.closed hthread hpc hown
  case h_20 => cases hstep

end SocketPool

/-! ## What a disturbed step does for good -/

namespace SocketPool

variable {pool next : SocketPool} {key : ℕ} {thread moved : SocketThread}

/-- What any step of a thread does to its place, the sockets and the counts. -/
structure StepOf (pool : SocketPool) (key : ℕ) (thread moved : SocketThread) (next : SocketPool) :
    Prop where
  threads : next.threads = pool.threads.set key moved
  serials : pool.serials ≤ next.serials
  obtained : ∀ entry ∈ pool.obtained, entry ∈ next.obtained
  shared : ∀ socket ∈ next.shared, socket ∈ pool.shared ∨ socket.serial = pool.serials
  held : ∀ socket ∈ moved.held, socket.serial = pool.serials ∨
    if thread.pc = .installing then socket ∈ pool.shared else socket ∈ thread.held
  closes : ∀ serial, next.closeCount serial = pool.closeCount serial +
    if (thread.pc = .failing ∨ thread.pc = .closing) ∧
      thread.socket.map Descriptor.serial = some serial then 1 else 0
  failing : thread.pc = .failing → moved.pc = .closing ∧ moved.socket = thread.socket

/-- A step that closes nothing. -/
theorem StepOf.quiet (hpc : thread.pc ≠ .failing ∧ thread.pc ≠ .closing)
    (hthreads : next.threads = pool.threads.set key moved) (hserials : pool.serials ≤ next.serials)
    (hobtained : ∀ entry ∈ pool.obtained, entry ∈ next.obtained)
    (hshared : ∀ socket ∈ next.shared, socket ∈ pool.shared ∨ socket.serial = pool.serials)
    (hheld : ∀ socket ∈ moved.held, socket.serial = pool.serials ∨
      if thread.pc = .installing then socket ∈ pool.shared else socket ∈ thread.held)
    (hcloses : next.closes = pool.closes) : StepOf pool key thread moved next where
  threads := hthreads
  serials := hserials
  obtained := hobtained
  shared := hshared
  held := hheld
  closes serial := by
    have hnot : ¬ (thread.pc = .failing ∨ thread.pc = .closing) := not_or.mpr hpc
    rw [if_neg fun h ↦ hnot h.1, closeCount, closeCount, hcloses, Nat.add_zero]
  failing h := absurd h hpc.1

/-- A step that closes the socket of the queue. -/
theorem StepOf.close (hpc : thread.pc = .failing ∨ thread.pc = .closing) {pc : SocketPc}
    (hheld : ∀ socket ∈ SocketThread.held { thread with pc := pc }, socket ∈ thread.held)
    (hfailing : thread.pc = .failing → pc = .closing) :
    StepOf pool key thread { thread with pc := pc }
      ((thread.socket.elim pool fun socket ↦ pool.close key socket).turn key thread pc) := by
  have hinstalling : thread.pc ≠ .installing := by
    rintro heq
    simp [heq] at hpc
  have hown : ∀ socket ∈ SocketThread.held { thread with pc := pc }, socket.serial = pool.serials ∨
      if thread.pc = .installing then socket ∈ pool.shared else socket ∈ thread.held := by
    exact fun socket h ↦ .inr (by rw [if_neg hinstalling]; exact hheld socket h)
  obtain ⟨account, socket, place⟩ := thread
  cases socket with
  | none =>
    refine ⟨rfl, le_rfl, fun _ h ↦ h, fun _ h ↦ .inl h, hown,
      fun serial ↦ ?_, fun h ↦ ⟨hfailing h, rfl⟩⟩
    rw [if_neg fun h ↦ nomatch h.2]
    rfl
  | some socket =>
    refine ⟨rfl, le_rfl, fun _ h ↦ h, fun _ h ↦ .inl h, hown,
      fun serial ↦ ?_, fun h ↦ ⟨hfailing h, rfl⟩⟩
    refine (closeCount_close pool key socket serial).trans ?_
    simp only [hpc, true_and, Option.map_some, Option.some.injEq]

/-- A step that moves the thread on and perhaps a lock. -/
theorem StepOf.turn {pc : SocketPc}
    (hpc : thread.pc ≠ .failing ∧ thread.pc ≠ .closing ∧ thread.pc ≠ .installing)
    (hheld : ∀ socket ∈ SocketThread.held { thread with pc := pc }, socket ∈ thread.held)
    (locked : ℕ → Bool) :
    StepOf pool key thread { thread with pc := pc }
      (SocketPool.turn { pool with locked := locked } key thread pc) :=
  .quiet ⟨hpc.1, hpc.2.1⟩ rfl le_rfl (fun _ h ↦ h) (fun _ h ↦ .inl h)
    (fun socket h ↦ .inr (by rw [if_neg hpc.2.2]; exact hheld socket h)) rfl

/-- The thread ends before it has a socket. -/
theorem StepOf.ended (hpc : thread.pc ≠ .failing ∧ thread.pc ≠ .closing) (socket : Option Descriptor) :
    StepOf pool key thread { thread with socket := socket, pc := .ended }
      (pool.assign key thread socket .ended) :=
  .quiet hpc rfl le_rfl (fun _ h ↦ h) (fun _ h ↦ .inl h) nofun rfl

/-- `socket` for the queue. -/
theorem StepOf.opened (hpc : thread.pc = .start) (number : ℕ) :
    StepOf pool key thread { thread with pc := .connecting (pool.fresh number) }
      (((pool.allotted number).obtain key (pool.fresh number)).turn key thread
        (.connecting (pool.fresh number))) := by
  refine .quiet (by simp [hpc]) rfl (Nat.le_succ _) (fun _ h ↦ List.mem_append_left _ h)
    (fun _ h ↦ .inl h) ?_ rfl
  rintro socket ⟨⟩
  exact .inl rfl

/-- `queue->socket` gets the socket that is connected. -/
theorem StepOf.connected {opened : Descriptor} (hpc : thread.pc = .connecting opened) :
    StepOf pool key thread { thread with socket := some opened, pc := .locking }
      (pool.assign key thread (some opened) .locking) := by
  refine .quiet (by simp [hpc]) rfl le_rfl (fun _ h ↦ h) (fun _ h ↦ .inl h) ?_ rfl
  rintro socket ⟨⟩
  rw [if_neg (by simp [hpc]), SocketThread.held, hpc]
  exact .inr rfl

/-- The socket of the negotiation takes the place of the shared one. -/
theorem StepOf.replaced (hpc : thread.pc = .preparing) {other : SocketPool}
    (hsame : other.threads = pool.threads ∧ other.obtained = pool.obtained ∧
      other.closes = pool.closes) (hserials : pool.serials ≤ other.serials)
    (hshared : ∀ socket ∈ other.shared, socket.serial = pool.serials) :
    StepOf pool key thread { thread with pc := .installing } (other.turn key thread .installing) := by
  refine .quiet (by simp [hpc]) (congrArg (List.set · key _) hsame.1) hserials
    (fun _ h ↦ hsame.2.1 ▸ h) (fun socket h ↦ .inr (hshared socket h)) (fun socket h ↦ .inr ?_)
    hsame.2.2
  rw [if_neg (by simp [hpc]), SocketThread.held, hpc]
  exact h

/-- `queue->socket` gets the shared socket. -/
theorem StepOf.installed (hpc : thread.pc = .installing) (locked keyed : ℕ → Bool) :
    StepOf pool key thread { thread with socket := pool.shared, pc := .querying }
      (SocketPool.assign
        { pool.shared.elim pool fun socket ↦ pool.obtain key socket with
          locked := locked, keyed := keyed } key thread pool.shared .querying) := by
  cases hshared : pool.shared with
  | none =>
    exact .quiet (by simp [hpc]) rfl le_rfl (fun _ h ↦ h) (fun _ h ↦ .inl h) nofun rfl
  | some socket =>
    refine .quiet (by simp [hpc]) rfl le_rfl (fun _ h ↦ List.mem_append_left _ h)
      (fun _ h ↦ .inl h) ?_ rfl
    rintro other ⟨⟩
    rw [if_pos hpc]
    exact .inr hshared

/-- What a step of a thread does, unless it waits for a lock. -/
theorem socketStep_cases {move : SocketMove}
    (hstep : socketStep pool key thread thread.pc move = some next) :
    next = pool ∨ ∃ moved, StepOf pool key thread moved next := by
  have hturn {pc pc' : SocketPc} (hpc : thread.pc = pc) {locked : ℕ → Bool}
      (hheld : SocketThread.held { thread with pc := pc' } =
        SocketThread.held { thread with pc := pc } := by rfl)
      (hne : pc ≠ .failing ∧ pc ≠ .closing ∧ pc ≠ .installing := by decide) :
      ∃ moved, StepOf pool key thread moved
        (SocketPool.turn { pool with locked := locked } key thread pc') := by
    subst hpc
    exact ⟨_, .turn hne (fun _ h ↦ hheld ▸ h) locked⟩
  unfold socketStep at hstep
  split at hstep
  case h_1 hpc =>
    rw [← Option.some.inj hstep]
    exact .inr ⟨_, .ended (by simp [hpc]) thread.socket⟩
  case h_2 hpc | h_5 hpc =>
    rw [← Option.some.inj hstep]
    exact .inr ⟨_, .ended (by simp [hpc]) none⟩
  case h_3 number hpc =>
    obtain ⟨opened, hallot, hnext⟩ := Option.bind_eq_some_iff.mp hstep
    obtain ⟨-, rfl⟩ := allot_eq_some_iff.mp hallot
    rw [← Option.some.inj hnext]
    exact .inr ⟨_, .opened hpc number⟩
  case h_4 opened hpc =>
    rw [← Option.some.inj hstep]
    exact .inr ⟨_, .connected hpc⟩
  case h_6 hpc =>
    rw [← Option.some.inj hstep]
    exact .inr (hturn hpc)
  case h_7 hpc =>
    split at hstep
    case isTrue => exact .inl (Option.some.inj hstep).symm
    case isFalse =>
      rw [← Option.some.inj hstep]
      exact .inr (hturn hpc)
  case h_8 hpc =>
    split at hstep
    case isTrue =>
      rw [← Option.some.inj hstep]
      exact .inr (hturn hpc)
    case isFalse => cases hstep
  case h_9 hpc =>
    split at hstep
    case isTrue => cases hstep
    case isFalse =>
      rw [← Option.some.inj hstep]
      exact .inr ⟨_, .replaced hpc ⟨rfl, rfl, rfl⟩ le_rfl nofun⟩
  case h_10 number hpc =>
    split at hstep
    case isTrue => cases hstep
    case isFalse =>
      obtain ⟨opened, hallot, hnext⟩ := Option.bind_eq_some_iff.mp hstep
      obtain ⟨-, rfl⟩ := allot_eq_some_iff.mp hallot
      rw [← Option.some.inj hnext]
      refine .inr ⟨_, .replaced hpc ⟨rfl, rfl, rfl⟩ (Nat.le_succ _) ?_⟩
      rintro socket ⟨⟩
      rfl
  case h_11 present hpc =>
    rw [← Option.some.inj hstep]
    exact .inr ⟨_, .installed hpc _ _⟩
  case h_12 ok hpc | h_13 ok hpc | h_15 ok hpc =>
    rw [← Option.some.inj hstep]
    cases ok <;> exact .inr (hturn hpc)
  case h_14 hpc =>
    rw [← Option.some.inj hstep]
    exact .inr ⟨_, .close (.inl hpc) (fun socket h ↦ by rw [SocketThread.held, hpc]; exact h)
      fun _ ↦ rfl⟩
  case h_16 hpc | h_17 hpc | h_18 _ _ hpc =>
    rw [← Option.some.inj hstep]
    exact .inr (hturn hpc)
  case h_19 hpc =>
    rw [← Option.some.inj hstep]
    exact .inr ⟨_, .close (.inr hpc) nofun fun h ↦ by rw [hpc] at h; cases h⟩
  case h_20 => cases hstep

/-- A socket that nobody will close: no thread has it, except the one that is about to lose it. -/
structure Leaked (pool : SocketPool) (key serial : ℕ) : Prop where
  below : serial < pool.serials
  count : pool.closeCount serial = 0
  shared : ∀ socket ∈ pool.shared, socket.serial ≠ serial
  held : ∀ other thread, pool.threads[other]? = some thread →
    other = key ∧ thread.pc = .installing ∨ ∀ socket ∈ thread.held, socket.serial ≠ serial

/-- A socket that is closed twice in the end: its thread is about to close it before it comes to the
close at its end, or has done so, or both is past. -/
def Twice (pool : SocketPool) (key serial : ℕ) : Prop :=
  2 ≤ pool.closeCount serial ∨ ∃ thread, pool.threads[key]? = some thread ∧
    thread.socket.map Descriptor.serial = some serial ∧
      (thread.pc = .failing ∨ thread.pc = .closing ∧ 1 ≤ pool.closeCount serial)

/-- A queue has obtained a socket that is not closed exactly once in the end. -/
def Doomed (pool : SocketPool) : Prop :=
  ∃ key serial, (key, serial) ∈ pool.obtained ∧ (pool.threads[key]?).isSome = true ∧
    (pool.Leaked key serial ∨ pool.Twice key serial)

theorem Leaked.stepOf {serial own : ℕ} (h : pool.Leaked own serial)
    (hthread : pool.threads[key]? = some thread) (hstep : StepOf pool key thread moved next) :
    next.Leaked own serial := by
  have hfree := h.held key thread hthread
  have hclosing : ¬ ((thread.pc = .failing ∨ thread.pc = .closing) ∧
      thread.socket.map Descriptor.serial = some serial) := by
    rintro ⟨hpc, hsocket⟩
    obtain ⟨socket, hsome, hserial⟩ := Option.map_eq_some_iff.mp hsocket
    have hheld : thread.held = some socket := by
      rcases hpc with hpc | hpc
      · rw [SocketThread.held, hpc]; exact hsome
      · rw [SocketThread.held, hpc]; exact hsome
    rcases hfree with ⟨-, hinstalling⟩ | hother
    · rw [hinstalling] at hpc
      simp at hpc
    · exact hother socket hheld hserial
  refine ⟨h.below.trans_le hstep.serials, ?_, fun socket hsocket ↦ ?_,
    fun other place hplace ↦ ?_⟩
  · rw [hstep.closes, if_neg hclosing, h.count]
  · rcases hstep.shared socket hsocket with hold | hnew
    · exact h.shared socket hold
    · rw [hnew]
      exact h.below.ne'
  · rw [hstep.threads, getElem?_set_thread hthread] at hplace
    split at hplace
    case isTrue heq =>
      rw [Option.some.injEq] at hplace
      rw [← hplace]
      refine .inr fun socket hsocket ↦ ?_
      rcases hstep.held socket hsocket with hnew | hold
      · rw [hnew]
        exact h.below.ne'
      · split at hold
        case isTrue => exact h.shared socket hold
        case isFalse hinstalling =>
          exact (hfree.resolve_left fun hboth ↦ hinstalling hboth.2) socket hold
    case isFalse => exact h.held other place hplace

theorem Twice.stepOf {serial own : ℕ} (h : pool.Twice own serial)
    (hthread : pool.threads[key]? = some thread) (hstep : StepOf pool key thread moved next) :
    next.Twice own serial := by
  have hgrows : pool.closeCount serial ≤ next.closeCount serial := by
    rw [hstep.closes]
    exact Nat.le_add_right _ _
  rcases h with htwice | ⟨place, hplace, hsocket, hpc⟩
  · exact .inl (htwice.trans hgrows)
  · by_cases heq : own = key
    · rw [heq, hthread, Option.some.injEq] at hplace
      rw [← hplace] at hsocket hpc
      have hcount : next.closeCount serial = pool.closeCount serial + 1 := by
        rw [hstep.closes, if_pos ⟨hpc.imp_right And.left, hsocket⟩]
      rcases hpc with hfailing | ⟨-, hclosed⟩
      · obtain ⟨hclosing, hkept⟩ := hstep.failing hfailing
        refine .inr ⟨moved, ?_, hkept ▸ hsocket, .inr ⟨hclosing, by omega⟩⟩
        rw [hstep.threads, getElem?_set_thread hthread, if_pos heq]
      · exact .inl (by omega)
    · refine .inr ⟨place, ?_, hsocket, hpc.imp_right fun hclosing ↦
        ⟨hclosing.1, hclosing.2.trans hgrows⟩⟩
      rw [hstep.threads, getElem?_set_thread hthread, if_neg heq, hplace]

theorem Doomed.stepOf (h : pool.Doomed) (hthread : pool.threads[key]? = some thread)
    (hstep : StepOf pool key thread moved next) : next.Doomed := by
  obtain ⟨own, serial, hmem, hsome, hdoom⟩ := h
  refine ⟨own, serial, hstep.obtained _ hmem, ?_, hdoom.imp
    (fun hleaked ↦ hleaked.stepOf hthread hstep) fun htwice ↦ htwice.stepOf hthread hstep⟩
  rw [hstep.threads, getElem?_set_thread hthread]
  split
  case isTrue => rfl
  case isFalse => exact hsome

/-- A step of another part of the program, which may add a thread at its start. -/
theorem Doomed.other (h : pool.Doomed) (hserials : pool.serials ≤ next.serials)
    (hobtained : next.obtained = pool.obtained) (hcloses : next.closes = pool.closes)
    (hshared : next.shared = pool.shared)
    (hthreads : ∀ (key : ℕ) (thread : SocketThread), next.threads[key]? = some thread →
      pool.threads[key]? = some thread ∨ thread.held = none)
    (hkept : ∀ (key : ℕ) (thread : SocketThread), pool.threads[key]? = some thread → next.threads[key]? = some thread) :
    next.Doomed := by
  obtain ⟨own, serial, hmem, hsome, hdoom⟩ := h
  have hcount (serial : ℕ) : next.closeCount serial = pool.closeCount serial := by
    rw [closeCount, closeCount, hcloses]
  obtain ⟨thread, hthread⟩ := Option.isSome_iff_exists.mp hsome
  refine ⟨own, serial, hobtained ▸ hmem, by rw [hkept own thread hthread]; rfl, hdoom.imp ?_ ?_⟩
  · intro hleaked
    refine ⟨hleaked.below.trans_le hserials, (hcount serial).trans hleaked.count,
      hshared ▸ hleaked.shared, fun key place hplace ↦ ?_⟩
    rcases hthreads key place hplace with hold | hnone
    · exact hleaked.held key place hold
    · rw [hnone]
      exact .inr nofun
  · rintro (htwice | ⟨place, hplace, hsocket, hpc⟩)
    · exact .inl (hcount serial ▸ htwice)
    · refine .inr ⟨place, hkept own place hplace, hsocket, hpc.imp_right fun hclosing ↦ ?_⟩
      exact ⟨hclosing.1, hcount serial ▸ hclosing.2⟩

/-- A socket that is not closed once is one that its queue does not close once. -/
theorem Doomed.not_closesOnce (h : pool.Doomed)
    (hended : ∀ thread ∈ pool.threads, thread.pc = .ended) : ¬ pool.ClosesOnce := by
  intro honce
  obtain ⟨own, serial, hmem, hsome, hdoom⟩ := h
  obtain ⟨thread, hthread⟩ := Option.isSome_iff_exists.mp hsome
  have hpc := hended thread (List.mem_of_getElem? hthread)
  have hcount := honce.once _ hmem (by rw [Ended, hthread, Option.map_some, hpc])
  rcases hdoom with hleaked | htwice | ⟨place, hplace, -, hclosing⟩
  · rw [hleaked.count] at hcount
    cases hcount
  · rw [hcount] at htwice
    exact absurd htwice (by decide)
  · rw [hthread, Option.some.injEq] at hplace
    rw [← hplace, hpc] at hclosing
    simp at hclosing

/-- The socket of a thread at work is one that it has obtained and nobody has closed. -/
theorem Kept.of_held (h : pool.Kept) (hthread : pool.threads[key]? = some thread)
    {socket : Descriptor} (hheld : thread.held = some socket) :
    (key, socket.serial) ∈ pool.obtained ∧ pool.closeCount socket.serial = 0 := by
  obtain ⟨-, hidle | ⟨own, hown, -, hmem⟩⟩ := h.threads key thread hthread
  · rw [SocketThread.held_of_isIdle hidle] at hheld
    cases hheld
  · rw [hheld, Option.some.injEq] at hown
    rw [← hown] at hmem
    refine ⟨hmem, ?_⟩
    obtain ⟨owner, howner, ⟨-, hcount⟩ | ⟨hended, -⟩⟩ := h.obtained _ hmem
    · exact hcount
    · rw [hthread, Option.some.injEq] at howner
      rw [SocketThread.held, howner, hended] at hheld
      cases hheld

/-- No other thread has the socket of a thread at work. -/
theorem Kept.held_ne (h : pool.Kept) (hthread : pool.threads[key]? = some thread)
    {socket : Descriptor} (hheld : thread.held = some socket) {other : ℕ} {place : SocketThread}
    (hplace : pool.threads[other]? = some place) (hne : other ≠ key) :
    ∀ found ∈ place.held, found.serial ≠ socket.serial := by
  intro found hfound heq
  have hmem := (h.of_held hthread hheld).1
  have hother := (h.of_held hplace hfound).1
  exact hne (h.unique _ hother _ hmem heq)

/-- A thread that gives its socket up without closing it. -/
theorem Kept.leaked (h : pool.Kept) (hthread : pool.threads[key]? = some thread)
    {socket : Descriptor} (hheld : thread.held = some socket)
    (hthreads : next.threads = pool.threads.set key moved) (hserials : pool.serials ≤ next.serials)
    (hobtained : next.obtained = pool.obtained) (hcloses : next.closes = pool.closes)
    (hshared : ∀ found ∈ next.shared, found.serial = pool.serials)
    (hmoved : moved.pc = .installing ∨ moved.held = none) : next.Doomed := by
  obtain ⟨hmem, hcount⟩ := h.of_held hthread hheld
  have hbelow := h.below _ hmem
  refine ⟨key, socket.serial, hobtained ▸ hmem, ?_, .inl ⟨hbelow.trans_le hserials, ?_,
    fun found hfound ↦ ?_, fun other place hplace ↦ ?_⟩⟩
  · rw [hthreads, getElem?_set_thread hthread, if_pos rfl]
    rfl
  · rw [closeCount, hcloses]
    exact hcount
  · rw [hshared found hfound]
    exact hbelow.ne'
  · rw [hthreads, getElem?_set_thread hthread] at hplace
    split at hplace
    case isTrue heq =>
      rw [Option.some.injEq] at hplace
      rw [← hplace]
      refine hmoved.imp (fun hpc ↦ ⟨heq, hpc⟩) fun hnone ↦ ?_
      rw [hnone]
      exact nofun
    case isFalse hne => exact .inr (h.held_ne hthread hheld hplace hne)

/-- A thread that is about to close its socket too early. -/
theorem Kept.twice (h : pool.Kept) (hthread : pool.threads[key]? = some thread)
    (hidle : thread.pc.isIdle = false) (hsocket : thread.held = thread.socket) :
    (pool.turn key thread .failing).Doomed := by
  obtain ⟨-, hnot | ⟨socket, hheld, -, hmem⟩⟩ := h.threads key thread hthread
  · rw [hidle] at hnot
    cases hnot
  have hself : (pool.turn key thread .failing).threads[key]? =
      some { thread with pc := .failing } :=
    (getElem?_set_thread hthread _ key).trans (if_pos rfl)
  refine ⟨key, socket.serial, hmem, by rw [hself]; rfl, .inr (.inr ⟨_, hself, ?_, .inl rfl⟩)⟩
  rw [← hsocket, hheld, Option.map_some]

/-- A disturbed step cannot be made good. -/
theorem Kept.disturbed (h : pool.Kept) {label : SocketLabel}
    (hstep : socketPoolStep pool label = some next) (hdisturbed : ¬ Undisturbed pool label) :
    next.Doomed := by
  unfold Undisturbed at hdisturbed
  split at hdisturbed
  case h_1 key ok =>
    obtain ⟨thread, hthread, hmove⟩ := Option.bind_eq_some_iff.mp hstep
    rw [Bool.eq_false_iff.mpr hdisturbed] at hmove
    cases hpc : thread.pc with
    | connecting opened =>
      rw [hpc] at hmove
      have hheld : thread.held = some opened := by rw [SocketThread.held, hpc]
      rw [← Option.some.inj hmove]
      refine h.leaked hthread hheld rfl le_rfl rfl rfl ?_ (.inr rfl)
      rw [assign, h.shared]
      exact nofun
    | _ => rw [hpc] at hmove; cases hmove
  case h_2 key number =>
    obtain ⟨thread, hthread, hmove⟩ := Option.bind_eq_some_iff.mp hstep
    have hpc : thread.pc = .preparing := by
      by_contra hne
      exact hdisturbed fun other hother ↦ by
        rw [hthread, Option.mem_some_iff] at hother
        exact hother ▸ hne
    obtain ⟨-, hidle | ⟨socket, hheld, -⟩⟩ := h.threads key thread hthread
    · rw [hpc] at hidle
      cases hidle
    rw [hpc] at hmove
    cases number with
    | none =>
      rw [socketStep] at hmove
      split at hmove
      case isTrue => cases hmove
      case isFalse =>
        rw [← Option.some.inj hmove]
        exact h.leaked hthread hheld rfl le_rfl rfl rfl nofun (.inl rfl)
    | some number =>
      rw [socketStep] at hmove
      split at hmove
      case isTrue => cases hmove
      case isFalse =>
        obtain ⟨opened, hallot, hnext⟩ := Option.bind_eq_some_iff.mp hmove
        obtain ⟨-, rfl⟩ := allot_eq_some_iff.mp hallot
        rw [← Option.some.inj hnext]
        refine h.leaked hthread hheld rfl (Nat.le_succ _) rfl rfl ?_ (.inl rfl)
        rintro found ⟨⟩
        rfl
  case h_3 key ok =>
    obtain ⟨thread, hthread, hmove⟩ := Option.bind_eq_some_iff.mp hstep
    rw [Bool.eq_false_iff.mpr hdisturbed] at hmove
    cases hpc : thread.pc with
    | querying =>
      rw [hpc] at hmove
      rw [← Option.some.inj hmove]
      exact h.twice hthread (by rw [hpc]; rfl) (by rw [SocketThread.held, hpc])
    | _ => rw [hpc] at hmove; cases hmove
  case h_4 key ok =>
    obtain ⟨thread, hthread, hmove⟩ := Option.bind_eq_some_iff.mp hstep
    rw [Bool.eq_false_iff.mpr hdisturbed] at hmove
    cases hpc : thread.pc with
    | sending =>
      rw [hpc] at hmove
      rw [← Option.some.inj hmove]
      exact h.twice hthread (by rw [hpc]; rfl) (by rw [SocketThread.held, hpc])
    | _ => rw [hpc] at hmove; cases hmove
  case h_5 => exact absurd trivial hdisturbed

/-- No step makes good what has been done. -/
theorem Doomed.step (h : pool.Doomed) {label : SocketLabel}
    (hstep : socketPoolStep pool label = some next) : next.Doomed := by
  cases label with
  | request account =>
    rw [← Option.some.inj hstep]
    refine h.other le_rfl rfl rfl rfl (fun key thread hthread ↦ ?_) fun key thread hthread ↦ ?_
    · rw [List.getElem?_append] at hthread
      split at hthread
      case isTrue => exact .inl hthread
      case isFalse =>
        rw [List.getElem?_singleton] at hthread
        split at hthread
        case isTrue =>
          rw [← Option.some.inj hthread]
          exact .inr rfl
        case isFalse => cases hthread
    · exact (List.getElem?_append_left (List.getElem?_eq_some_iff.mp hthread).1).trans hthread
  | run key move =>
    obtain ⟨thread, hthread, hmove⟩ := Option.bind_eq_some_iff.mp hstep
    rcases socketStep_cases hmove with rfl | ⟨moved, hof⟩
    · exact h
    · exact h.stepOf hthread hof
  | keyed account present =>
    rw [← Option.some.inj hstep]
    exact h.other le_rfl rfl rfl rfl (fun _ _ hthread ↦ .inl hthread) fun _ _ hthread ↦ hthread
  | openOutside number =>
    obtain ⟨opened, hallot, hnext⟩ := Option.bind_eq_some_iff.mp hstep
    obtain ⟨-, rfl⟩ := allot_eq_some_iff.mp hallot
    rw [← Option.some.inj hnext]
    exact h.other (Nat.le_succ _) rfl rfl rfl (fun _ _ hthread ↦ .inl hthread)
      fun _ _ hthread ↦ hthread
  | closeOutside number =>
    rw [socketPoolStep] at hstep
    split at hstep
    case isTrue =>
      rw [← Option.some.inj hstep]
      exact h.other le_rfl rfl rfl rfl (fun _ _ hthread ↦ .inl hthread) fun _ _ hthread ↦ hthread
    case isFalse => cases hstep

end SocketPool

/-! ## Every run -/

theorem kept_start : SocketPool.start.Kept where
  threads := nofun
  obtained := nofun
  unique := nofun
  below := nofun
  outside := nofun
  closes := nofun
  shared := rfl

theorem socketPoolStep_kept {pool next : SocketPool} {label : SocketLabel}
    (hstep : socketPoolStep pool label = some next) (hundisturbed : Undisturbed pool label)
    (h : pool.Kept) : next.Kept := by
  cases label with
  | request account => exact Option.some.inj hstep ▸ h.request account
  | run key move =>
    obtain ⟨thread, hthread, hthreadStep⟩ := Option.bind_eq_some_iff.mp hstep
    exact h.step hthread hthreadStep hundisturbed
  | keyed account present => exact Option.some.inj hstep ▸ h.congr rfl rfl rfl rfl rfl rfl rfl
  | openOutside number =>
    obtain ⟨opened, hallot, hnext⟩ := Option.bind_eq_some_iff.mp hstep
    obtain ⟨hfree, rfl⟩ := SocketPool.allot_eq_some_iff.mp hallot
    exact Option.some.inj hnext ▸ h.openOutside hfree
  | closeOutside number =>
    rw [socketPoolStep] at hstep
    split at hstep
    case isTrue houtside => exact Option.some.inj hstep ▸ h.closeOutside houtside
    case isFalse => cases hstep

/-- A run is undisturbed, or it ends with a socket that cannot be closed once any more. -/
theorem along_or_doomed {pool final : SocketPool} {labels : List SocketLabel} (h : pool.Kept)
    (hrun : run socketPoolStep pool labels = some final) :
    Along socketPoolStep Undisturbed pool labels ∨ final.Doomed := by
  induction labels generalizing pool with
  | nil => exact .inl trivial
  | cons label labels ih =>
    rw [run_cons, Option.bind_eq_some_iff] at hrun
    obtain ⟨next, hnext, hrest⟩ := hrun
    by_cases hundisturbed : Undisturbed pool label
    · refine (ih (socketPoolStep_kept hnext hundisturbed h) hrest).imp_left fun hlater ↦
        ⟨hundisturbed, fun other hother ↦ ?_⟩
      rw [hnext, Option.some.injEq] at hother
      exact hother ▸ hlater
    · exact .inr (run_invariant (fun hstep hdoomed ↦ hdoomed.step hstep) hrest
        (h.disturbed hnext hundisturbed))

/-- In every undisturbed run every socket of a queue is closed exactly once, by its own thread. A run
that has been disturbed and in which all threads have come to their end has not done so. -/
theorem run_closesOnce {final : SocketPool} {labels : List SocketLabel}
    (hrun : run socketPoolStep SocketPool.start labels = some final) :
    (Along socketPoolStep Undisturbed SocketPool.start labels →
      Always socketPoolStep SocketPool.ClosesOnce SocketPool.start labels) ∧
    ((∀ thread ∈ final.threads, thread.pc = .ended) → final.ClosesOnce →
      Along socketPoolStep Undisturbed SocketPool.start labels) := by
  constructor
  · exact fun hundisturbed ↦ always_of_invariant SocketPool.Kept.closesOnce socketPoolStep_kept
      hundisturbed kept_start
  · intro hended honce
    exact (along_or_doomed kept_start hrun).resolve_right fun hdoomed ↦
      hdoomed.not_closesOnce hended honce

/-- A queue that opens a socket with a number, sends, and has nothing more to receive. -/
def serves (key number : ℕ) : List SocketLabel :=
  [.opened (some number), .connected true, .locked true, .go, .prepared true, .sent true,
    .looped true, .received .exit, .go].map (.run key)

/-- Two queues, one after the other, get the same number for their sockets. -/
def servedTwice : List SocketLabel :=
  [.keyed 0 true, .request 0, .request 0] ++ serves 0 3 ++ serves 1 3

/-- The run is undisturbed, and all its threads come to their end. -/
theorem servedTwice_closesOnce :
    Along socketPoolStep Undisturbed SocketPool.start servedTwice ∧
      Always socketPoolStep SocketPool.ClosesOnce SocketPool.start servedTwice ∧
      ∃ pool, run socketPoolStep SocketPool.start servedTwice = some pool ∧
        ∀ thread ∈ pool.threads, thread.pc = .ended := by
  have hended : (run socketPoolStep SocketPool.start servedTwice).any
      (fun pool ↦ ∀ thread ∈ pool.threads, thread.pc = .ended) = true := by
    decide +kernel
  obtain ⟨pool, hrun, hpool⟩ := (Option.any_eq_true ..).mp hended
  have hundisturbed : Along socketPoolStep Undisturbed SocketPool.start servedTwice := by
    decide +kernel
  exact ⟨hundisturbed, (run_closesOnce hrun).1 hundisturbed, pool, hrun, of_decide_eq_true hpool⟩

/-- `send` fails in one queue, which closes its socket. Another queue gets the number, and the first
one closes it again. -/
def closedTwice : List SocketLabel :=
  [.keyed 0 true, .request 0, .request 0] ++
    [.opened (some 3), .connected true, .locked true, .go, .prepared true, .sent false, .go].map
      (.run 0) ++
    [.opened (some 3), .connected true].map (.run 1) ++ [.run 0 .go]

/-- The second queue loses its socket. -/
theorem closedTwice_not_closesOnce :
    ¬ Always socketPoolStep SocketPool.ClosesOnce SocketPool.start closedTwice := by
  have hforeign : (run socketPoolStep SocketPool.start closedTwice).any (fun pool ↦
      ⟨0, 0, some 1⟩ ∈ pool.closes ∧ (1, 1) ∈ pool.obtained) = true := by
    decide +kernel
  obtain ⟨pool, hrun, hpool⟩ := (Option.any_eq_true ..).mp hforeign
  obtain ⟨hcall, hobtained⟩ := of_decide_eq_true hpool
  intro halways
  have hown := (halways.final hrun).own _ hcall 1 rfl _ hobtained rfl
  cases hown

end LibTg.Tg
