import LibTg.Tg.DialogJoin
import LibTg.Tg.Queues
import LibTg.Tl.HeapCopy

/-!
# Synchronous queries (`tg/queue.c`, `tg/dialogs.c`)

`tg_send_query_sync` has its callback decode the buffer of the answer once more, into a variable on its
stack, and joins `queue->p`. This is the thread of the timer, since `tg_queue_new` keeps that one in
`queue->p` as well, and the timer of the first queue of the request: the queues that take its place
have their own. `on_done` is also called without an answer, and neither this callback nor the one of
`tg_get_dialogs` is ready for that.
-/

namespace LibTg.Tg

open LibTg.Tl

/-! ## The heap -/

/-- The blocks that have been given out, up to a number, and those of them that have been released. -/
structure Heap where
  next : ℕ
  released : List ℕ
  released_lt : ∀ block ∈ released, block < next

/-- A block that may be used. -/
def Heap.Live (heap : Heap) (block : ℕ) : Prop := block < heap.next ∧ block ∉ heap.released

/-- The blocks up to a number have been given out. -/
def Heap.grow (heap : Heap) (next : ℕ) : Heap where
  next := max heap.next next
  released := heap.released
  released_lt := fun block hblock ↦ lt_max_of_lt_left (heap.released_lt block hblock)

/-- A block that is given out is live. -/
theorem live_grow {heap : Heap} {next block : ℕ} (hlower : heap.next ≤ block)
    (hupper : block < next) : (heap.grow next).Live block :=
  ⟨lt_max_of_lt_right hupper,
    fun hreleased ↦ absurd (heap.released_lt block hreleased) (Nat.not_lt.mpr hlower)⟩

/-! ## The call -/

section Sync

variable (model : DataModel) (table : List Method) (gunzip : Bytes → Gunzipped)

/-- `tg_send_query_sync_cb`, with what it writes to `*tlp`. The buffer of a null pointer is read. In an
answer the pointer to the buffer is moved on, but not the one that `tl_free` releases. -/
def tgSendQuerySyncCb (slack : Bytes) (heap : Heap) (tl : Option HeapObj) :
    Option (Option HeapObj × Heap) := do
  let tl ← tl
  let (copy, _, next) ← heapDeserializeFuel model table ((tl.buf ++ slack).length + 1)
    (cursorAt tl.buf slack 0) heap.next
  some (copy, heap.grow next)

/-- What `on_done` of a request is called with in a step. -/
def Pool.answering (pool : Pool) (request : ℕ) : PoolLabel → Option (Option TlObj)
  | .run key .go => do
    let thread ← pool.threads[key]?
    let _ ← pool.queues[key]?
    match thread.pc with
    | .catching removal _ (.locked (.onDone _ tl :: _)) =>
      if removal.queue.request = request then some tl else none
    | _ => none
  | _ => none

/-- `tg_send_query_sync` at `pthread_join`, with its variable `tl`, or behind its return. -/
inductive Caller
  | waiting (tl : Option HeapObj)
  | returned (tl : Option HeapObj)

/-- The threads, the heap and the caller. -/
structure SyncState where
  pool : Pool
  heap : Heap
  caller : Caller

/-- A step of the threads, the call of `on_done` in the thread of a queue with an object in memory,
and the return of `pthread_join`. -/
inductive SyncLabel
  | thread (label : PoolLabel)
  | answered (key : ℕ) (tl : Option HeapObj)
  | joined

/-- No call of `on_done` for the request. -/
def SyncLabel.Quiet : SyncLabel → Prop
  | .answered _ _ => False
  | _ => True

/-- `tg_send_query_sync` has made the queue of a new request, and its timer. -/
def tgSendQuerySync (pool : Pool) (heap : Heap) : SyncState where
  pool := { pool.spawn pool.requests true with requests := pool.requests + 1 }
  heap := heap
  caller := .waiting none

section Step

variable (slack : Bytes) (request first : ℕ)

/-- A step while the request is on its way, with the number of its first queue. Behind the return the
variable is gone, and nothing can be written to it. -/
def syncStep (state : SyncState) : SyncLabel → Option SyncState
  | .thread label =>
    if (state.pool.answering request label).isSome then none
    else (poolStep model table gunzip state.pool label).map fun pool ↦ { state with pool := pool }
  | .answered key tl => do
    let _ ← state.pool.answering request (.run key .go)
    let pool ← poolStep model table gunzip state.pool (.run key .go)
    match state.caller with
    | .waiting _ => do
      let (copy, heap) ← tgSendQuerySyncCb model table slack state.heap tl
      some ⟨pool, heap, .waiting copy⟩
    | .returned _ => none
  | .joined =>
    match state.caller, state.pool.timers[first]? with
    | .waiting tl, some .ended => some { state with caller := .returned tl }
    | _, _ => none

/-- The caller waits with this value, or has returned it. -/
def SyncState.Gives (state : SyncState) (tl : Option HeapObj) : Prop :=
  state.caller = .waiting tl ∨ state.caller = .returned tl

/-- An answer that has been decoded from a buffer that begins with a complete object, into blocks of
the heap. -/
structure Answer (heap : Heap) where
  tl : TlObj
  object : HeapObj
  data : Bytes
  rest : Bytes
  slack : Bytes
  lower : ℕ
  upper : ℕ
  after : Cursor
  parse_eq : parse model table data = some (some tl, rest)
  fits : (data ++ slack).length + 1 < 2 ^ 32
  decoded : heapDeserializeFuel model table ((data ++ slack).length + 1) (cursorAt data slack 0) lower =
    some (some object, after, upper)
  placed : upper ≤ heap.next

/-- What `tg_send_query_sync` is to return: `NULL` for no answer, and else an object that differs from
the answer in its blocks only, which are live and are not released by `tl_free` of the answer. -/
def Completed (heap after : Heap) (result : Option (Answer model table heap))
    (tl : Option HeapObj) : Prop :=
  match result with
  | none => tl = none
  | some answer => ∃ copy, tl = some copy ∧ copy.unplaced = answer.object.unplaced ∧
      ∀ block ∈ copy.owned, after.Live block ∧ ∀ fuel released,
        tlFreeFuel table fuel answer.object = some released → block ∉ released

/-- `on_done` returns, and if it is not called again for the request, then the caller waits with what
it is to return, and returns it when the thread that it joins has ended. -/
def SyncCompletes (state : SyncState) (key : ℕ) (result : Option (Answer model table state.heap)) :
    Prop :=
  ∃ next tl, syncStep model table gunzip slack request first state
      (.answered key (result.map Answer.object)) = some next ∧
    Completed model table state.heap next.heap result tl ∧
    ∀ labels later, (∀ label ∈ labels, label.Quiet) →
      run (syncStep model table gunzip slack request first) next labels = some later →
        later.Gives tl ∧ (later.pool.timers[first]? = some .ended → ∃ more final,
          run (syncStep model table gunzip slack request first) later more = some final ∧
            final.caller = .returned tl)

end Step

variable {model table gunzip} {slack : Bytes} {request first : ℕ}

variable (model table gunzip) in
/-- A step in which `on_done` is called for the request is a step of the threads. -/
theorem isSome_poolStep {pool : Pool} {key : ℕ} {tl : Option TlObj}
    (hcall : pool.answering request (.run key .go) = some tl) :
    ∃ next, poolStep model table gunzip pool (.run key .go) = some next := by
  simp only [Pool.answering, Option.bind_eq_bind, Option.bind_eq_some_iff] at hcall
  obtain ⟨thread, hthread, fields, hfields, hpc⟩ := hcall
  split at hpc
  case h_2 => cases hpc
  case h_1 removal tl' queue inner events heq =>
    refine ⟨(pool.performCaught removal (.onDone queue inner)).turn key thread
      (.catching removal tl' (.locked events)), ?_⟩
    rw [poolStep, hthread, hfields, Option.bind_eq_bind, Option.bind_some, Option.bind_eq_bind,
      Option.bind_some, heq]
    rfl

/-- Without another call of `on_done` the variable stays as it is. -/
theorem syncStep_gives {state next : SyncState} {label : SyncLabel} {tl : Option HeapObj}
    (hstep : syncStep model table gunzip slack request first state label = some next)
    (hquiet : label.Quiet) (hgives : state.Gives tl) : next.Gives tl := by
  cases label with
  | thread label =>
    rw [syncStep] at hstep
    split at hstep
    case isTrue => cases hstep
    case isFalse =>
      obtain ⟨pool, -, rfl⟩ := Option.map_eq_some_iff.mp hstep
      exact hgives
  | answered key answer => exact hquiet.elim
  | joined =>
    rw [syncStep] at hstep
    split at hstep
    case h_2 => cases hstep
    case h_1 value hcaller _ =>
      cases hstep
      rcases hgives with hwaiting | hreturned
      · rw [hcaller, Caller.waiting.injEq] at hwaiting
        exact .inr (congrArg Caller.returned hwaiting)
      · rw [hcaller] at hreturned
        cases hreturned

theorem run_gives {state later : SyncState} {labels : List SyncLabel} {tl : Option HeapObj}
    (hrun : run (syncStep model table gunzip slack request first) state labels = some later)
    (hquiet : ∀ label ∈ labels, label.Quiet) (hgives : state.Gives tl) : later.Gives tl := by
  induction labels generalizing state with
  | nil =>
    cases hrun
    exact hgives
  | cons label labels ih =>
    rw [run_cons, Option.bind_eq_some_iff] at hrun
    obtain ⟨next, hstep, hrest⟩ := hrun
    exact ih hrest (fun other hother ↦ hquiet other (List.mem_cons_of_mem _ hother))
      (syncStep_gives hstep (hquiet label List.mem_cons_self) hgives)

/-- The caller returns its variable when the thread that it joins has ended. -/
theorem exists_returned {state : SyncState} {tl : Option HeapObj} (hgives : state.Gives tl)
    (hended : state.pool.timers[first]? = some .ended) :
    ∃ more final, run (syncStep model table gunzip slack request first) state more = some final ∧
      final.caller = .returned tl := by
  rcases hgives with hwaiting | hreturned
  · refine ⟨[.joined], { state with caller := .returned tl }, ?_, rfl⟩
    rw [run_cons, syncStep, hwaiting, hended]
    rfl
  · exact ⟨[], state, rfl, hreturned⟩

/-- An answer is decoded once more, into blocks of its own. -/
theorem tgSendQuerySyncCb_some (hdescribed : ∀ method ∈ table, method.Described)
    (hfit : ∀ method ∈ table, NamesFit method) (hscoped : ∀ method ∈ table, Scoped 0 method.args)
    {heap : Heap} (answer : Answer model table heap)
    (hslack : (answer.data ++ slack).length < 2 ^ 32) :
    ∃ copy after, tgSendQuerySyncCb model table slack heap (some answer.object) =
        some (some copy, after) ∧
      Completed model table heap after (some answer) (some copy) := by
  have hsize : answer.data.length + 1 < 2 ^ 32 := by
    have hfits := answer.fits
    rw [List.length_append] at hfits
    omega
  obtain ⟨plain, hbuf, hplain⟩ :=
    exists_unplaced hdescribed hfit hscoped answer.parse_eq hsize
  obtain ⟨object, _, _, hobject, hunplaced⟩ :=
    hplain answer.slack answer.lower (Nat.lt_of_succ_lt answer.fits)
  rw [answer.decoded] at hobject
  cases hobject
  have hdata : answer.object.buf = answer.data := by rw [← hbuf, ← hunplaced, buf_unplaced]
  obtain ⟨copy, cursor, upper, hcopy, hsame⟩ := hplain slack heap.next hslack
  refine ⟨copy, heap.grow upper, ?_, copy, rfl, hsame.trans hunplaced.symm, fun block hblock ↦ ?_⟩
  · rw [tgSendQuerySyncCb, Option.bind_eq_bind, Option.bind_some, hdata, hcopy]
    rfl
  · obtain ⟨hlower, hupper⟩ := (owned_range hdescribed hfit hcopy).2 block hblock
    refine ⟨live_grow hlower hupper, fun fuel released hreleased hmem ↦ ?_⟩
    have howned := tlFree_subset table fuel answer.object released hreleased hmem
    have hbelow := ((owned_range hdescribed hfit answer.decoded).2 block howned).2
    exact absurd (hbelow.trans_le answer.placed) (Nat.not_lt.mpr hlower)

/-- Exactly an answer that comes while the caller waits completes the query. -/
theorem syncCompletes_iff (hdescribed : ∀ method ∈ table, method.Described)
    (hfit : ∀ method ∈ table, NamesFit method) (hscoped : ∀ method ∈ table, Scoped 0 method.args)
    {state : SyncState} {key : ℕ} {result : Option (Answer model table state.heap)}
    (hcall : state.pool.answering request (.run key .go) = some (result.map Answer.tl))
    (hslack : ∀ answer ∈ result, (answer.data ++ slack).length < 2 ^ 32) :
    SyncCompletes model table gunzip slack request first state key result ↔
      result ≠ none ∧ ∃ tl, state.caller = .waiting tl := by
  obtain ⟨pool, hpool⟩ := isSome_poolStep model table gunzip hcall
  unfold SyncCompletes
  rw [syncStep, hcall, Option.bind_eq_bind, Option.bind_some, hpool, Option.bind_eq_bind,
    Option.bind_some]
  cases hcaller : state.caller with
  | returned tl => simp
  | waiting tl =>
    cases result with
    | none => simp [tgSendQuerySyncCb]
    | some answer =>
      refine iff_of_true ?_ ⟨Option.some_ne_none _, tl, rfl⟩
      obtain ⟨copy, after, hcallback, hcompleted⟩ :=
        tgSendQuerySyncCb_some hdescribed hfit hscoped answer (hslack answer rfl)
      refine ⟨⟨pool, after, .waiting (some copy)⟩, some copy, ?_, hcompleted, ?_⟩
      · dsimp only [Option.map_some]
        rw [hcallback]
        rfl
      · intro labels later hquiet hrun
        have hgives := run_gives hrun hquiet (.inl rfl)
        exact ⟨hgives, exists_returned hgives⟩

end Sync

/-! ## The callback of `tg_get_dialogs` -/

/-- An entry of `dialogs_` has the objects that its constructor asks for. -/
def TlAnyDialog.Complete : TlAnyDialog → Prop
  | .dialog tl => tl.peer ≠ none
  | .dialogFolder tl => tl.folder ≠ none ∧ tl.peer ≠ none
  | .other _ => True

/-- The entities of a message are objects. -/
def TlMessage.Complete (message : TlMessage) : Prop := ∀ entity ∈ message.entities, entity ≠ none

/-- An answer has the objects that the constructors in it ask for. -/
def TlDialogsAnswer.Complete (answer : TlDialogsAnswer) : Prop :=
  ∀ md, answer.lists = some md →
    (∀ entry, some entry ∈ md.dialogs → entry.Complete) ∧
      ∀ message, some (.message message) ∈ md.messages → message.Complete

/-- A complete answer. -/
abbrev DialogsAnswer := { answer : TlDialogsAnswer // answer.Complete }

section Dialogs

variable (codec : Codec) (onLog : Bool) (callback : Option DialogCallback)

/-- The callback of `tg_get_dialogs` returns. Its `t` is on the stack of `tg_get_dialogs`, until this
function has returned. -/
def DialogsCompletes (t : Option TgGetDialogs) (result : Option DialogsAnswer) : Prop :=
  ∃ found, t = some found ∧
    (tgGetDialogsCallback codec onLog callback found (result.map Subtype.val)).2 ≠ none

variable {codec onLog callback}

theorem mapM_complete {entities : List (Option TlEntity)} (h : ∀ entity ∈ entities, entity ≠ none) :
    ∃ converted, entities.mapM (fun entity ↦ entity.map tgEntity) = some converted := by
  induction entities with
  | nil => exact ⟨[], rfl⟩
  | cons entity entities ih =>
    obtain ⟨found, rfl⟩ := Option.ne_none_iff_exists'.mp (h entity List.mem_cons_self)
    obtain ⟨rest, hrest⟩ := ih fun entity hentity ↦ h entity (List.mem_cons_of_mem _ hentity)
    rw [List.mapM_cons, hrest]
    exact ⟨tgEntity found :: rest, rfl⟩

/-- A complete message is converted. -/
theorem tgMessageFromTl_complete {message : TlMessage} (hcomplete : message.Complete) :
    tgMessageFromTl codec message ≠ none := by
  obtain ⟨converted, hconverted⟩ := mapM_complete hcomplete
  unfold tgMessageFromTl
  rw [hconverted]
  exact Option.some_ne_none _

/-- No null pointer is followed for a dialog that has a peer, in an answer with complete messages. -/
theorem not_faults_complete {md : TlDialogs} {dialog : TlDialog}
    (hmessages : ∀ message, some (.message message) ∈ md.messages → message.Complete)
    (hpeer : dialog.peer ≠ none) : ¬ Faults codec onLog md dialog := by
  unfold Faults
  split
  · exact fun hfault ↦ hpeer hfault.2
  · rintro ⟨message, hmem, hnone⟩
    exact tgMessageFromTl_complete (hmessages message (mem_messages_of_withId hmem)) hnone

/-- A complete entry is no fault, and the dialog that it is treated as has a peer. -/
theorem dialogSource_complete {entry : Option TlAnyDialog}
    (hcomplete : ∀ found, entry = some found → found.Complete) :
    dialogSource entry ≠ .fault ∧
      ∀ dialog, dialogSource entry = .dialog dialog → dialog.peer ≠ none := by
  rcases entry with _ | dialog | df | id
  · exact ⟨nofun, nofun⟩
  · refine ⟨nofun, fun source hsource ↦ ?_⟩
    cases hsource
    exact hcomplete _ rfl
  · obtain ⟨hfolder, hpeer⟩ := hcomplete _ rfl
    obtain ⟨folder, hsome⟩ := Option.ne_none_iff_exists'.mp hfolder
    have hsource : dialogSource (some (.dialogFolder df)) = .dialog (dialogOfFolder df folder) := by
      simp only [dialogSource, hsome]
    rw [hsource]
    refine ⟨nofun, fun source heq ↦ ?_⟩
    cases heq
    exact hpeer
  · exact ⟨nofun, nofun⟩

/-- The loop over the dialogs ends if no null pointer is followed. -/
theorem dialogLoop_ne_none {md : TlDialogs} {entries : List (Option TlAnyDialog)}
    (hmessages : ∀ message, some (.message message) ∈ md.messages → message.Complete)
    (hentries : ∀ entry, some entry ∈ entries → entry.Complete) (hash : Option UInt64) (n : ℕ) :
    (dialogLoop codec onLog callback md entries hash n).2 ≠ none := by
  induction entries generalizing hash n with
  | nil => exact Option.some_ne_none _
  | cons entry entries ih =>
    have hrest := ih fun entry hentry ↦ hentries entry (List.mem_cons_of_mem _ hentry)
    obtain ⟨hfault, hpeers⟩ : dialogSource entry ≠ .fault ∧ _ :=
      dialogSource_complete fun found hfound ↦ hentries found (hfound ▸ List.mem_cons_self)
    rw [dialogLoop]
    cases hsource : dialogSource entry with
    | skipped => exact hrest hash n
    | fault => exact absurd hsource hfault
    | dialog dialog =>
      have hpeer := hpeers dialog hsource
      rcases dialogRound_cases codec onLog md dialog with ⟨hfaults, -⟩ | ⟨-, -, hround⟩ |
        ⟨-, -, stored, hround⟩
      · exact absurd hfaults (not_faults_complete hmessages hpeer)
      · dsimp only
        rw [hround]
        exact hrest hash n
      · dsimp only
        rw [hround]
        dsimp only
        split
        · exact Option.some_ne_none _
        · exact hrest _ (n + 1)

/-- The callback returns from a complete answer. -/
theorem tgGetDialogsCallback_complete (t : TgGetDialogs) (answer : DialogsAnswer) :
    (tgGetDialogsCallback codec onLog callback t (some answer.val)).2 ≠ none := by
  have hlists (md : TlDialogs) (hmd : answer.val.lists = some md) (t : TgGetDialogs) :
      (dialogsFromLists codec onLog callback t md).2 ≠ none := by
    obtain ⟨hentries, hmessages⟩ := answer.property md hmd
    unfold dialogsFromLists
    exact mt Option.map_eq_none_iff.mp (dialogLoop_ne_none hmessages hentries _ 0)
  have hfrom : (tgDialogsFromTl codec onLog callback t (some answer.val)).2 ≠ none := by
    unfold tgDialogsFromTl
    cases hanswer : answer.val with
    | dialogsNotModified => exact Option.some_ne_none _
    | dialogsSlice count md => exact hlists md (by rw [hanswer]; rfl) _
    | dialogs md => exact hlists md (by rw [hanswer]; rfl) _
    | rpcError error => exact Option.some_ne_none _
    | other id => exact Option.some_ne_none _
  exact mt Option.map_eq_none_iff.mp hfrom

/-- Exactly an answer that comes before `tg_get_dialogs` returns is no harm. Without one the assertion
fails. -/
theorem dialogsCompletes_iff {t : Option TgGetDialogs} {result : Option DialogsAnswer} :
    DialogsCompletes codec onLog callback t result ↔ result ≠ none ∧ t ≠ none := by
  constructor
  · rintro ⟨found, rfl, hcallback⟩
    refine ⟨?_, Option.some_ne_none _⟩
    rintro rfl
    exact hcallback rfl
  · rintro ⟨hresult, ht⟩
    obtain ⟨answer, rfl⟩ := Option.ne_none_iff_exists'.mp hresult
    obtain ⟨found, rfl⟩ := Option.ne_none_iff_exists'.mp ht
    exact ⟨found, rfl, tgGetDialogsCallback_complete found answer⟩

end Dialogs

/-- What the receiving thread does with an answer up to the call of `on_done`. -/
def delivers (key : ℕ) (msgid : UInt64) (tl : Option TlObj) : List PoolLabel :=
  [.catched msgid tl, .go, .go].map (.run key)

def errorObj : TlObj := .mk 0xc4b9f9bb (errorBytes 2) [.int 400, .buf [110, 111]]

/-- A synchronous query whose answer is to be passed on. -/
def errorAwaited (tl : Option TlObj) : SyncState where
  pool := (run (poolStep .lp64 [errorMethod] fun _ ↦ ⟨false, [], 0⟩)
    (tgSendQuerySync Pool.start ⟨3, [], nofun⟩).pool (listens 0 5 ++ delivers 0 5 tl)).getD Pool.start
  heap := ⟨3, [], nofun⟩
  caller := .waiting none

set_option maxRecDepth 20000 in
/-- The error 400 as an answer, in three blocks. -/
def errorAnswer : Answer .lp64 [errorMethod] (errorAwaited (some errorObj)).heap where
  tl := errorObj
  object := .mk 0 errorMethod []
    [.word 0xc4b9f9bb, .buf 1 (errorBytes 2), .word 400, .buf 2 [110, 111]]
  data := errorBytes 2
  rest := []
  slack := []
  lower := 0
  upper := 3
  after := cursorAt (errorBytes 2) [] 12
  parse_eq := rfl
  fits := by decide
  decoded := rfl
  placed := le_rfl

/-- An answer with a dialog. -/
def sharedAnswer : DialogsAnswer where
  val := .dialogs sharedNumber
  property := by
    intro md hmd
    obtain rfl := Option.some.inj hmd
    refine ⟨fun entry hentry ↦ ?_, fun message hmessage ↦ absurd hmessage List.not_mem_nil⟩
    obtain rfl := Option.some.inj (List.mem_singleton.mp hentry)
    exact Option.some_ne_none _

/-- `FLOOD_WAIT_60`: the timer of the first queue ends, the query returns, and the answer comes for the
second queue. -/
def flooded : List SyncLabel :=
  let pooled : List PoolLabel := listens 0 4 ++
    delivers 0 4 (some (rpcErrorObj "FLOOD_WAIT_60")) ++
    [.run 0 .go, .run 0 .go, .run 0 .go, .run 0 (.received .exit), .run 0 .go, .run 0 .go,
      .run 0 .go, .timer 0, .timer 0, .timer 0]
  pooled.map .thread ++ .joined :: (listens 1 8 ++ delivers 1 8 (some errorObj)).map .thread

example :
    ∃ state, run (syncStep .lp64 [errorMethod] (fun _ ↦ ⟨false, [], 0⟩) [0] 0 0)
        (tgSendQuerySync Pool.start ⟨3, [], nofun⟩) flooded = some state ∧
      state.pool.answering 0 (.run 1 .go) = some (some errorObj) ∧
      state.caller = .returned none :=
  ⟨_, rfl, rfl, rfl⟩

end LibTg.Tg
