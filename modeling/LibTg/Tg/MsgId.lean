import LibTg.Tg.Seqno

/-!
# Message ids of concurrent packets

A message id is the time at which it is drawn; no last id is kept. Two readings of the clock give
different ids exactly if they are different readings, so ids are unique in a run whose clock never
shows the same time twice, whatever the threads do. With two equal readings they are not.
-/

namespace LibTg.Tg

/-- Message ids of one session: no two messages share one, each is a multiple of 4, a container
has a larger one than every message inside it, and every lookup of `tg->queue` has had at most one
queue to take. -/
structure UniqueIds (tg : Sender) : Prop where
  distinct : (tg.messages.map Sent.msgId).Nodup
  multiple : ∀ message ∈ tg.messages, 4 ∣ message.msgId.toNat
  container : ∀ packet ∈ tg.packets, ∀ message ∈ packet.inner, message.msgId < packet.outer.msgId
  lookup : ∀ count ∈ tg.matched, count ≤ 1

/-- A step that reads a strictly later time, before the year 2106, and looks for an id that is not
the 0 of queues not yet sent. -/
def Later (tg : Sender) : Label → Prop
  | .clock _ reading => (∀ last ∈ tg.last, last < reading.nanos) ∧ reading.sec < 2 ^ 32
  | .queueCut id => id ≠ 0
  | _ => True

instance decidableLater (tg : Sender) : ∀ label, Decidable (Later tg label)
  | .clock _ reading => inferInstanceAs
      (Decidable ((∀ last ∈ tg.last, last < reading.nanos) ∧ reading.sec < 2 ^ 32))
  | .queueCut id => inferInstanceAs (Decidable (id ≠ 0))
  | .addMsgid _ => isTrue trivial
  | .addTodrop _ => isTrue trivial
  | .badMsgNotification => isTrue trivial
  | .queueAdd _ => isTrue trivial
  | .header _ _ _ => isTrue trivial
  | .locked _ => isTrue trivial

/-! ## Readings and ids -/

/-- The id that belongs to a number of nanoseconds. -/
def idOfNanos (nanos : ℕ) : ℕ := 2 ^ 32 * nanos / 10 ^ 9 / 4 * 4

theorem clockId_eq (reading : Timespec) : clockId reading = idOfNanos reading.nanos := rfl

theorem idOfNanos_strictMono : StrictMono idOfNanos := by
  apply strictMono_nat_of_lt_succ
  intro nanos
  unfold idOfNanos
  omega

theorem toNat_msgIdAt {reading : Timespec} (hsec : reading.sec < 2 ^ 32) :
    (msgIdAt reading 0).toNat = idOfNanos reading.nanos := by
  have hnanos : reading.nanos < 2 ^ 32 * 10 ^ 9 := by
    have hnsec := reading.nsec_lt
    unfold Timespec.nanos
    omega
  have hlt : idOfNanos reading.nanos < 2 ^ 64 := by
    unfold idOfNanos
    omega
  have hmod : ((clockId reading + 0 : ℤ) % 2 ^ 64).toNat = idOfNanos reading.nanos := by
    rw [clockId_eq]
    omega
  rw [msgIdAt, UInt64.ofInt, hmod, UInt64.toNat_ofNat', Nat.mod_eq_of_lt hlt]

/-! ## The ids drawn -/

/-- The ids have been drawn in increasing order, the last of them at the latest reading. -/
structure Increasing (tg : Sender) : Prop where
  timediff : tg.timediff = 0
  bounded : ∀ draw ∈ tg.draws, ∃ last ∈ tg.last, draw.2.toNat ≤ idOfNanos last
  sorted : tg.draws.Pairwise fun first second ↦ first.2 < second.2
  multiple : ∀ draw ∈ tg.draws, 4 ∣ draw.2.toNat

/-- The id of a later reading is larger than all before. -/
theorem Increasing.lt_msgIdAt {tg : Sender} (hbefore : Increasing tg) {reading : Timespec}
    (hlater : ∀ last ∈ tg.last, last < reading.nanos) (hsec : reading.sec < 2 ^ 32) :
    ∀ draw ∈ tg.draws, draw.2 < msgIdAt reading tg.timediff := by
  intro draw hdraw
  obtain ⟨last, hlast, hle⟩ := hbefore.bounded draw hdraw
  rw [UInt64.lt_iff_toNat_lt, hbefore.timediff, toNat_msgIdAt hsec]
  exact hle.trans_lt (idOfNanos_strictMono (hlater last hlast))

theorem increasing_move {tg next : Sender} {label : Label} (hmove : SenderMove tg label next)
    (hlater : Later tg label) (hbefore : Increasing tg) : Increasing next := by
  cases hmove with
  | badMsgNotification => exact ⟨rfl, hbefore.bounded, hbefore.sorted, hbefore.multiple⟩
  | @clock thread worker job reading hworker hpc hlast =>
    have hid : (msgIdAt reading tg.timediff).toNat = idOfNanos reading.nanos := by
      rw [hbefore.timediff, toNat_msgIdAt hlater.2]
    have hlt := hbefore.lt_msgIdAt hlater.1 hlater.2
    constructor
    · exact hbefore.timediff
    · intro draw hdraw
      refine ⟨reading.nanos, rfl, ?_⟩
      rcases List.mem_append.mp hdraw with hold | hnew
      · have hle := (UInt64.lt_iff_toNat_lt.mp (hlt draw hold)).le
        rwa [hid] at hle
      · rw [List.mem_singleton.mp hnew, hid]
    · apply List.pairwise_append.mpr
      refine ⟨hbefore.sorted, List.pairwise_singleton _ _, fun draw hdraw new hnew ↦ ?_⟩
      rw [List.mem_singleton.mp hnew]
      exact hlt draw hdraw
    · intro draw hdraw
      rcases List.mem_append.mp hdraw with hold | hnew
      · exact hbefore.multiple draw hold
      · rw [List.mem_singleton.mp hnew, hid]
        exact Dvd.intro_left _ rfl
  | @message thread worker job msgId kind hworker hpc hkind =>
    obtain ⟨todrop, owner, packets, workers, hframe⟩ := afterMessage_frame
      (tg.record (tg.number kind job.content msgId)) thread worker
      (tg.number kind job.content msgId) job
    rw [hframe]
    exact ⟨hbefore.timediff, hbefore.bounded, hbefore.sorted, hbefore.multiple⟩
  | _ => exact ⟨hbefore.timediff, hbefore.bounded, hbefore.sorted, hbefore.multiple⟩

/-! ## Every id drawn goes into one message -/

/-- The id that a thread has drawn and not yet put into a numbered message. -/
def Pc.drawnIds : Pc → List UInt64
  | .seqno _ msgId => [msgId]
  | _ => []

theorem drawnIds_move {tg next : Sender} {label : Label} (hmove : SenderMove tg label next)
    (hbefore : Accounted Pc.drawnIds (tg.draws.map Prod.snd) (tg.messages.map Sent.msgId)
      tg.workers) :
    Accounted Pc.drawnIds (next.draws.map Prod.snd) (next.messages.map Sent.msgId)
      next.workers := by
  cases hmove with
  | queueAdd hworker hpc hadded => exact hbefore.keep hworker rfl
  | header query content hworker hpc => exact hbefore.keep hworker (by rw [hpc]; rfl)
  | ackNone hworker hpc hnil => exact hbefore.keep hworker (by rw [hpc]; rfl)
  | ackSome hworker hpc => exact hbefore.keep hworker (by rw [hpc]; rfl)
  | clock reading hworker hpc hlast =>
    exact hbefore.put hworker List.map_append (List.append_nil _).symm (by rw [hpc]; rfl)
  | toDropNone hworker hpc howner hnil => exact hbefore.keep hworker (by rw [hpc]; rfl)
  | toDropSome hworker hpc howner hsome => exact hbefore.keep hworker (by rw [hpc]; rfl)
  | @message thread worker job msgId kind hworker hpc hkind =>
    cases job with
    | drop inner index =>
      rw [afterMessage]
      split
      case isTrue =>
        exact hbefore.put hworker (List.append_nil _).symm List.map_append (by rw [hpc]; rfl)
      case isFalse =>
        exact hbefore.put hworker (List.append_nil _).symm List.map_append (by rw [hpc]; rfl)
    | _ => exact hbefore.put hworker (List.append_nil _).symm List.map_append (by rw [hpc]; rfl)
  | _ => exact hbefore

/-! ## What a thread holds it has drawn itself -/

/-- The id of the message around a container is above those inside. -/
def Pc.Above : Pc → Prop
  | .seqno (.outer inner _) msgId => ∀ message ∈ inner, message.msgId < msgId
  | _ => True

/-- The ids that a thread works with are its own. -/
structure Worker.Own (draws : List (ℕ × UInt64)) (thread : ℕ) (worker : Worker) : Prop where
  msgid : worker.msgid = 0 ∨ (thread, worker.msgid) ∈ draws
  messages : ∀ message ∈ worker.pc.messages, (thread, message.msgId) ∈ draws
  drawn : ∀ msgId ∈ worker.pc.drawnIds, (thread, msgId) ∈ draws
  above : worker.pc.Above

/-- The ids that threads work with are their own, and containers are above their messages. -/
structure Owned (tg : Sender) : Prop where
  workers : ∀ (thread : ℕ) (worker : Worker), tg.workers[thread]? = some worker →
    worker.Own tg.draws thread
  packets : ∀ packet ∈ tg.packets, ∀ message ∈ packet.inner, message.msgId < packet.outer.msgId

theorem Worker.Own.append {draws : List (ℕ × UInt64)} {thread : ℕ} {worker : Worker}
    (hown : worker.Own draws thread) (more : List (ℕ × UInt64)) :
    worker.Own (draws ++ more) thread where
  msgid := hown.msgid.imp_right fun hmem ↦ List.mem_append_left more hmem
  messages := fun message hmessage ↦ List.mem_append_left more (hown.messages message hmessage)
  drawn := fun msgId hdrawn ↦ List.mem_append_left more (hown.drawn msgId hdrawn)
  above := hown.above

section Owned

variable {tg after : Sender} {thread : ℕ} {worker next : Worker}

/-- A thread moves, with new draws and new packets. -/
theorem Owned.put (hbefore : Owned tg) (hworkers : after.workers = tg.workers.set thread next)
    {draws : List (ℕ × UInt64)} (hdraws : after.draws = tg.draws ++ draws)
    {packets : List Packet} (hpackets : after.packets = tg.packets ++ packets)
    (hnext : next.Own after.draws thread)
    (hnew : ∀ packet ∈ packets, ∀ message ∈ packet.inner, message.msgId < packet.outer.msgId) :
    Owned after := by
  constructor
  · intro other found hfound
    rw [hworkers] at hfound
    rcases getElem?_set_cases hfound with ⟨hsame, heq⟩ | ⟨-, hold⟩
    · rw [hsame, heq]
      exact hnext
    · rw [hdraws]
      exact (hbefore.workers other found hold).append draws
  · intro packet hpacket
    rw [hpackets, List.mem_append] at hpacket
    exact hpacket.elim (hbefore.packets packet) (hnew packet)

/-- A thread moves without a new draw. -/
theorem Owned.keep (hbefore : Owned tg) (hworkers : after.workers = tg.workers.set thread next)
    (hdraws : after.draws = tg.draws) (hpackets : after.packets = tg.packets)
    (hnext : next.Own tg.draws thread) : Owned after :=
  hbefore.put hworkers (by rw [hdraws, List.append_nil]) (by rw [hpackets, List.append_nil])
    (by rw [hdraws]; exact hnext) (List.forall_mem_nil _)

end Owned

section Own

variable {draws : List (ℕ × UInt64)} {thread : ℕ} {worker : Worker}

/-- The container becomes the payload, and `*msgid` the id of its first message. -/
theorem Worker.Own.contained (hown : worker.Own draws thread) {inner : List Sent}
    (hinner : ∀ message ∈ inner, (thread, message.msgId) ∈ draws) :
    (worker.contained inner).Own draws thread where
  msgid := by
    cases inner with
    | nil => exact hown.msgid
    | cons first rest => exact .inr (hinner first List.mem_cons_self)
  messages := hinner
  drawn := fun msgId hdrawn ↦ nomatch hdrawn
  above := trivial

/-- A numbered message joins those that the thread has drawn the ids of. -/
theorem mem_draws_concat {inner : List Sent} {message : Sent}
    (hinner : ∀ message ∈ inner, (thread, message.msgId) ∈ draws)
    (hlast : (thread, message.msgId) ∈ draws) :
    ∀ found ∈ inner ++ [message], (thread, found.msgId) ∈ draws := by
  intro found hfound
  rcases List.mem_append.mp hfound with hold | hnew
  · exact hinner found hold
  · rw [List.mem_singleton.mp hnew]
    exact hlast

/-- An id is drawn that is larger than all before. -/
theorem Worker.Own.draw (hown : worker.Own draws thread) {job : Job} (hpc : worker.pc = .time job)
    {msgId : UInt64} (hlt : ∀ draw ∈ draws, draw.2 < msgId) :
    Worker.Own (draws ++ [(thread, msgId)]) thread
      { worker with pc := .seqno job msgId, msgid := worker.drawn msgId job } := by
  have hold := hown.append [(thread, msgId)]
  have hnew : (thread, msgId) ∈ draws ++ [(thread, msgId)] :=
    List.mem_append_right draws List.mem_cons_self
  have hheld := hown.messages
  rw [hpc] at hheld
  constructor
  · cases job with
    | outer inner content =>
      dsimp only [Worker.drawn]
      split
      · exact .inr hnew
      · exact hold.msgid
    | _ => exact hold.msgid
  · intro message hmessage
    exact List.mem_append_left _ (hheld message hmessage)
  · intro drawn hdrawn
    rw [List.mem_singleton.mp hdrawn]
    exact hnew
  · cases job with
    | outer inner content =>
      intro message hmessage
      exact hlt _ (hheld message hmessage)
    | _ => trivial

end Own

theorem owned_move {tg next : Sender} {label : Label} (hmove : SenderMove tg label next)
    (hlater : Later tg label) (hincreasing : Increasing tg) (hbefore : Owned tg) : Owned next := by
  cases hmove with
  | @queueAdd thread worker hworker hpc hadded =>
    have hown := hbefore.workers thread worker hworker
    exact hbefore.keep rfl rfl rfl ⟨hown.msgid, hown.messages, hown.drawn, hown.above⟩
  | header query content hworker hpc =>
    exact hbefore.keep rfl rfl rfl
      ⟨.inl rfl, List.forall_mem_nil _, List.forall_mem_nil _,
        trivial⟩
  | @ackNone thread worker content hworker hpc hnil =>
    exact hbefore.keep rfl rfl rfl
      ⟨(hbefore.workers thread worker hworker).msgid, List.forall_mem_nil _,
        List.forall_mem_nil _, trivial⟩
  | @ackSome thread worker content hworker hpc =>
    exact hbefore.keep rfl rfl rfl
      ⟨(hbefore.workers thread worker hworker).msgid, List.forall_mem_nil _,
        List.forall_mem_nil _, trivial⟩
  | @clock thread worker job reading hworker hpc hlast =>
    exact hbefore.put rfl rfl (List.append_nil _).symm
      ((hbefore.workers thread worker hworker).draw hpc
        (hincreasing.lt_msgIdAt hlater.1 hlater.2)) (List.forall_mem_nil _)
  | @toDropNone thread worker inner hworker hpc howner hnil =>
    have hown := hbefore.workers thread worker hworker
    have hinner := hown.messages
    rw [hpc] at hinner
    exact hbefore.keep rfl rfl rfl (hown.contained hinner)
  | @toDropSome thread worker inner hworker hpc howner hsome =>
    have hown := hbefore.workers thread worker hworker
    have hinner := hown.messages
    rw [hpc] at hinner
    exact hbefore.keep rfl rfl rfl
      ⟨hown.msgid, hinner, List.forall_mem_nil _, trivial⟩
  | @message thread worker job msgId kind hworker hpc hkind =>
    have hown := hbefore.workers thread worker hworker
    have hheld := hown.messages
    have hdrawn := hown.drawn
    have habove := hown.above
    rw [hpc] at hheld hdrawn habove
    have hlast : (thread, (tg.number kind job.content msgId).msgId) ∈ tg.draws :=
      hdrawn msgId List.mem_cons_self
    have hconcat := mem_draws_concat hheld hlast
    cases job with
    | query ids =>
      exact hbefore.keep rfl rfl rfl
        ⟨hown.msgid, hconcat, List.forall_mem_nil _, trivial⟩
    | ack ids first =>
      exact hbefore.keep rfl rfl rfl
        ⟨hown.msgid, hconcat, List.forall_mem_nil _, trivial⟩
    | drop inner index =>
      rw [afterMessage]
      split
      case isTrue =>
        exact hbefore.keep rfl rfl rfl
          ⟨hown.msgid, hconcat, List.forall_mem_nil _, trivial⟩
      case isFalse => exact hbefore.keep rfl rfl rfl (hown.contained hconcat)
    | outer inner content =>
      refine hbefore.put rfl (List.append_nil _).symm rfl
        ⟨hown.msgid, List.forall_mem_nil _, List.forall_mem_nil _,
          trivial⟩ ?_
      intro packet hpacket
      rw [List.mem_singleton.mp hpacket]
      exact habove
  | _ => exact ⟨hbefore.workers, hbefore.packets⟩

/-! ## Lookups -/

/-- A queue stands in `tg->queue` once at most, and only after its thread has added it. -/
structure Listed (tg : Sender) : Prop where
  nodup : tg.queue.Nodup
  added : ∀ thread ∈ tg.queue, ∃ worker, tg.workers[thread]? = some worker ∧ worker.added = true

section Listed

variable {tg after : Sender} {thread : ℕ} {worker next : Worker}

/-- A thread moves and stays in the list, or out of it. -/
theorem Listed.keep (hbefore : Listed tg) (hworker : tg.workers[thread]? = some worker)
    (hworkers : after.workers = tg.workers.set thread next) (hqueue : after.queue = tg.queue)
    (hadded : next.added = worker.added) : Listed after := by
  constructor
  · rw [hqueue]
    exact hbefore.nodup
  · intro other hother
    rw [hqueue] at hother
    obtain ⟨found, hfound, hflag⟩ := hbefore.added other hother
    rw [hworkers]
    rcases eq_or_ne other thread with heq | hne
    · subst heq
      rw [hworker, Option.some.injEq] at hfound
      exact ⟨next, List.getElem?_set_self (List.getElem?_eq_some_iff.mp hworker).1, by
        rw [hadded, hfound, hflag]⟩
    · exact ⟨found, by rw [List.getElem?_set_ne hne.symm, hfound], hflag⟩

/-- A thread adds its queue. -/
theorem Listed.add (hbefore : Listed tg) (hworker : tg.workers[thread]? = some worker)
    (hadded : worker.added = false) :
    Listed ({ tg with queue := thread :: tg.queue }.put thread { worker with added := true }) := by
  have hnew : thread ∉ tg.queue := by
    intro hmem
    obtain ⟨found, hfound, hflag⟩ := hbefore.added thread hmem
    rw [hworker, Option.some.injEq] at hfound
    rw [← hfound, hadded] at hflag
    cases hflag
  constructor
  · exact List.nodup_cons.mpr ⟨hnew, hbefore.nodup⟩
  · intro other hother
    rcases List.mem_cons.mp hother with heq | hold
    · subst heq
      exact ⟨_, List.getElem?_set_self (List.getElem?_eq_some_iff.mp hworker).1, rfl⟩
    · obtain ⟨found, hfound, hflag⟩ := hbefore.added other hold
      have hne : thread ≠ other := fun heq ↦ hnew (heq ▸ hold)
      exact ⟨found, by rw [← hfound]; exact List.getElem?_set_ne hne, hflag⟩

end Listed

theorem listed_move {tg next : Sender} {label : Label} (hmove : SenderMove tg label next)
    (hbefore : Listed tg) : Listed next := by
  cases hmove with
  | queueAdd hworker hpc hadded => exact hbefore.add hworker hadded
  | queueCut id =>
    constructor
    · exact hbefore.nodup.sublist List.eraseP_sublist
    · intro thread hthread
      exact hbefore.added thread (List.mem_of_mem_eraseP hthread)
  | header query content hworker hpc => exact hbefore.keep hworker rfl rfl rfl
  | ackNone hworker hpc hnil => exact hbefore.keep hworker rfl rfl rfl
  | ackSome hworker hpc => exact hbefore.keep hworker rfl rfl rfl
  | clock reading hworker hpc hlast => exact hbefore.keep hworker rfl rfl rfl
  | toDropNone hworker hpc howner hnil => exact hbefore.keep hworker rfl rfl rfl
  | toDropSome hworker hpc howner hsome => exact hbefore.keep hworker rfl rfl rfl
  | @message thread worker job msgId kind hworker hpc hkind =>
    cases job with
    | drop inner index =>
      rw [afterMessage]
      split
      case isTrue => exact hbefore.keep hworker rfl rfl rfl
      case isFalse => exact hbefore.keep hworker rfl rfl rfl
    | _ => exact hbefore.keep hworker rfl rfl rfl
  | _ => exact ⟨hbefore.nodup, hbefore.added⟩

theorem Increasing.nodup {tg : Sender} (hincreasing : Increasing tg) :
    (tg.draws.map Prod.snd).Nodup := by
  apply List.pairwise_map.mpr
  exact hincreasing.sorted.imp fun hlt ↦ UInt64.ne_of_lt hlt

theorem length_le_one_of_forall_eq {Item : Type*} {items : List Item} (hnodup : items.Nodup)
    (heq : ∀ first ∈ items, ∀ second ∈ items, first = second) : items.length ≤ 1 := by
  match items with
  | [] => exact Nat.zero_le 1
  | [_] => exact le_rfl
  | first :: second :: rest =>
    have hmem : second ∈ first :: second :: rest := List.mem_cons_of_mem first List.mem_cons_self
    have hsame := heq first List.mem_cons_self second hmem
    exact absurd (hsame ▸ List.mem_cons_self) (List.nodup_cons.mp hnodup).1

/-- At most one listed queue has a given id other than 0. -/
theorem countP_cmpMsgid_le_one {tg : Sender} (hincreasing : Increasing tg) (howned : Owned tg)
    (hlisted : Listed tg) {id : UInt64} (hid : id ≠ 0) :
    tg.queue.countP (tg.cmpMsgid id) ≤ 1 := by
  have hdrawer : ∀ thread ∈ tg.queue.filter (tg.cmpMsgid id), (thread, id) ∈ tg.draws := by
    intro thread hthread
    have hmatch := (List.mem_filter.mp hthread).2
    rw [Sender.cmpMsgid, Option.any_eq_true] at hmatch
    obtain ⟨worker, hworker, hmsgid⟩ := hmatch
    rw [decide_eq_true_eq] at hmsgid
    rcases (howned.workers thread worker hworker).msgid with hzero | hdrawn
    · exact absurd (hmsgid.symm.trans hzero) hid
    · rwa [hmsgid] at hdrawn
  rw [List.countP_eq_length_filter]
  apply length_le_one_of_forall_eq (hlisted.nodup.filter _)
  intro first hfirst second hsecond
  have hpair := List.inj_on_of_nodup_map hincreasing.nodup (hdrawer first hfirst)
    (hdrawer second hsecond) rfl
  exact congrArg Prod.fst hpair

/-! ## Every run -/

/-- What the steps of a run with a strictly increasing clock keep. -/
structure Tracked (tg : Sender) : Prop where
  increasing : Increasing tg
  drawnIds : Accounted Pc.drawnIds (tg.draws.map Prod.snd) (tg.messages.map Sent.msgId) tg.workers
  owned : Owned tg
  listed : Listed tg
  lookup : ∀ count ∈ tg.matched, count ≤ 1

theorem lookup_move {tg next : Sender} {label : Label} (hmove : SenderMove tg label next)
    (hlater : Later tg label) (hincreasing : Increasing tg) (howned : Owned tg)
    (hlisted : Listed tg) (hbefore : ∀ count ∈ tg.matched, count ≤ 1) :
    ∀ count ∈ next.matched, count ≤ 1 := by
  cases hmove with
  | queueCut id =>
    intro count hcount
    rcases List.mem_append.mp hcount with hold | hnew
    · exact hbefore count hold
    · rw [List.mem_singleton.mp hnew]
      exact countP_cmpMsgid_le_one hincreasing howned hlisted hlater
  | @message thread worker job msgId kind hworker hpc hkind =>
    obtain ⟨todrop, owner, packets, workers, hframe⟩ := afterMessage_frame
      (tg.record (tg.number kind job.content msgId)) thread worker
      (tg.number kind job.content msgId) job
    rw [hframe]
    exact hbefore
  | _ => exact hbefore

theorem tracked_move {tg next : Sender} {label : Label} (hmove : SenderMove tg label next)
    (hlater : Later tg label) (hbefore : Tracked tg) : Tracked next where
  increasing := increasing_move hmove hlater hbefore.increasing
  drawnIds := drawnIds_move hmove hbefore.drawnIds
  owned := owned_move hmove hlater hbefore.increasing hbefore.owned
  listed := listed_move hmove hbefore.listed
  lookup := lookup_move hmove hlater hbefore.increasing hbefore.owned hbefore.listed hbefore.lookup

theorem tracked_start (count : ℕ) (seqn : ℤ) : Tracked (Sender.start count seqn) where
  increasing := ⟨rfl, List.forall_mem_nil _, .nil, List.forall_mem_nil _⟩
  drawnIds := accounted_start rfl count
  owned := by
    constructor
    · intro thread worker hworker
      rw [List.eq_of_mem_replicate (List.mem_of_getElem? hworker)]
      exact ⟨.inl rfl, List.forall_mem_nil _, List.forall_mem_nil _, trivial⟩
    · exact List.forall_mem_nil _
  listed := ⟨.nil, List.forall_mem_nil _⟩
  lookup := List.forall_mem_nil _

/-- What is tracked makes the ids unique. -/
theorem Tracked.uniqueIds {tg : Sender} (htracked : Tracked tg) : UniqueIds tg where
  distinct := by
    rw [← Multiset.coe_nodup]
    apply Multiset.nodup_of_le _ (Multiset.coe_nodup.mpr htracked.increasing.nodup)
    rw [htracked.drawnIds]
    exact Multiset.le_add_left _ _
  multiple := by
    intro message hmessage
    have hid : message.msgId ∈ ((tg.draws.map Prod.snd : List UInt64) : Multiset UInt64) := by
      rw [htracked.drawnIds]
      exact Multiset.mem_add.mpr (.inr (Multiset.mem_coe.mpr (List.mem_map_of_mem hmessage)))
    obtain ⟨draw, hdraw, heq⟩ := List.mem_map.mp (Multiset.mem_coe.mp hid)
    rw [← heq]
    exact htracked.increasing.multiple draw hdraw
  container := htracked.owned.packets
  lookup := htracked.lookup

/-- In a run whose clock never shows the same time twice, ids are unique, whatever the schedule and
however many threads there are. -/
theorem run_uniqueIds {count : ℕ} {seqn : ℤ} {labels : List Label} {tg : Sender}
    (hrun : run senderStep (Sender.start count seqn) labels = some tg)
    (hlater : Along senderStep Later (Sender.start count seqn) labels) : UniqueIds tg :=
  (run_invariant_along
    (fun hstep hlater hbefore ↦ tracked_move (senderStep_move hstep) hlater hbefore)
    hrun hlater (tracked_start count seqn)).uniqueIds

/-- Two threads whose clock moves on by a second at every reading, and a lookup of the answer to
the query of the first. -/
theorem interleaved_uniqueIds :
    ∃ tg, run senderStep (Sender.start 2 0)
        (interleaved (fun index ↦ index + 1) ++ [.queueCut 4294967296]) = some tg ∧
      tg.messages.length = 5 ∧ tg.matched = [1] ∧ UniqueIds tg := by
  have hrun : (run senderStep (Sender.start 2 0)
      (interleaved (fun index ↦ index + 1) ++ [.queueCut 4294967296])).map
        (fun tg ↦ (tg.messages.length, tg.matched)) = some (5, [1]) := by
    decide +kernel
  have hlater : Along senderStep Later (Sender.start 2 0)
      (interleaved (fun index ↦ index + 1) ++ [.queueCut 4294967296]) := by
    decide +kernel
  obtain ⟨tg, htg, hvalues⟩ := Option.map_eq_some_iff.mp hrun
  simp only [Prod.mk.injEq] at hvalues
  exact ⟨tg, htg, hvalues.1, hvalues.2, run_uniqueIds htg hlater⟩

/-- The same threads on a clock that shows one time at all readings. -/
theorem interleaved_not_uniqueIds :
    ∃ tg, run senderStep (Sender.start 2 0) (interleaved fun _ ↦ 1700000000) = some tg ∧
      ¬ UniqueIds tg := by
  have hrun : (run senderStep (Sender.start 2 0) (interleaved fun _ ↦ 1700000000)).map
      (fun tg ↦ decide (tg.messages.map Sent.msgId).Nodup) = some false := by
    decide +kernel
  obtain ⟨tg, htg, hnodup⟩ := Option.map_eq_some_iff.mp hrun
  refine ⟨tg, htg, fun hunique ↦ ?_⟩
  rw [decide_eq_false_iff_not] at hnodup
  exact hnodup hunique.distinct

end LibTg.Tg
