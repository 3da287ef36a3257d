import LibTg.Tg.Sender
import Mathlib.Algebra.Order.Group.Multiset
import Mathlib.Tactic.Abel

/-!
# Acknowledgements and drops are neither lost nor sent twice

Receivers append ids to `tg->msgids` and `tg->todrop` while any number of threads drain the two
lists into packets. In every reachable state each id that was added is either still in its list or
in exactly one message.
-/

namespace LibTg.Tg

def Sent.ackIds (message : Sent) : Option (List UInt64) :=
  match message.kind with
  | .ack ids => some ids
  | _ => none

/-- The id whose answer a message drops. -/
def Sent.dropId (message : Sent) : Option UInt64 :=
  match message.kind with
  | .drop id => some id
  | _ => none

/-- The `msgs_ack` bodies that a thread holds while it works on a message. -/
def Job.acks : Job → List (List UInt64)
  | .query ids => [ids]
  | .ack ids first => [first].filterMap Sent.ackIds ++ [ids]
  | .drop inner _ => inner.filterMap Sent.ackIds
  | .outer inner _ => inner.filterMap Sent.ackIds

/-- The `msgs_ack` bodies that a thread holds. -/
def Pc.acks : Pc → List (List UInt64)
  | .idle => []
  | .ack _ => []
  | .time job => job.acks
  | .seqno job _ => job.acks
  | .toDrop inner => inner.filterMap Sent.ackIds

/-- The messages that a thread holds while it works on the next one. -/
def Job.messages : Job → List Sent
  | .query _ => []
  | .ack _ first => [first]
  | .drop inner _ => inner
  | .outer inner _ => inner

def Pc.messages : Pc → List Sent
  | .idle => []
  | .ack _ => []
  | .time job => job.messages
  | .seqno job _ => job.messages
  | .toDrop inner => inner

/-- The `msgs_ack` bodies of a packet. -/
def Packet.acks (packet : Packet) : List (List UInt64) := packet.inner.filterMap Sent.ackIds

def Packet.messages (packet : Packet) : List Sent := packet.inner ++ [packet.outer]

/-- Nothing is lost or sent twice: an id to acknowledge is in `tg->msgids` or in one generated
`msgs_ack`, which is in one packet or on its way into one; an id to drop is in `tg->todrop` or in
one generated `rpc_drop_answer`; and a generated message is in one packet or on its way into one.
While a thread holds `todropm` the ids to drop are in transit. -/
structure Conserved (tg : Sender) : Prop where
  msgids : (tg.addedMsgids : Multiset UInt64) = tg.msgids + tg.acks.flatten
  acks : (tg.acks : Multiset (List UInt64)) =
    (tg.workers.map fun worker ↦ (worker.pc.acks : Multiset (List UInt64))).sum +
      tg.packets.flatMap Packet.acks
  todrop : tg.owner = none →
    (tg.addedTodrop : Multiset UInt64) = tg.todrop + tg.messages.filterMap Sent.dropId
  messages : (tg.messages : Multiset Sent) =
    (tg.workers.map fun worker ↦ (worker.pc.messages : Multiset Sent)).sum +
      tg.packets.flatMap Packet.messages

/-! ## The acknowledged ids -/

theorem msgids_move {tg next : Sender} {label : Label} (hmove : SenderMove tg label next)
    (hbefore : (tg.addedMsgids : Multiset UInt64) = tg.msgids + tg.acks.flatten) :
    (next.addedMsgids : Multiset UInt64) = next.msgids + next.acks.flatten := by
  cases hmove with
  | addMsgid id =>
    simp only [← Multiset.coe_add, hbefore]
    exact add_right_comm _ _ _
  | ackSome hworker hpc =>
    simp only [Sender.put, List.flatten_append, List.flatten_singleton, ← Multiset.coe_add, hbefore]
    rw [Multiset.coe_nil, zero_add, add_comm]
  | message hworker hpc hkind =>
    obtain ⟨todrop, owner, packets, workers, hframe⟩ := afterMessage_frame (tg.record _) _ _ _ _
    rw [hframe]
    exact hbefore
  | _ => exact hbefore

/-! ## The bodies on their way into packets -/

/-- All items are held by the threads or done with. -/
def Accounted {Item : Type*} (held : Pc → List Item) (all done : List Item)
    (workers : List Worker) : Prop :=
  (all : Multiset Item) = (workers.map fun worker ↦ (held worker.pc : Multiset Item)).sum + done

section Accounted

variable {Item : Type*} {held : Pc → List Item} {all done : List Item} {workers : List Worker}
  {thread : ℕ} {worker next : Worker}

/-- The account after a thread has moved. -/
theorem Accounted.put (hbefore : Accounted held all done workers)
    (hworker : workers[thread]? = some worker) {added total more finished : List Item}
    (htotal : total = all ++ added) (hfinished : finished = done ++ more)
    (hmoved : (held next.pc : Multiset Item) + more = held worker.pc + (added : Multiset Item)) :
    Accounted held total finished (workers.set thread next) := by
  obtain ⟨rest, hsum, hset⟩ := sum_map_set (fun worker ↦ (held worker.pc : Multiset Item)) hworker
  unfold Accounted at hbefore ⊢
  rw [htotal, hfinished, hset, ← Multiset.coe_add, ← Multiset.coe_add, hbefore, hsum]
  calc (held worker.pc : Multiset Item) + rest + done + added
      = (held worker.pc + (added : Multiset Item)) + rest + done := by abel
    _ = (held next.pc + (more : Multiset Item)) + rest + done := by rw [hmoved]
    _ = (held next.pc : Multiset Item) + rest + (done + (more : Multiset Item)) := by abel

/-- The account after a thread has moved and holds what it held. -/
theorem Accounted.keep (hbefore : Accounted held all done workers)
    (hworker : workers[thread]? = some worker) (hheld : held next.pc = held worker.pc) :
    Accounted held all done (workers.set thread next) := by
  unfold Accounted at hbefore ⊢
  rw [hbefore, sum_map_set_of_eq _ hworker]
  exact congrArg _ hheld

theorem accounted_start (hidle : held .idle = []) (count : ℕ) :
    Accounted held [] [] (List.replicate count ⟨.idle, 0, [], false⟩) := by
  simp [Accounted, hidle]

end Accounted

theorem acks_move {tg next : Sender} {label : Label} (hmove : SenderMove tg label next)
    (hbefore : Accounted Pc.acks tg.acks (tg.packets.flatMap Packet.acks) tg.workers) :
    Accounted Pc.acks next.acks (next.packets.flatMap Packet.acks) next.workers := by
  cases hmove with
  | queueAdd hworker hpc hadded => exact hbefore.keep hworker rfl
  | header query content hworker hpc => exact hbefore.keep hworker (by rw [hpc]; rfl)
  | ackNone hworker hpc hnil => exact hbefore.keep hworker (by rw [hpc]; rfl)
  | ackSome hworker hpc =>
    exact hbefore.put hworker rfl (List.append_nil _).symm (by rw [hpc]; rfl)
  | clock reading hworker hpc hlast => exact hbefore.keep hworker (by rw [hpc]; rfl)
  | toDropNone hworker hpc howner hnil => exact hbefore.keep hworker (by rw [hpc]; rfl)
  | toDropSome hworker hpc howner hsome => exact hbefore.keep hworker (by rw [hpc]; rfl)
  | @message thread worker job msgId kind hworker hpc hkind =>
    cases job with
    | query ids =>
      cases hkind
      exact hbefore.keep hworker (by rw [hpc]; rfl)
    | ack ids first =>
      cases hkind
      refine hbefore.keep hworker ?_
      rw [hpc]
      exact List.filterMap_append (l := [first])
    | drop inner index =>
      obtain ⟨id, hid, hdrop⟩ := Option.map_eq_some_iff.mp hkind
      subst hdrop
      rw [afterMessage]
      have hacks : (inner ++ [tg.number (.drop id) true msgId]).filterMap Sent.ackIds =
          inner.filterMap Sent.ackIds := by
        rw [List.filterMap_append]
        exact List.append_nil _
      split
      case isTrue => exact hbefore.keep hworker (by rw [hpc]; exact hacks)
      case isFalse => exact hbefore.keep hworker (by rw [hpc]; exact hacks)
    | outer inner content =>
      refine hbefore.put hworker (List.append_nil _).symm List.flatMap_append ?_
      rw [hpc, Multiset.coe_nil, add_zero, List.flatMap_singleton]
      exact zero_add _
  | _ => exact hbefore

/-! ## The messages on their way into packets -/

theorem messages_move {tg next : Sender} {label : Label} (hmove : SenderMove tg label next)
    (hbefore : Accounted Pc.messages tg.messages (tg.packets.flatMap Packet.messages) tg.workers) :
    Accounted Pc.messages next.messages (next.packets.flatMap Packet.messages) next.workers := by
  cases hmove with
  | queueAdd hworker hpc hadded => exact hbefore.keep hworker rfl
  | header query content hworker hpc => exact hbefore.keep hworker (by rw [hpc]; rfl)
  | ackNone hworker hpc hnil => exact hbefore.keep hworker (by rw [hpc]; rfl)
  | ackSome hworker hpc => exact hbefore.keep hworker (by rw [hpc]; rfl)
  | clock reading hworker hpc hlast => exact hbefore.keep hworker (by rw [hpc]; rfl)
  | toDropNone hworker hpc howner hnil => exact hbefore.keep hworker (by rw [hpc]; rfl)
  | toDropSome hworker hpc howner hsome => exact hbefore.keep hworker (by rw [hpc]; rfl)
  | @message thread worker job msgId kind hworker hpc hkind =>
    cases job with
    | query ids => exact hbefore.put hworker rfl (List.append_nil _).symm (by rw [hpc]; rfl)
    | ack ids first => exact hbefore.put hworker rfl (List.append_nil _).symm (by rw [hpc]; rfl)
    | drop inner index =>
      rw [afterMessage]
      split
      case isTrue =>
        exact hbefore.put hworker rfl (List.append_nil _).symm (by rw [hpc]; exact add_zero _)
      case isFalse =>
        exact hbefore.put hworker rfl (List.append_nil _).symm (by rw [hpc]; exact add_zero _)
    | outer inner content =>
      refine hbefore.put hworker rfl List.flatMap_append ?_
      rw [hpc, List.flatMap_singleton]
      exact zero_add _
  | _ => exact hbefore

/-! ## The dropped ids -/

/-- The index of `tg->todrop` that a thread works on. -/
def Pc.dropIndex : Pc → Option ℕ
  | .time (.drop _ index) => some index
  | .seqno (.drop _ index) _ => some index
  | _ => none

/-- The ids to drop are in `tg->todrop` or in a message. The thread that holds `todropm` has done
so for the ids before its index, which are still in the list. -/
structure DropsAccounted (tg : Sender) : Prop where
  free : tg.owner = none →
    (tg.addedTodrop : Multiset UInt64) = tg.todrop + tg.messages.filterMap Sent.dropId
  busy : ∀ thread worker index, tg.workers[thread]? = some worker →
    worker.pc.dropIndex = some index → tg.owner = some thread ∧ index < tg.todrop.length ∧
      (tg.addedTodrop : Multiset UInt64) =
        tg.todrop.drop index + tg.messages.filterMap Sent.dropId

theorem getElem?_set_cases {workers : List Worker} {thread other : ℕ} {next found : Worker}
    (hfound : (workers.set thread next)[other]? = some found) :
    (other = thread ∧ found = next) ∨ (other ≠ thread ∧ workers[other]? = some found) := by
  rw [List.getElem?_set] at hfound
  split at hfound
  case isTrue hsame =>
    split at hfound
    case isTrue => exact .inl ⟨hsame.symm, (Option.some.inj hfound).symm⟩
    case isFalse => cases hfound
  case isFalse hother => exact .inr ⟨fun h ↦ hother h.symm, hfound⟩

section Drops

variable {tg after : Sender} {thread : ℕ} {worker next : Worker}

/-- A move that leaves the drops alone. -/
theorem DropsAccounted.keep (hbefore : DropsAccounted tg)
    (hworker : tg.workers[thread]? = some worker)
    (hworkers : after.workers = tg.workers.set thread next) (howner : after.owner = tg.owner)
    (htodrop : after.todrop = tg.todrop) (hadded : after.addedTodrop = tg.addedTodrop)
    (hmessages : after.messages.filterMap Sent.dropId = tg.messages.filterMap Sent.dropId)
    (hindex : ∀ index, next.pc.dropIndex = some index → worker.pc.dropIndex = some index) :
    DropsAccounted after := by
  constructor
  · intro hfree
    rw [hadded, htodrop, hmessages]
    exact hbefore.free (howner ▸ hfree)
  · intro other found index hfound hdrop
    rw [hadded, htodrop, hmessages, howner]
    rw [hworkers] at hfound
    rcases getElem?_set_cases hfound with ⟨hsame, heq⟩ | ⟨-, hold⟩
    · subst heq hsame
      exact hbefore.busy _ worker index hworker (hindex index hdrop)
    · exact hbefore.busy other found index hold hdrop

/-- No thread is inside the section of `todropm` while it is free. -/
theorem DropsAccounted.dropIndex_eq_none (hbefore : DropsAccounted tg) (hfree : tg.owner = none)
    (hworker : tg.workers[thread]? = some worker) : worker.pc.dropIndex = none := by
  rw [Option.eq_none_iff_forall_ne_some]
  intro index hindex
  have howner := (hbefore.busy thread worker index hworker hindex).1
  rw [hfree] at howner
  cases howner

/-- A thread begins to drop. -/
theorem DropsAccounted.begin (hbefore : DropsAccounted tg) (hfree : tg.owner = none)
    (hsome : 0 < tg.todrop.length) (inner : List Sent) :
    DropsAccounted ({ tg with owner := some thread }.put thread
      { worker with pc := .time (.drop inner 0) }) := by
  constructor
  · intro howner
    cases howner
  · intro other found index hfound hdrop
    rcases getElem?_set_cases hfound with ⟨hsame, heq⟩ | ⟨-, hold⟩
    · subst heq hsame
      cases hdrop
      exact ⟨rfl, hsome, hbefore.free hfree⟩
    · rw [hbefore.dropIndex_eq_none hfree hold] at hdrop
      cases hdrop

/-- A thread has dropped the id at its index: the rest of the list is what remains to be done. -/
theorem DropsAccounted.dropped (hbefore : DropsAccounted tg)
    (hworker : tg.workers[thread]? = some worker) {index : ℕ}
    (hindex : worker.pc.dropIndex = some index) {id : UInt64} (hid : tg.todrop[index]? = some id)
    {message : Sent} (hmessage : message.dropId = some id) :
    (tg.addedTodrop : Multiset UInt64) = tg.todrop.drop (index + 1) +
      (tg.messages ++ [message]).filterMap Sent.dropId := by
  have hdrop : tg.todrop.drop index = id :: tg.todrop.drop (index + 1) := by
    obtain ⟨hlt, hget⟩ := List.getElem?_eq_some_iff.mp hid
    rw [List.drop_eq_getElem_cons hlt, hget]
  have hlast : (tg.messages ++ [message]).filterMap Sent.dropId =
      tg.messages.filterMap Sent.dropId ++ [id] := by
    rw [List.filterMap_append, List.filterMap_cons_some hmessage, List.filterMap_nil]
  calc (tg.addedTodrop : Multiset UInt64)
      = tg.todrop.drop index + tg.messages.filterMap Sent.dropId :=
        (hbefore.busy thread worker index hworker hindex).2.2
    _ = (id ::ₘ tg.todrop.drop (index + 1)) + tg.messages.filterMap Sent.dropId := by
        rw [hdrop, Multiset.cons_coe]
    _ = tg.todrop.drop (index + 1) + (tg.messages.filterMap Sent.dropId + ({id} : Multiset UInt64)) := by
        rw [← Multiset.singleton_add]
        abel
    _ = tg.todrop.drop (index + 1) + ((tg.messages ++ [message]).filterMap Sent.dropId : List UInt64) := by
        rw [hlast, ← Multiset.coe_add, Multiset.coe_singleton]

/-- The message of a drop answer, and the next index or the end of the section. -/
theorem DropsAccounted.dropMessage (hbefore : DropsAccounted tg)
    (hworker : tg.workers[thread]? = some worker) {inner : List Sent} {index : ℕ} {msgId : UInt64}
    (hpc : worker.pc = .seqno (.drop inner index) msgId) {id : UInt64}
    (hid : tg.todrop[index]? = some id) {message : Sent} (hmessage : message.dropId = some id) :
    DropsAccounted (afterMessage (tg.record message) thread worker message
      (.drop inner index)) := by
  have hindex : worker.pc.dropIndex = some index := by rw [hpc]; rfl
  have howner := (hbefore.busy thread worker index hworker hindex).1
  have hdropped := hbefore.dropped hworker hindex hid hmessage
  have hothers : ∀ other found position, other ≠ thread → tg.workers[other]? = some found →
      found.pc.dropIndex ≠ some position := by
    intro other found position hne hfound hposition
    have hother := (hbefore.busy other found position hfound hposition).1
    rw [howner, Option.some.injEq] at hother
    exact hne hother.symm
  rw [afterMessage]
  split
  case isTrue hmore =>
    constructor
    · intro (hfree : tg.owner = none)
      rw [howner] at hfree
      cases hfree
    · intro other found position hfound hdrop
      rcases getElem?_set_cases hfound with ⟨hsame, heq⟩ | ⟨hne, hold⟩
      · subst heq hsame
        cases hdrop
        exact ⟨howner, hmore, hdropped⟩
      · exact absurd hdrop (hothers other found position hne hold)
  case isFalse hlast =>
    constructor
    · intro _
      have hempty : tg.todrop.drop (index + 1) = [] := List.drop_eq_nil_of_le (Nat.le_of_not_lt hlast)
      rw [hempty] at hdropped
      exact hdropped
    · intro other found position hfound hdrop
      rcases getElem?_set_cases hfound with ⟨hsame, heq⟩ | ⟨hne, hold⟩
      · subst heq hsame
        cases hdrop
      · exact absurd hdrop (hothers other found position hne hold)

end Drops

theorem filterMap_record_of_none (tg : Sender) {message : Sent} (hmessage : message.dropId = none) :
    (tg.record message).messages.filterMap Sent.dropId = tg.messages.filterMap Sent.dropId := by
  unfold Sender.record
  rw [List.filterMap_append, List.filterMap_cons_none hmessage, List.filterMap_nil,
    List.append_nil]

theorem drops_move {tg next : Sender} {label : Label} (hmove : SenderMove tg label next)
    (hbefore : DropsAccounted tg) : DropsAccounted next := by
  cases hmove with
  | addMsgid id => exact ⟨hbefore.free, hbefore.busy⟩
  | addTodrop id howner =>
    constructor
    · intro _
      simp only [← Multiset.coe_add, hbefore.free howner]
      exact add_right_comm _ _ _
    · intro thread worker index hworker hindex
      rw [hbefore.dropIndex_eq_none howner hworker] at hindex
      cases hindex
  | badMsgNotification => exact ⟨hbefore.free, hbefore.busy⟩
  | queueAdd hworker hpc hadded =>
    exact hbefore.keep hworker rfl rfl rfl rfl rfl fun index hindex ↦ hindex
  | queueCut id => exact ⟨hbefore.free, hbefore.busy⟩
  | header query content hworker hpc =>
    exact hbefore.keep hworker rfl rfl rfl rfl rfl fun index hindex ↦ nomatch hindex
  | ackNone hworker hpc hnil =>
    exact hbefore.keep hworker rfl rfl rfl rfl rfl fun index hindex ↦ nomatch hindex
  | ackSome hworker hpc =>
    exact hbefore.keep hworker rfl rfl rfl rfl rfl fun index hindex ↦ nomatch hindex
  | @clock thread worker job reading hworker hpc hlast =>
    refine hbefore.keep hworker rfl rfl rfl rfl rfl fun index hindex ↦ ?_
    rw [hpc]
    cases job with
    | drop inner position => exact hindex
    | _ => cases hindex
  | toDropNone hworker hpc howner hnil =>
    exact hbefore.keep hworker rfl rfl rfl rfl rfl fun index hindex ↦ nomatch hindex
  | toDropSome hworker hpc howner hsome => exact hbefore.begin howner hsome _
  | @message thread worker job msgId kind hworker hpc hkind =>
    cases job with
    | drop inner index =>
      obtain ⟨id, hid, hdrop⟩ := Option.map_eq_some_iff.mp hkind
      subst hdrop
      exact hbefore.dropMessage hworker hpc hid rfl
    | _ =>
      cases hkind
      exact hbefore.keep hworker rfl rfl rfl rfl (filterMap_record_of_none tg rfl)
        fun index hindex ↦ nomatch hindex

/-! ## Every run -/

theorem dropsAccounted_start (count : ℕ) (seqn : ℤ) : DropsAccounted (Sender.start count seqn) := by
  constructor
  · intro _
    rfl
  · intro thread worker index hworker hindex
    have hidle : worker.pc = .idle := by
      rw [Sender.start, List.getElem?_replicate] at hworker
      split at hworker
      case isTrue => rw [← Option.some.inj hworker]
      case isFalse => cases hworker
    rw [hidle] at hindex
    cases hindex

/-- No schedule of any number of threads loses or doubles an acknowledgement or a drop. -/
theorem run_conserved {count : ℕ} {seqn : ℤ} {labels : List Label} {tg : Sender}
    (hrun : run senderStep (Sender.start count seqn) labels = some tg) : Conserved tg where
  msgids := run_invariant (fun hstep hbefore ↦ msgids_move (senderStep_move hstep) hbefore) hrun rfl
  acks := run_invariant (fun hstep hbefore ↦ acks_move (senderStep_move hstep) hbefore) hrun
    (accounted_start rfl count)
  todrop := (run_invariant (fun hstep hbefore ↦ drops_move (senderStep_move hstep) hbefore) hrun
    (dropsAccounted_start count seqn)).free
  messages := run_invariant (fun hstep hbefore ↦ messages_move (senderStep_move hstep) hbefore) hrun
    (accounted_start rfl count)

theorem interleaved_conserved :
    ∃ tg, run senderStep (Sender.start 2 3) (interleaved fun index ↦ index + 1) = some tg ∧
      tg.packets.length = 2 ∧ tg.addedMsgids = [5] ∧ tg.addedTodrop = [7] ∧ Conserved tg := by
  have hrun : (run senderStep (Sender.start 2 3) (interleaved fun index ↦ index + 1)).map
      (fun tg ↦ (tg.packets.length, tg.addedMsgids, tg.addedTodrop)) = some (2, [5], [7]) := by
    decide +kernel
  obtain ⟨tg, htg, hvalues⟩ := Option.map_eq_some_iff.mp hrun
  simp only [Prod.mk.injEq] at hvalues
  exact ⟨tg, htg, hvalues.1, hvalues.2.1, hvalues.2.2, run_conserved htg⟩

end LibTg.Tg
