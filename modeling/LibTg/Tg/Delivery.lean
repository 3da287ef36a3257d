import LibTg.Tg.Conservation

/-!
# Packets that do not arrive (`tg_send`, `_tg_receive`)

The thread of a queue runs `tg_header` in `tg_send`, passes the packet to `send`, and waits for
answers. If `send` fails it gives up. If the answer is a `bad_server_salt`, the server has not
processed the packet, and the thread sends its query again in a new packet. In both cases the ids
that the packet should have acknowledged are gone.
-/

namespace LibTg.Tg

/-- Where the thread of a queue stands: before `tg_send`, in `tg_header`, before `send` with a packet,
in the receive loop, or at its end. -/
inductive Phase
  | ready
  | building
  | built (packet : ℕ)
  | receiving
  | ended
  deriving DecidableEq

/-- The packet that `send` is about to be called for. -/
def Phase.packet : Phase → Option ℕ
  | .built packet => some packet
  | _ => none

/-- A packet that did not arrive: the ids that it acknowledges, and `tg->msgids` after the failure. -/
structure Failure where
  carried : List UInt64
  msgids : List UInt64
  deriving DecidableEq

/-- A session whose packets are sent: the phases of its threads, the packets that `send` has taken,
and the failures so far. -/
structure Delivery where
  tg : Sender
  phases : List Phase
  sent : List ℕ
  failures : List Failure
  deriving DecidableEq

/-- `count` threads before their first `tg_send`. -/
def Delivery.start (count : ℕ) (seqn : ℤ) : Delivery where
  tg := Sender.start count seqn
  phases := List.replicate count .ready
  sent := []
  failures := []

/-- The steps: a step of the session, a call of `send` that succeeds or fails, and an answer
`bad_server_salt` to a packet, which any thread may receive. `id` is the id of the message that it
came in; in a container it has an id of its own, `inner`. -/
inductive DeliveryLabel
  | sender (label : Label)
  | send (thread : ℕ) (ok : Bool)
  | badServerSalt (thread packet : ℕ) (id : UInt64) (inner : Option UInt64)

/-- The ids that a packet acknowledges. -/
def Sender.carried (tg : Sender) (packet : ℕ) : List UInt64 :=
  (tg.packets[packet]?).elim [] fun packet ↦ packet.acks.flatten

/-- `tg_header` is called in `tg_send` only. -/
def Delivery.permits (delivery : Delivery) : Label → Bool
  | .header thread _ _ => delivery.phases[thread]? = some .ready
  | _ => true

/-- The phases after a step of the session. A thread whose packet is complete comes to `send`. -/
def Delivery.phasesAfter (delivery : Delivery) (next : Sender) : Label → List Phase
  | .header thread _ _ => delivery.phases.set thread .building
  | .locked thread =>
    if delivery.tg.packets.length < next.packets.length then
      delivery.phases.set thread (.built delivery.tg.packets.length)
    else delivery.phases
  | _ => delivery.phases

/-- `tg_add_msgid` for several ids. -/
def Sender.addMsgids (tg : Sender) (ids : List UInt64) : Sender :=
  { tg with msgids := tg.msgids ++ ids, addedMsgids := tg.addedMsgids ++ ids }

/-- A packet has not arrived. -/
def Delivery.fail (delivery : Delivery) (packet : ℕ) : Delivery :=
  { delivery with
    failures := delivery.failures ++ [⟨delivery.tg.carried packet, delivery.tg.msgids⟩] }

/-- A `tg_send` that fails ends the loop of `tg_run_queue`. `RTL_RESEND` leads back to it, but
`handle_tl` passes over a notice in a container. -/
def deliveryStep (delivery : Delivery) : DeliveryLabel → Option Delivery
  | .sender label =>
    if delivery.permits label then do
      let tg ← senderStep delivery.tg label
      some { delivery with tg := tg, phases := delivery.phasesAfter tg label }
    else none
  | .send thread ok =>
    match delivery.phases[thread]? with
    | some (.built packet) =>
      if ok then
        some { delivery with
          phases := delivery.phases.set thread .receiving
          sent := delivery.sent ++ [packet] }
      else
        some ({ delivery with phases := delivery.phases.set thread .ended }.fail packet)
    | _ => none
  | .badServerSalt thread packet id inner =>
    if delivery.phases[thread]? = some .receiving ∧ packet ∈ delivery.sent then
      let phase := if inner.isNone then Phase.ready else .receiving
      some ({ delivery with
        tg := delivery.tg.addMsgids (id :: inner.toList)
        phases := delivery.phases.set thread phase }.fail packet)
    else none

/-- After every failure, the ids of the packet are again in `tg->msgids`. -/
def Restored (delivery : Delivery) : Prop :=
  ∀ failure ∈ delivery.failures, ∀ id ∈ failure.carried, id ∈ failure.msgids

/-- The message with this id has been received more often than it has been acknowledged. -/
def Sender.ReceivedAgain (tg : Sender) (id : UInt64) : Prop :=
  tg.acks.flatten.count id < tg.addedMsgids.count id

/-- Every message that a failing packet acknowledges has been received again since, or is the answer
that reports the failure. -/
def Harmless (delivery : Delivery) : DeliveryLabel → Prop
  | .sender _ => True
  | .send thread ok => ok = false → ∀ packet ∈ (delivery.phases[thread]?).bind Phase.packet,
      ∀ id ∈ delivery.tg.carried packet, delivery.tg.ReceivedAgain id
  | .badServerSalt _ packet answer inner => ∀ id ∈ delivery.tg.carried packet,
      delivery.tg.ReceivedAgain id ∨ id ∈ answer :: inner.toList

instance (tg : Sender) (id : UInt64) : Decidable (tg.ReceivedAgain id) :=
  inferInstanceAs (Decidable (_ < _))

/-- The ids are looked up one by one. -/
instance decidableReceivedAgain (tg : Sender) (ids : List UInt64) :
    Decidable (∀ id ∈ ids, tg.ReceivedAgain id) :=
  List.decidableBAll _ ids

instance decidableHarmless (delivery : Delivery) :
    (label : DeliveryLabel) → Decidable (Harmless delivery label)
  | .sender _ => isTrue trivial
  | .send thread ok => inferInstanceAs (Decidable (ok = false →
      ∀ packet ∈ (delivery.phases[thread]?).bind Phase.packet,
        ∀ id ∈ delivery.tg.carried packet, delivery.tg.ReceivedAgain id))
  | .badServerSalt _ packet answer inner =>
    List.decidableBAll (fun id ↦ delivery.tg.ReceivedAgain id ∨ id ∈ answer :: inner.toList)
      (delivery.tg.carried packet)

/-! ## What a step can do -/

/-- The moves of the delivery. -/
inductive DeliveryMove (delivery : Delivery) : DeliveryLabel → Delivery → Prop
  | sender {label tg} (phases : List Phase) (hstep : senderStep delivery.tg label = some tg) :
      DeliveryMove delivery (.sender label) { delivery with tg := tg, phases := phases }
  | sent (thread : ℕ) (phases : List Phase) (sent : List ℕ) :
      DeliveryMove delivery (.send thread true) { delivery with phases := phases, sent := sent }
  | lost {thread packet} (phases : List Phase)
      (hphase : delivery.phases[thread]? = some (.built packet)) :
      DeliveryMove delivery (.send thread false) ({ delivery with phases := phases }.fail packet)
  | badServerSalt (thread packet : ℕ) (id : UInt64) (inner : Option UInt64)
      (phases : List Phase) : DeliveryMove delivery (.badServerSalt thread packet id inner)
      ({ delivery with
        tg := delivery.tg.addMsgids (id :: inner.toList)
        phases := phases }.fail packet)

/-- Every step is one of the moves. -/
theorem deliveryStep_move {delivery next : Delivery} {label : DeliveryLabel}
    (hstep : deliveryStep delivery label = some next) : DeliveryMove delivery label next := by
  cases label with
  | sender label =>
    rw [deliveryStep] at hstep
    split at hstep
    case isTrue =>
      rw [Option.bind_eq_bind, Option.bind_eq_some_iff] at hstep
      obtain ⟨tg, htg, hnext⟩ := hstep
      rw [Option.some.injEq] at hnext
      exact hnext ▸ .sender _ htg
    case isFalse => cases hstep
  | send thread ok =>
    rw [deliveryStep] at hstep
    split at hstep
    case h_1 packet hphase =>
      cases ok with
      | true =>
        rw [if_pos rfl, Option.some.injEq] at hstep
        exact hstep ▸ .sent thread _ _
      | false =>
        rw [if_neg Bool.false_ne_true, Option.some.injEq] at hstep
        exact hstep ▸ .lost _ hphase
    case h_2 => cases hstep
  | badServerSalt thread packet id inner =>
    rw [deliveryStep] at hstep
    split at hstep
    case isTrue =>
      rw [Option.some.injEq] at hstep
      exact hstep ▸ .badServerSalt thread packet id inner _
    case isFalse => cases hstep

/-! ## Which ids are in `tg->msgids` -/

/-- An id is waiting to be acknowledged if it was received more often than acknowledged. -/
theorem mem_msgids_iff {tg : Sender}
    (hconserved : (tg.addedMsgids : Multiset UInt64) = tg.msgids + tg.acks.flatten) (id : UInt64) :
    id ∈ tg.msgids ↔ tg.ReceivedAgain id := by
  have hcount := congrArg (Multiset.count id) hconserved
  rw [Multiset.count_add, Multiset.coe_count, Multiset.coe_count, Multiset.coe_count] at hcount
  rw [← List.count_pos_iff, Sender.ReceivedAgain, hcount]
  exact Nat.lt_add_left_iff_pos.symm

theorem addMsgids_conserved {tg : Sender}
    (hconserved : (tg.addedMsgids : Multiset UInt64) = tg.msgids + tg.acks.flatten)
    (ids : List UInt64) :
    ((tg.addMsgids ids).addedMsgids : Multiset UInt64) =
      (tg.addMsgids ids).msgids + (tg.addMsgids ids).acks.flatten := by
  simp only [Sender.addMsgids, ← Multiset.coe_add, hconserved]
  exact add_right_comm _ _ _

/-! ## Every run -/

/-- What the harmless steps keep. -/
structure Delivered (delivery : Delivery) : Prop where
  conserved : (delivery.tg.addedMsgids : Multiset UInt64) =
    delivery.tg.msgids + delivery.tg.acks.flatten
  restored : Restored delivery

theorem restored_fail_iff {delivery : Delivery} {packet : ℕ} (hrestored : Restored delivery) :
    Restored (delivery.fail packet) ↔
      ∀ id ∈ delivery.tg.carried packet, id ∈ delivery.tg.msgids := by
  unfold Restored Delivery.fail
  rw [List.forall_mem_append, List.forall_mem_singleton]
  exact and_iff_right hrestored

theorem conserved_move {delivery next : Delivery} {label : DeliveryLabel}
    (hmove : DeliveryMove delivery label next)
    (hbefore : (delivery.tg.addedMsgids : Multiset UInt64) =
      delivery.tg.msgids + delivery.tg.acks.flatten) :
    (next.tg.addedMsgids : Multiset UInt64) = next.tg.msgids + next.tg.acks.flatten := by
  cases hmove with
  | sender phases hstep => exact msgids_move (senderStep_move hstep) hbefore
  | sent thread phases sent => exact hbefore
  | lost phases hphase => exact hbefore
  | badServerSalt thread packet id inner phases => exact addMsgids_conserved hbefore _

/-- A step restores the ids of its packet exactly if it is harmless. -/
theorem restored_move_iff {delivery next : Delivery} {label : DeliveryLabel}
    (hmove : DeliveryMove delivery label next) (hbefore : Delivered delivery) :
    Restored next ↔ Harmless delivery label := by
  cases hmove with
  | sender phases hstep => exact iff_of_true hbefore.restored trivial
  | sent thread phases sent => exact iff_of_true hbefore.restored nofun
  | @lost thread packet phases hphase =>
    have hbase : Restored { delivery with phases := phases } := hbefore.restored
    rw [restored_fail_iff hbase]
    simp only [mem_msgids_iff hbefore.conserved, Harmless, hphase, Option.bind_some, Phase.packet,
      Option.mem_some_iff, forall_const, forall_eq']
  | badServerSalt thread packet id inner phases =>
    have hbase : Restored { delivery with
        tg := delivery.tg.addMsgids (id :: inner.toList), phases := phases } := hbefore.restored
    rw [restored_fail_iff hbase]
    simp only [Sender.addMsgids, List.mem_append, mem_msgids_iff hbefore.conserved, Harmless]
    exact Iff.rfl

theorem delivered_start (count : ℕ) (seqn : ℤ) : Delivered (Delivery.start count seqn) where
  conserved := rfl
  restored := List.forall_mem_nil _

theorem deliveryStep_delivered {delivery next : Delivery} {label : DeliveryLabel}
    (hstep : deliveryStep delivery label = some next) (hharmless : Harmless delivery label)
    (hbefore : Delivered delivery) : Delivered next where
  conserved := conserved_move (deliveryStep_move hstep) hbefore.conserved
  restored := (restored_move_iff (deliveryStep_move hstep) hbefore).mpr hharmless

/-- The acknowledgements survive all failures of a run exactly if each of its steps is harmless. -/
theorem run_restored_iff {count : ℕ} {seqn : ℤ} {labels : List DeliveryLabel}
    {delivery : Delivery}
    (hrun : run deliveryStep (Delivery.start count seqn) labels = some delivery) :
    Always deliveryStep Restored (Delivery.start count seqn) labels ↔
      Along deliveryStep Harmless (Delivery.start count seqn) labels :=
  always_iff_along Delivered.restored deliveryStep_delivered
    (fun hstep hbefore hharmful hrestored ↦
      hharmful ((restored_move_iff (deliveryStep_move hstep) hbefore).mp hrestored))
    hrun (delivered_start count seqn)

/-! ## A failed packet, with and without an acknowledgement -/

/-- A thread sends a query and acknowledges the message 5, and `send` fails. In the meantime some
messages are received. -/
def failedSend (received : List UInt64) : List DeliveryLabel :=
  [.sender (.addMsgid 5), .sender (.header 0 [1] true), .sender (.locked 0),
    .sender (.clock 0 ⟨1, 0, zero_nsec_lt⟩), .sender (.locked 0),
    .sender (.clock 0 ⟨2, 0, zero_nsec_lt⟩), .sender (.locked 0), .sender (.locked 0),
    .sender (.clock 0 ⟨3, 0, zero_nsec_lt⟩), .sender (.locked 0)] ++
    received.map (fun id ↦ .sender (.addMsgid id)) ++ [.send 0 false]

/-- The server has sent the message 5 again. -/
theorem failedSend_restored :
    Always deliveryStep Restored (Delivery.start 1 0) (failedSend [5]) := by
  have hruns : (run deliveryStep (Delivery.start 1 0) (failedSend [5])).isSome := by
    decide +kernel
  obtain ⟨delivery, hrun⟩ := Option.isSome_iff_exists.mp hruns
  exact (run_restored_iff hrun).mpr (by decide +kernel)

/-- The server has not sent it again. -/
theorem failedSend_not_restored :
    ∃ delivery, run deliveryStep (Delivery.start 1 0) (failedSend [6]) = some delivery ∧
      ¬ Restored delivery := by
  have hfailures : (run deliveryStep (Delivery.start 1 0) (failedSend [6])).map
      Delivery.failures = some [⟨[5], [6]⟩] := by
    decide +kernel
  obtain ⟨delivery, hrun, hfailure⟩ := Option.map_eq_some_iff.mp hfailures
  refine ⟨delivery, hrun, fun hrestored ↦ ?_⟩
  have hmem : (⟨[5], [6]⟩ : Failure) ∈ delivery.failures := by
    rw [hfailure]
    exact List.mem_singleton_self _
  exact absurd (hrestored _ hmem 5 (List.mem_singleton_self _)) (by decide)

end LibTg.Tg
