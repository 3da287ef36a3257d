import LibTg.Tg.Conservation

/-!
# Sequence numbers of concurrent packets

The threads number their messages in the order in which they take `seqnm`. A container draws its
numbers in several sections, between which other threads draw theirs, and still the number of the
message around it is above those inside.
-/

namespace LibTg.Tg

/-- The number due to a message after the messages before it. -/
def dueSeqno (start : ℤ) (before : List Sent) (content : Bool) : ℤ :=
  2 * (start + before.countP Sent.content) + if content then 1 else 0

/-- The counter has counted the content-related messages, and every message has the number due to
it. -/
structure Numbered (start : ℤ) (tg : Sender) : Prop where
  seqn : tg.seqn = start + tg.messages.countP Sent.content
  seqno : ∀ index message, tg.messages[index]? = some message →
    message.seqno = UInt32.ofInt (dueSeqno start (tg.messages.take index) message.content)

theorem numbered_start (count : ℕ) (start : ℤ) : Numbered start (Sender.start count start) where
  seqn := (add_zero start).symm
  seqno := fun _ _ hmessage ↦ nomatch hmessage

/-- A list grows by one: an index is old, or it is that of the new item. -/
theorem getElem?_concat_cases {Item : Type*} {items : List Item} {last found : Item} {index : ℕ}
    (hfound : (items ++ [last])[index]? = some found) :
    (index < items.length ∧ items[index]? = some found) ∨
      (index = items.length ∧ found = last) := by
  rcases Nat.lt_trichotomy index items.length with hlt | heq | hgt
  · rw [List.getElem?_append_left hlt] at hfound
    exact .inl ⟨hlt, hfound⟩
  · rw [heq, List.getElem?_concat_length] at hfound
    exact .inr ⟨heq, (Option.some.inj hfound).symm⟩
  · rw [List.getElem?_eq_none (by rw [List.length_append, List.length_singleton]; omega)] at hfound
    cases hfound

theorem Numbered.record {start : ℤ} {tg : Sender} (hbefore : Numbered start tg) (kind : Kind)
    (content : Bool) (msgId : UInt64) :
    Numbered start (tg.record (tg.number kind content msgId)) := by
  constructor
  · cases content with
    | false => simpa [Sender.record, Sender.number, nextSeqno] using hbefore.seqn
    | true => simp [Sender.record, Sender.number, nextSeqno, hbefore.seqn, add_assoc]
  · intro index message hmessage
    rcases getElem?_concat_cases hmessage with ⟨hlt, hold⟩ | ⟨heq, hnew⟩
    · rw [hbefore.seqno index message hold, Sender.record, List.take_append_of_le_length hlt.le]
    · rw [Sender.record, heq, hnew, List.take_left]
      cases content with
      | false => simp [Sender.number, nextSeqno, hbefore.seqn, dueSeqno, mul_comm]
      | true => simp [Sender.number, nextSeqno, hbefore.seqn, dueSeqno, mul_comm]

theorem numbered_move {start : ℤ} {tg next : Sender} {label : Label}
    (hmove : SenderMove tg label next) (hbefore : Numbered start tg) : Numbered start next := by
  cases hmove with
  | @message thread worker job msgId kind hworker hpc hkind =>
    obtain ⟨todrop, owner, packets, workers, hframe⟩ := afterMessage_frame
      (tg.record (tg.number kind job.content msgId)) thread worker
      (tg.number kind job.content msgId) job
    rw [hframe]
    have hrecord := hbefore.record kind job.content msgId
    exact ⟨hrecord.seqn, hrecord.seqno⟩
  | _ => exact ⟨hbefore.seqn, hbefore.seqno⟩

/-! ## Containers -/

/-- The message around a container is not content-related. -/
def Pc.outerPlain : Pc → Prop
  | .time (.outer inner content) => inner ≠ [] → content = false
  | .seqno (.outer inner content) _ => inner ≠ [] → content = false
  | _ => True

/-- A container whose messages have got their numbers before the message around it. -/
def Packet.Nested (messages : List Sent) (packet : Packet) : Prop :=
  packet.inner ≠ [] → packet.outer.content = false ∧
    ∃ last : ℕ, messages[last]? = some packet.outer ∧
      ∀ message ∈ packet.inner, ∃ index < last, messages[index]? = some message

/-- A thread holds numbered messages only, and puts a plain message around them. -/
def Pc.Ready (messages : List Sent) (pc : Pc) : Prop :=
  (∀ message ∈ pc.messages, message ∈ messages) ∧ pc.outerPlain

/-- All threads are ready and all containers nested. -/
structure Nested (tg : Sender) : Prop where
  ready : ∀ worker ∈ tg.workers, worker.pc.Ready tg.messages
  packets : ∀ packet ∈ tg.packets, packet.Nested tg.messages

theorem nested_start (count : ℕ) (start : ℤ) : Nested (Sender.start count start) := by
  constructor
  · intro worker hworker
    rw [List.eq_of_mem_replicate hworker]
    exact ⟨fun message hmessage ↦ (nomatch hmessage), trivial⟩
  · intro packet hpacket
    cases hpacket

theorem Pc.Ready.append {messages : List Sent} {pc : Pc} (hready : pc.Ready messages)
    (more : List Sent) : pc.Ready (messages ++ more) :=
  ⟨fun message hmessage ↦ List.mem_append_left more (hready.1 message hmessage), hready.2⟩

theorem Packet.Nested.append {messages : List Sent} {packet : Packet}
    (hnested : packet.Nested messages) (more : List Sent) : packet.Nested (messages ++ more) := by
  intro hinner
  obtain ⟨hcontent, last, hlast, hindices⟩ := hnested hinner
  refine ⟨hcontent, last, ?_, fun message hmessage ↦ ?_⟩
  · exact List.getElem?_append_left (List.getElem?_eq_some_iff.mp hlast).1 ▸ hlast
  · obtain ⟨index, hlt, hindex⟩ := hindices message hmessage
    exact ⟨index, hlt, List.getElem?_append_left (List.getElem?_eq_some_iff.mp hindex).1 ▸ hindex⟩

section Nested

variable {tg after : Sender} {thread : ℕ} {worker next : Worker}

/-- A thread moves, with new messages and new packets. -/
theorem Nested.put (hbefore : Nested tg) (hworkers : after.workers = tg.workers.set thread next)
    {messages : List Sent} (hmessages : after.messages = tg.messages ++ messages)
    {packets : List Packet} (hpackets : after.packets = tg.packets ++ packets)
    (hnext : next.pc.Ready after.messages)
    (hnew : ∀ packet ∈ packets, packet.Nested after.messages) : Nested after := by
  constructor
  · intro found hfound
    rw [hworkers] at hfound
    rcases List.mem_or_eq_of_mem_set hfound with hold | heq
    · rw [hmessages]
      exact (hbefore.ready found hold).append messages
    · rw [heq]
      exact hnext
  · intro packet hpacket
    rw [hpackets, List.mem_append] at hpacket
    rcases hpacket with hold | hfresh
    · rw [hmessages]
      exact (hbefore.packets packet hold).append messages
    · exact hnew packet hfresh

/-- A thread moves without a new message. -/
theorem Nested.keep (hbefore : Nested tg) (hworkers : after.workers = tg.workers.set thread next)
    (hmessages : after.messages = tg.messages) (hpackets : after.packets = tg.packets)
    (hnext : next.pc.Ready tg.messages) : Nested after :=
  hbefore.put hworkers (by rw [hmessages, List.append_nil]) (by rw [hpackets, List.append_nil])
    (by rw [hmessages]; exact hnext) (List.forall_mem_nil _)

/-- A thread numbers a message and goes on with its packet. -/
theorem Nested.message (hbefore : Nested tg) {message : Sent}
    (hworkers : after.workers = tg.workers.set thread next)
    (hmessages : after.messages = tg.messages ++ [message]) (hpackets : after.packets = tg.packets)
    (hnext : next.pc.Ready (tg.messages ++ [message])) : Nested after :=
  hbefore.put hworkers hmessages (by rw [hpackets, List.append_nil])
    (by rw [hmessages]; exact hnext) (List.forall_mem_nil _)

end Nested

theorem mem_append_singleton {inner messages : List Sent} {last : Sent}
    (hinner : ∀ message ∈ inner, message ∈ messages) :
    ∀ message ∈ inner ++ [last], message ∈ messages ++ [last] := by
  intro message hmessage
  rw [List.mem_append] at hmessage ⊢
  exact hmessage.imp_left (hinner message)

theorem nested_outer {inner messages : List Sent} {query : List UInt8} {outer : Sent}
    (hinner : ∀ message ∈ inner, message ∈ messages) (hplain : inner ≠ [] → outer.content = false) :
    Packet.Nested (messages ++ [outer]) ⟨query, inner, outer⟩ := by
  intro hne
  refine ⟨hplain hne, messages.length, List.getElem?_concat_length, fun message hmessage ↦ ?_⟩
  obtain ⟨index, hindex⟩ := List.mem_iff_getElem?.mp (hinner message hmessage)
  have hlt := (List.getElem?_eq_some_iff.mp hindex).1
  exact ⟨index, hlt, by rw [List.getElem?_append_left hlt, hindex]⟩

theorem nested_move {tg next : Sender} {label : Label} (hmove : SenderMove tg label next)
    (hbefore : Nested tg) : Nested next := by
  have hready : ∀ {thread : ℕ} {worker : Worker}, tg.workers[thread]? = some worker →
      worker.pc.Ready tg.messages := by
    intro thread worker hworker
    exact hbefore.ready worker (List.mem_of_getElem? hworker)
  cases hmove with
  | queueAdd hworker hpc hadded =>
    have hworkerReady := hready hworker
    exact hbefore.keep rfl rfl rfl hworkerReady
  | header query content hworker hpc =>
    exact hbefore.keep rfl rfl rfl ⟨List.forall_mem_nil _, trivial⟩
  | ackNone hworker hpc hnil =>
    exact hbefore.keep rfl rfl rfl ⟨List.forall_mem_nil _, fun hne ↦ absurd rfl hne⟩
  | ackSome hworker hpc =>
    exact hbefore.keep rfl rfl rfl ⟨List.forall_mem_nil _, trivial⟩
  | @clock thread worker job reading hworker hpc hlast =>
    have hjob := hready hworker
    rw [hpc] at hjob
    refine hbefore.keep rfl rfl rfl ⟨hjob.1, ?_⟩
    cases job with
    | outer inner content => exact hjob.2
    | _ => trivial
  | toDropNone hworker hpc howner hnil =>
    have hinner := hready hworker
    rw [hpc] at hinner
    exact hbefore.keep rfl rfl rfl ⟨hinner.1, fun _ ↦ rfl⟩
  | toDropSome hworker hpc howner hsome =>
    have hinner := hready hworker
    rw [hpc] at hinner
    exact hbefore.keep rfl rfl rfl ⟨hinner.1, trivial⟩
  | @message thread worker job msgId kind hworker hpc hkind =>
    have hjob := hready hworker
    rw [hpc] at hjob
    cases job with
    | query ids =>
      exact hbefore.message rfl rfl rfl ⟨mem_append_singleton hjob.1, trivial⟩
    | ack ids first =>
      exact hbefore.message rfl rfl rfl ⟨mem_append_singleton hjob.1, trivial⟩
    | drop inner index =>
      rw [afterMessage]
      split
      case isTrue => exact hbefore.message rfl rfl rfl ⟨mem_append_singleton hjob.1, trivial⟩
      case isFalse => exact hbefore.message rfl rfl rfl ⟨mem_append_singleton hjob.1, fun _ ↦ rfl⟩
    | outer inner content =>
      refine hbefore.put rfl rfl rfl ⟨List.forall_mem_nil _, trivial⟩ ?_
      intro packet hpacket
      rw [List.mem_singleton] at hpacket
      rw [hpacket]
      exact nested_outer hjob.1 hjob.2
  | _ => exact ⟨hbefore.ready, hbefore.packets⟩

/-! ## The numbers as they are written -/

/-- The numbers of a session whose counter started at `start`, in the order of `seqnm`: the `i`-th
content-related message has `2 * (start + i) + 1`, another message twice the counter; and a
container is numbered above what it contains. -/
structure SeqnosCorrect (start : ℕ) (tg : Sender) : Prop where
  content : ∀ index message, (tg.messages.filter Sent.content)[index]? = some message →
    message.seqno.toNat = 2 * (start + index) + 1
  service : ∀ index message, tg.messages[index]? = some message → message.content = false →
    message.seqno.toNat = 2 * (start + (tg.messages.take index).countP Sent.content)
  distinct : ((tg.messages.filter Sent.content).map Sent.seqno).Nodup
  odd : ∀ message ∈ tg.messages, message.content = true → Odd message.seqno.toNat
  container : ∀ packet ∈ tg.packets, packet.inner ≠ [] → Even packet.outer.seqno.toNat ∧
    ∀ message ∈ packet.inner,
      (message.content = true → message.seqno < packet.outer.seqno) ∧
        (message.content = false → message.seqno ≤ packet.outer.seqno)

/-- An item of the filtered list has as many kept items before it as its index says. -/
theorem getElem?_filter_position {Item : Type*} (keep : Item → Bool) {items : List Item}
    {index : ℕ} {item : Item} (hitem : (items.filter keep)[index]? = some item) :
    ∃ position : ℕ, items[position]? = some item ∧ (items.take position).countP keep = index := by
  induction items generalizing index with
  | nil => cases hitem
  | cons first rest ih =>
    cases hkeep : keep first with
    | false =>
      rw [List.filter_cons_of_neg (by simp [hkeep])] at hitem
      obtain ⟨position, hposition, hcount⟩ := ih hitem
      exact ⟨position + 1, hposition, by
        rw [List.take_succ_cons, List.countP_cons_of_neg (by simp [hkeep]), hcount]⟩
    | true =>
      rw [List.filter_cons_of_pos hkeep] at hitem
      cases index with
      | zero => exact ⟨0, hitem, rfl⟩
      | succ index =>
        obtain ⟨position, hposition, hcount⟩ := ih hitem
        exact ⟨position + 1, hposition, by
          rw [List.take_succ_cons, List.countP_cons_of_pos hkeep, hcount]⟩

theorem toNat_ofInt_of_lt {value : ℕ} (hlt : value < 2 ^ 32) : (UInt32.ofInt value).toNat = value := by
  have hmod : ((value : ℤ) % 2 ^ 32).toNat = value := by omega
  rw [UInt32.ofInt, hmod, UInt32.toNat_ofNat', Nat.mod_eq_of_lt hlt]

section Written

variable {start : ℕ} {tg : Sender} (hnumbered : Numbered start tg)
  (hbound : start + tg.messages.countP Sent.content < 2 ^ 30)

include hnumbered hbound

/-- Below `2 ^ 30` the number due to a message fits its word. -/
theorem toNat_seqno {index : ℕ} {message : Sent} (hmessage : tg.messages[index]? = some message) :
    message.seqno.toNat = 2 * (start + (tg.messages.take index).countP Sent.content) +
      if message.content then 1 else 0 := by
  have hcount : (tg.messages.take index).countP Sent.content ≤ tg.messages.countP Sent.content :=
    (List.take_sublist index tg.messages).countP_le
  have hdue : dueSeqno start (tg.messages.take index) message.content =
      ((2 * (start + (tg.messages.take index).countP Sent.content) +
        if message.content then 1 else 0 : ℕ) : ℤ) := by
    unfold dueSeqno
    split <;> push_cast <;> ring
  rw [hnumbered.seqno index message hmessage, hdue]
  apply toNat_ofInt_of_lt
  split <;> omega

theorem toNat_seqno_content {index : ℕ} {message : Sent}
    (hmessage : (tg.messages.filter Sent.content)[index]? = some message) :
    message.seqno.toNat = 2 * (start + index) + 1 := by
  obtain ⟨position, hposition, hcount⟩ := getElem?_filter_position Sent.content hmessage
  have hcontent : message.content = true :=
    (List.mem_filter.mp (List.mem_of_getElem? hmessage)).2
  rw [toNat_seqno hnumbered hbound hposition, hcount, hcontent, if_pos rfl]

/-- The numbers of the content-related messages, in order. -/
theorem map_toNat_seqno_content :
    (tg.messages.filter Sent.content).map (fun message ↦ message.seqno.toNat) =
      (List.range (tg.messages.filter Sent.content).length).map
        fun index ↦ 2 * (start + index) + 1 := by
  apply List.ext_getElem?
  intro index
  rw [List.getElem?_map, List.getElem?_map]
  cases hmessage : (tg.messages.filter Sent.content)[index]? with
  | none =>
    have hrange : (List.range (tg.messages.filter Sent.content).length)[index]? = none := by
      rw [List.getElem?_eq_none_iff, List.length_range]
      exact List.getElem?_eq_none_iff.mp hmessage
    rw [hrange, Option.map_none, Option.map_none]
  | some message =>
    rw [List.getElem?_range (List.getElem?_eq_some_iff.mp hmessage).1, Option.map_some,
      Option.map_some, toNat_seqno_content hnumbered hbound hmessage]

theorem nodup_seqno_content : ((tg.messages.filter Sent.content).map Sent.seqno).Nodup := by
  apply List.Nodup.of_map UInt32.toNat
  rw [List.map_map, show UInt32.toNat ∘ Sent.seqno = fun message ↦ message.seqno.toNat from rfl,
    map_toNat_seqno_content hnumbered hbound]
  apply List.Nodup.map _ List.nodup_range
  intro first second heq
  dsimp only at heq
  omega

/-- A later message that is not content-related has a larger number than an earlier one. -/
theorem seqno_lt_of_later {first last : ℕ} {message outer : Sent} (hlt : first < last)
    (hmessage : tg.messages[first]? = some message) (houter : tg.messages[last]? = some outer) :
    (message.content = true → message.seqno < outer.seqno) ∧
      (message.content = false → message.seqno ≤ outer.seqno) := by
  have hfirst := toNat_seqno hnumbered hbound hmessage
  have hlast := toNat_seqno hnumbered hbound houter
  have hsplit : (tg.messages.take (first + 1)).countP Sent.content =
      (tg.messages.take first).countP Sent.content + if message.content then 1 else 0 := by
    rw [List.take_add_one, hmessage, List.countP_append]
    cases hcontent : message.content <;> simp [hcontent]
  have hle : (tg.messages.take (first + 1)).countP Sent.content ≤
      (tg.messages.take last).countP Sent.content :=
    (List.take_sublist_take_left hlt).countP_le
  constructor
  · intro hcontent
    rw [hcontent, if_pos rfl] at hfirst hsplit
    rw [UInt32.lt_iff_toNat_lt]
    omega
  · intro hcontent
    rw [hcontent, if_neg Bool.false_ne_true] at hfirst hsplit
    rw [UInt32.le_iff_toNat_le]
    omega

end Written

/-- Every schedule of any number of threads numbers its messages in the order of `seqnm`. -/
theorem run_seqnosCorrect {count start : ℕ} {labels : List Label} {tg : Sender}
    (hrun : run senderStep (Sender.start count start) labels = some tg)
    (hbound : start + tg.messages.countP Sent.content < 2 ^ 30) : SeqnosCorrect start tg := by
  have hnumbered : Numbered start tg := run_invariant
    (fun hstep hbefore ↦ numbered_move (senderStep_move hstep) hbefore) hrun
    (numbered_start count start)
  have hnested : Nested tg := run_invariant
    (fun hstep hbefore ↦ nested_move (senderStep_move hstep) hbefore) hrun
    (nested_start count start)
  constructor
  · intro index message hmessage
    exact toNat_seqno_content hnumbered hbound hmessage
  · intro index message hmessage hcontent
    rw [toNat_seqno hnumbered hbound hmessage, hcontent]
    rfl
  · exact nodup_seqno_content hnumbered hbound
  · intro message hmessage hcontent
    obtain ⟨index, hindex⟩ := List.mem_iff_getElem?.mp hmessage
    rw [toNat_seqno hnumbered hbound hindex, hcontent, if_pos rfl]
    exact odd_two_mul_add_one _
  · intro packet hpacket hinner
    obtain ⟨hplain, last, hlast, hindices⟩ := hnested.packets packet hpacket hinner
    constructor
    · rw [toNat_seqno hnumbered hbound hlast, hplain]
      exact even_two_mul _
    · intro message hmessage
      obtain ⟨index, hlt, hindex⟩ := hindices message hmessage
      exact seqno_lt_of_later hnumbered hbound hlt hindex hlast

theorem interleaved_seqnosCorrect :
    ∃ tg, run senderStep (Sender.start 2 (3 : ℕ)) (interleaved fun index ↦ index + 1) = some tg ∧
      tg.messages.map Sent.seqno = [7, 8, 9, 11, 12] ∧ SeqnosCorrect 3 tg := by
  have hrun : (run senderStep (Sender.start 2 (3 : ℕ)) (interleaved fun index ↦ index + 1)).map
      (fun tg ↦ (tg.messages.map Sent.seqno, tg.messages.countP Sent.content)) =
        some ([7, 8, 9, 11, 12], 3) := by
    decide +kernel
  obtain ⟨tg, htg, hvalues⟩ := Option.map_eq_some_iff.mp hrun
  simp only [Prod.mk.injEq] at hvalues
  exact ⟨tg, htg, hvalues.1, run_seqnosCorrect htg (by rw [hvalues.2]; decide)⟩

end LibTg.Tg
