import LibTg.Tg.DispatchSpec

/-!
# Message trees and their dispatch

A server nests messages: a container holds messages, and a compressed object another one. Every
answer, every notice about an answer and every update in such a tree is dispatched once, in order,
and every message of every container is acknowledged. On a target with a 32-bit `long` the ids to
acknowledge lose their upper half.
-/

namespace LibTg.Tg

open LibTg.Tl

mutual

/-- A message tree, with the objects that its leaves encode. -/
inductive MsgTree
  | container (messages : MsgList)
  | gzip (packed : Bytes) (inner : MsgTree)
  | result (reqMsgId : UInt64) (result : Bytes) (tl : Option TlObj)
  | detailedInfo (msgId answer : UInt64) (bytes status : UInt32)
  | newDetailedInfo (answer : UInt64) (bytes status : UInt32)
  | updates (bytes : Bytes) (tl : TlObj)
  | other (bytes : Bytes) (tl : TlObj)

/-- The messages of a container. -/
inductive MsgList
  | nil
  | cons (msgId : UInt64) (seqno : UInt32) (body : MsgTree) (rest : MsgList)

end

mutual

/-- The encoding of a tree. -/
def MsgTree.wire : MsgTree → Bytes
  | .container messages => containerFormat messages.messages
  | .gzip packed _ => gzipFormat packed
  | .result reqMsgId result _ => resultFormat reqMsgId result
  | .detailedInfo msgId answer bytes status => detailedInfoFormat msgId answer bytes status
  | .newDetailedInfo answer bytes status => newDetailedInfoFormat answer bytes status
  | .updates bytes _ => bytes
  | .other bytes _ => bytes

/-- The messages of a container, with their bodies encoded. -/
def MsgList.messages : MsgList → List Message
  | .nil => []
  | .cons msgId seqno body rest => ⟨msgId, seqno, body.wire⟩ :: rest.messages

end

mutual

/-- How deep `handle_tl` goes into a tree. -/
def MsgTree.depth : MsgTree → ℕ
  | .container messages => messages.depth + 1
  | .gzip _ inner => inner.depth + 1
  | _ => 1

/-- The depth of the deepest message. -/
def MsgList.depth : MsgList → ℕ
  | .nil => 0
  | .cons _ _ body rest => max body.depth rest.depth

end

/-- The calls that a leaf is to cause. -/
inductive Call
  | catchedTl (msgId : UInt64) (tl : Option TlObj)
  | doUpdates (tl : TlObj)

mutual

/-- The calls due to a tree, depth first and from left to right. -/
def MsgTree.calls : MsgTree → List Call
  | .container messages => messages.calls
  | .gzip _ inner => inner.calls
  | .result reqMsgId _ tl => [.catchedTl reqMsgId tl]
  | .detailedInfo _ answer _ _ => [.catchedTl answer none]
  | .newDetailedInfo answer _ _ => [.catchedTl answer none]
  | .updates _ tl => [.doUpdates tl]
  | .other _ _ => []

/-- The calls due to the messages of a container. -/
def MsgList.calls : MsgList → List Call
  | .nil => []
  | .cons _ _ body rest => body.calls ++ rest.calls

end

mutual

/-- The ids of all messages of all containers, each before those inside it. -/
def MsgTree.acks : MsgTree → List UInt64
  | .container messages => messages.acks
  | .gzip _ inner => inner.acks
  | _ => []

/-- The ids of the messages of a container and of those inside them. -/
def MsgList.acks : MsgList → List UInt64
  | .nil => []
  | .cons msgId _ body rest => msgId :: (body.acks ++ rest.acks)

end

/-- The constructors that `handle_tl` treats in a way of their own. -/
def dispatchedIds : List UInt32 :=
  [gzipPacked.id, msgContainer.id, rpcError.id, msgDetailedInfo.id, msgNewDetailedInfo.id,
    rpcResult.id] ++ updatesIds

section WellFormed

variable (model : DataModel) (table : List Method) (gunzip : Bytes → Gunzipped)

/-- `gunzip_buf` succeeds and leaves these bytes at the start of the buffer. -/
def Expands (packed bytes : Bytes) : Prop :=
  ∃ slack, gunzip packed = ⟨true, bytes ++ slack, UInt32.ofNat bytes.length⟩ ∧
    (bytes ++ slack).length < 2 ^ 32

/-- An answer that is no `rpc_error`; if it is compressed, then something decodable. -/
def Settled (tl : Option TlObj) : Prop :=
  ∀ answer ∈ tl, answer.id ≠ rpcError.id ∧
    (answer.id = gzipPacked.id → (unpack model table gunzip answer).isSome)

mutual

/-- All parts of a tree are well-formed encodings. -/
def MsgTree.WellFormed : MsgTree → Prop
  | .container messages =>
    messages.messages.length ≤ 10000 ∧
      (containerFormat messages.messages).length + 1 < 2 ^ 32 ∧ messages.WellFormed
  | .gzip packed inner =>
    packed.length < 2 ^ 24 ∧ Expands gunzip packed inner.wire ∧ inner.WellFormed
  | .result reqMsgId result tl =>
    (resultFormat reqMsgId result).length + 1 < 2 ^ 32 ∧ Decodes model table result tl ∧
      Settled model table gunzip tl
  | .detailedInfo _ _ _ _ => True
  | .newDetailedInfo _ _ _ => True
  | .updates bytes tl => Decodes model table bytes (some tl) ∧ tl.id ∈ updatesIds
  | .other bytes tl => Decodes model table bytes (some tl) ∧ tl.id ∉ dispatchedIds

/-- The messages of a container; the length of a body is an `int`. -/
def MsgList.WellFormed : MsgList → Prop
  | .nil => True
  | .cons _ _ body rest => body.wire.length < 2 ^ 31 ∧ body.WellFormed ∧ rest.WellFormed

end

end WellFormed

/-! ## What is called and acknowledged -/

/-- The call behind an event. -/
def Event.call : Event → Option Call
  | .catchedTl msgId tl => some (.catchedTl msgId tl)
  | .doUpdates tl => some (.doUpdates tl)
  | _ => none

/-- The id that an event adds to the pending acks. -/
def Event.ack : Event → Option UInt64
  | .addMsgid id => some id
  | _ => none

/-- Events inside `catched_tl`. -/
def Quiet (events : List Event) : Prop :=
  events.filterMap Event.call = [] ∧ events.filterMap Event.ack = []

theorem Quiet.append {first second : List Event} (hfirst : Quiet first) (hsecond : Quiet second) :
    Quiet (first ++ second) := by
  constructor
  · rw [List.filterMap_append, hfirst.1, hsecond.1, List.append_nil]
  · rw [List.filterMap_append, hfirst.2, hsecond.2, List.append_nil]

theorem quiet_done (queue : Queue) (tl : Option TlObj) : Quiet (queue.done tl) := by
  unfold Queue.done
  split <;> exact ⟨rfl, rfl⟩

section Catched

variable {model : DataModel} {table : List Method} {gunzip : Bytes → Gunzipped}

/-- A settled answer has an effect, in which nothing is dispatched further. -/
theorem caught_of_settled (queue : Queue) {tl : TlObj}
    (hsettled : Settled model table gunzip (some tl)) :
    ∃ events, caught model table gunzip queue tl = some events ∧ Quiet events := by
  have hstop : Quiet [.stop queue.key] := ⟨rfl, rfl⟩
  obtain ⟨herror, hgzip⟩ := hsettled tl rfl
  unfold caught
  split
  case isTrue hid =>
    obtain ⟨inner, hinner⟩ := Option.isSome_iff_exists.mp (hgzip hid)
    rw [hinner]
    exact ⟨_, rfl, (quiet_done queue inner).append hstop⟩
  case isFalse =>
    split
    case isTrue =>
      have htimediff : Quiet [.timediff ntpTimeDiff] := ⟨rfl, rfl⟩
      exact ⟨_, rfl, htimediff.append ((quiet_done queue none).append hstop)⟩
    case isFalse => exact ⟨_, rfl, (quiet_done queue (some tl)).append hstop⟩

theorem catchedTl_of_settled {tl : Option TlObj} (hsettled : Settled model table gunzip tl)
    (queues : List Queue) (msgId : UInt64) :
    ∃ events after, catchedTl model table gunzip queues msgId tl = some (events, after) ∧
      Quiet events := by
  unfold catchedTl
  split
  case h_1 => exact ⟨[], _, rfl, rfl, rfl⟩
  case h_2 queue rest hcut =>
    split
    case isTrue => exact ⟨[], _, rfl, rfl, rfl⟩
    case isFalse =>
      cases tl with
      | none => exact ⟨_, _, rfl, quiet_done queue none⟩
      | some tl =>
        obtain ⟨events, hevents, hquiet⟩ := caught_of_settled queue hsettled
        exact ⟨events, _, by dsimp only; rw [hevents, Option.map_some], hquiet⟩

/-- A call of `catched_tl` is one call, whatever it leads to. -/
theorem callCatchedTl_of_settled {tl : Option TlObj} (hsettled : Settled model table gunzip tl)
    (queues : List Queue) (msgId : UInt64) :
    ∃ events after, callCatchedTl model table gunzip queues msgId tl = some (events, after) ∧
      events.filterMap Event.call = [.catchedTl msgId tl] ∧ events.filterMap Event.ack = [] := by
  obtain ⟨events, after, hevents, hcalls, hacks⟩ := catchedTl_of_settled hsettled queues msgId
  refine ⟨.catchedTl msgId tl :: events, after, by rw [callCatchedTl, hevents]; rfl, ?_, ?_⟩
  · exact (List.filterMap_cons_some (f := Event.call) rfl).trans (congrArg _ hcalls)
  · exact (List.filterMap_cons_none (f := Event.ack) rfl).trans hacks

end Catched

/-! ## Dispatch -/

section Dispatch

variable {model : DataModel} {table : List Method} {gunzip : Bytes → Gunzipped} {own : ℕ}

/-- The id that is acknowledged for a message: it has been in a `long`. -/
def ackedId (model : DataModel) (msgId : UInt64) : UInt64 := UInt64.ofInt (longOfUi64 model msgId)

/-- `handle_tl` of an object makes the given calls and adds the given acks. -/
def Handles (model : DataModel) (table : List Method) (gunzip : Bytes → Gunzipped) (own fuel : ℕ)
    (tl : TlObj) (calls : List Call) (acks : List UInt64) : Prop :=
  ∀ queues, ∃ events after, handleTl model table gunzip own fuel (some tl) queues =
      some (events, after) ∧
    events.filterMap Event.call = calls ∧ events.filterMap Event.ack = acks

theorem messagesField_container {buf : Bytes} {messages : List Message}
    (hcount : messages.length ≤ 10000) :
    messagesField (.mk msgContainer.id buf [.vector (UInt32.ofNat messages.length)
      (messages.map fun message ↦ .message (message.decoded model))]) =
        some (messages.map (Message.decoded model)) := by
  have htoNat : (UInt32.ofNat messages.length).toNat = messages.length := by
    rw [UInt32.toNat_ofNat']
    omega
  have hvalue : (intOfUi32 (UInt32.ofNat messages.length)).toNat = messages.length := by
    rw [intOfUi32_of_lt (by omega), htoNat, Int.toNat_natCast]
  have helems : (messages.map fun message ↦ Field.message (message.decoded model)).mapM
      messageElem = some (messages.map (Message.decoded model)) := by
    rw [List.mapM_map]
    exact List.mapM_pure
  rw [messagesField]
  dsimp only [TlObj.fields, List.head?_cons]
  rw [hvalue, if_pos (by rw [List.length_map]), List.take_of_length_le (by rw [List.length_map]),
    helems]

theorem handles_gzip {packed bytes : Bytes} {inner : TlObj} {fuel : ℕ} {calls : List Call}
    {acks : List UInt64} (hexpands : Expands gunzip packed bytes)
    (hdecodes : Decodes model table bytes (some inner))
    (hinner : Handles model table gunzip own fuel inner calls acks) :
    Handles model table gunzip own (fuel + 1)
      (.mk gzipPacked.id (gzipFormat packed) [.buf packed]) calls acks := by
  intro queues
  obtain ⟨slack, hgunzip, hfits⟩ := hexpands
  obtain ⟨cursor, hcursor⟩ := hdecodes.at_start slack hfits
  have hread : tlDeserialize model table (gunzip packed).cursor = some (some inner, cursor) := by
    rw [← hcursor, hgunzip]
    rfl
  obtain ⟨events, after, hevents, hrest⟩ := hinner queues
  refine ⟨events, after, ?_, hrest⟩
  have hfield : bufField (.mk gzipPacked.id (gzipFormat packed) [.buf packed]) 0 = some packed := rfl
  rw [handleTl_gzip rfl, hfield, Option.bind_some, hread, Option.bind_some, hevents]

theorem handles_container {messages : List Message} (hcount : messages.length ≤ 10000) {fuel : ℕ}
    {calls : List Call} {acks : List UInt64}
    (hmessages : ∀ queues, ∃ events after,
      handleMessages model table (handleTl model table gunzip own fuel)
          (messages.map (Message.decoded model)) queues = some (events, after) ∧
        events.filterMap Event.call = calls ∧ events.filterMap Event.ack = acks) :
    Handles model table gunzip own (fuel + 1)
      (.mk msgContainer.id (containerFormat messages)
        [.vector (UInt32.ofNat messages.length)
          (messages.map fun message ↦ .message (message.decoded model))]) calls acks := by
  intro queues
  obtain ⟨events, after, hevents, hrest⟩ := hmessages queues
  refine ⟨events, after, ?_, hrest⟩
  rw [handleTl_container rfl, messagesField_container hcount, Option.bind_some, hevents]

theorem handles_result {reqMsgId : UInt64} {buf : Bytes} {tl : Option TlObj}
    (hsettled : Settled model table gunzip tl) (fuel : ℕ) :
    Handles model table gunzip own (fuel + 1)
      (.mk rpcResult.id buf [.long reqMsgId, .object tl]) [.catchedTl reqMsgId tl] [] := by
  intro queues
  obtain ⟨events, after, hevents, hrest⟩ := callCatchedTl_of_settled hsettled queues reqMsgId
  refine ⟨events, after, ?_, hrest⟩
  rw [handleTl_result rfl]
  exact hevents

theorem settled_none : Settled model table gunzip none := fun _ hanswer ↦ nomatch hanswer

theorem handles_detailedInfo (msgId answer : UInt64) (bytes status : UInt32) (buf : Bytes)
    (fuel : ℕ) :
    Handles model table gunzip own (fuel + 1)
      (.mk msgDetailedInfo.id buf [.long msgId, .long answer, .int bytes, .int status])
        [.catchedTl answer none] [] := by
  intro queues
  obtain ⟨events, after, hevents, hrest⟩ : ∃ events after,
      callCatchedTl model table gunzip queues answer none = some (events, after) ∧ _ :=
    callCatchedTl_of_settled settled_none queues answer
  refine ⟨events, after, ?_, hrest⟩
  rw [handleTl_detailedInfo rfl]
  exact hevents

theorem handles_newDetailedInfo (answer : UInt64) (bytes status : UInt32) (buf : Bytes)
    (fuel : ℕ) :
    Handles model table gunzip own (fuel + 1)
      (.mk msgNewDetailedInfo.id buf [.long answer, .int bytes, .int status])
        [.catchedTl answer none] [] := by
  intro queues
  obtain ⟨events, after, hevents, hrest⟩ : ∃ events after,
      callCatchedTl model table gunzip queues answer none = some (events, after) ∧ _ :=
    callCatchedTl_of_settled settled_none queues answer
  refine ⟨events, after, ?_, hrest⟩
  rw [handleTl_newDetailedInfo rfl]
  exact hevents

theorem handles_updates {tl : TlObj} (hid : tl.id ∈ updatesIds) (fuel : ℕ) :
    Handles model table gunzip own (fuel + 1) tl [.doUpdates tl] [] := by
  have hne : ∀ id, id ∉ updatesIds → ¬ tl.id = id := fun id hid' heq ↦ hid' (heq ▸ hid)
  intro queues
  refine ⟨[.doUpdates tl], queues, ?_, rfl, rfl⟩
  rw [handleTl, if_neg (hne _ (by decide)), if_neg (hne _ (by decide)),
    if_neg (hne _ (by decide)), if_neg (hne _ (by decide)), if_neg (hne _ (by decide)),
    if_neg (hne _ (by decide)), if_neg (hne _ (by decide)), if_pos hid]

theorem handles_other {tl : TlObj} (hid : tl.id ∉ dispatchedIds) (fuel : ℕ) :
    Handles model table gunzip own (fuel + 1) tl [] [] := by
  have hne : ∀ id ∈ dispatchedIds, ¬ tl.id = id := fun id hmem heq ↦ hid (heq ▸ hmem)
  have hupdates : tl.id ∉ updatesIds := fun hmem ↦ hid (List.mem_append_right _ hmem)
  intro queues
  have hrest : ∃ events, handleTl model table gunzip own (fuel + 1) (some tl) queues =
      some (events, queues) ∧ Quiet events := by
    rw [handleTl, if_neg (hne _ (by decide)), if_neg (hne _ (by decide))]
    split
    · exact ⟨[.timediff ntpTimeDiff], rfl, rfl, rfl⟩
    · rw [if_neg (hne _ (by decide)), if_neg (hne _ (by decide)), if_neg (hne _ (by decide)),
        if_neg (hne _ (by decide))]
      exact ⟨[], rfl, rfl, rfl⟩
  obtain ⟨events, hevents, hquiet⟩ := hrest
  exact ⟨events, queues, hevents, hquiet⟩

/-- The bodies of a well-formed container have lengths that an `int` can hold. -/
theorem MsgList.small : ∀ (messages : MsgList), messages.WellFormed model table gunzip →
    ∀ message ∈ messages.messages, message.body.length < 2 ^ 31
  | .nil, _ => List.forall_mem_nil _
  | .cons _ _ _ rest, ⟨hsmall, _, hrest⟩ =>
    List.forall_mem_cons.mpr ⟨hsmall, MsgList.small rest hrest⟩

/-- A message whose body is handled, followed by the rest of the container. -/
theorem handleMessages_cons {message : Message} {rest : List Message} {tl : TlObj}
    {handle : Option TlObj → List Queue → Option (List Event × List Queue)}
    {queues middle after : List Queue} {events later : List Event}
    (hdecodes : Decodes model table message.body (some tl))
    (hfirst : handle (some tl) queues = some (events, middle))
    (hrest : handleMessages model table handle (rest.map (Message.decoded model)) middle =
      some (later, after)) :
    handleMessages model table handle ((message :: rest).map (Message.decoded model)) queues =
      some (.addMsgid (ackedId model message.msgId) :: (events ++ later), after) := by
  obtain ⟨cursor, hcursor⟩ := hdecodes
  rw [List.map_cons, handleMessages, decoded_body, hcursor, Option.bind_eq_bind, Option.bind_some]
  dsimp only
  rw [hfirst, Option.bind_eq_bind, Option.bind_some]
  dsimp only
  rw [hrest, Option.bind_some]
  rfl

mutual

/-- A well-formed tree is decoded and dispatched. -/
theorem MsgTree.dispatched (htable : HasService table) : ∀ (tree : MsgTree),
    tree.WellFormed model table gunzip →
    ∃ tl, Decodes model table tree.wire (some tl) ∧ ∀ fuel, tree.depth ≤ fuel →
      Handles model table gunzip own fuel tl tree.calls (tree.acks.map (ackedId model))
  | .container messages, ⟨hcount, hfits, hmessages⟩ => by
    have hsmall := fun message hmessage ↦
      MsgList.small messages hmessages message (List.dropLast_subset _ hmessage)
    refine ⟨_, decodes_container htable hcount hsmall hfits, fun fuel hfuel ↦ ?_⟩
    obtain ⟨less, rfl, hless⟩ := exists_succ_of_le hfuel
    exact handles_container hcount (MsgList.dispatched htable messages hmessages less hless)
  | .gzip packed inner, ⟨hpacked, hexpands, hinner⟩ => by
    obtain ⟨tl, htl, hhandles⟩ := MsgTree.dispatched htable inner hinner
    refine ⟨_, decodes_gzip htable hpacked, fun fuel hfuel ↦ ?_⟩
    obtain ⟨less, rfl, hless⟩ := exists_succ_of_le hfuel
    exact handles_gzip hexpands htl (hhandles less hless)
  | .result reqMsgId result tl, ⟨hfits, hdecodes, hsettled⟩ => by
    refine ⟨_, decodes_result htable reqMsgId hdecodes hfits, fun fuel hfuel ↦ ?_⟩
    obtain ⟨less, rfl, -⟩ := exists_succ_of_le (show 0 + 1 ≤ fuel from hfuel)
    exact handles_result hsettled less
  | .detailedInfo msgId answer bytes status, _ => by
    refine ⟨_, decodes_detailedInfo htable msgId answer bytes status, fun fuel hfuel ↦ ?_⟩
    obtain ⟨less, rfl, -⟩ := exists_succ_of_le (show 0 + 1 ≤ fuel from hfuel)
    exact handles_detailedInfo msgId answer bytes status _ less
  | .newDetailedInfo answer bytes status, _ => by
    refine ⟨_, decodes_newDetailedInfo htable answer bytes status, fun fuel hfuel ↦ ?_⟩
    obtain ⟨less, rfl, -⟩ := exists_succ_of_le (show 0 + 1 ≤ fuel from hfuel)
    exact handles_newDetailedInfo answer bytes status _ less
  | .updates bytes tl, ⟨hdecodes, hid⟩ => by
    refine ⟨tl, hdecodes, fun fuel hfuel ↦ ?_⟩
    obtain ⟨less, rfl, -⟩ := exists_succ_of_le (show 0 + 1 ≤ fuel from hfuel)
    exact handles_updates hid less
  | .other bytes tl, ⟨hdecodes, hid⟩ => by
    refine ⟨tl, hdecodes, fun fuel hfuel ↦ ?_⟩
    obtain ⟨less, rfl, -⟩ := exists_succ_of_le (show 0 + 1 ≤ fuel from hfuel)
    exact handles_other hid less

/-- The messages of a well-formed container are dispatched one after the other. -/
theorem MsgList.dispatched (htable : HasService table) : ∀ (messages : MsgList),
    messages.WellFormed model table gunzip → ∀ fuel, messages.depth ≤ fuel → ∀ queues,
    ∃ events after, handleMessages model table (handleTl model table gunzip own fuel)
        (messages.messages.map (Message.decoded model)) queues = some (events, after) ∧
      events.filterMap Event.call = messages.calls ∧
      events.filterMap Event.ack = messages.acks.map (ackedId model)
  | .nil, _, _, _, queues => ⟨[], queues, rfl, rfl, rfl⟩
  | .cons msgId seqno body rest, ⟨_, hbody, hrest⟩, fuel, hfuel, queues => by
    have hdepth := max_le_iff.mp hfuel
    obtain ⟨tl, htl, hhandles⟩ := MsgTree.dispatched htable body hbody
    obtain ⟨events, middle, hevents, hcalls, hacks⟩ := hhandles fuel hdepth.1 queues
    obtain ⟨later, after, hlater, hlaterCalls, hlaterAcks⟩ :=
      MsgList.dispatched htable rest hrest fuel hdepth.2 middle
    refine ⟨_, after, handleMessages_cons htl hevents hlater, ?_, ?_⟩
    · rw [List.filterMap_cons_none rfl, List.filterMap_append, hcalls, hlaterCalls, MsgList.calls]
    · rw [List.filterMap_cons_some (f := Event.ack) rfl, List.filterMap_append, hacks, hlaterAcks,
        MsgList.acks, List.map_cons, List.map_append]

end

/-! ## The ids that survive a `long` -/

theorem toNat_ofInt_ui64 (value : ℤ) : (UInt64.ofInt value).toNat = (value % 2 ^ 64).toNat := by
  rw [UInt64.ofInt, UInt64.toNat_ofNat']
  omega

theorem toNat_ofInt_bmod_64 {value : ℕ} (hlt : value < 2 ^ 64) :
    (UInt64.ofInt ((value : ℤ).bmod (2 ^ 64))).toNat = value := by
  have hmod := Int.bmod_emod (x := (value : ℤ)) (m := 2 ^ 64)
  rw [Nat.cast_pow, Nat.cast_ofNat] at hmod
  rw [toNat_ofInt_ui64, hmod]
  omega

/-- A 32-bit `long` keeps the lower half of a word, with its sign. -/
theorem bmod_two_pow_32_cases (value : ℕ) :
    ((value : ℤ).bmod (2 ^ 32) = value % 2 ^ 32 ∧ value % 2 ^ 32 < 2 ^ 31) ∨
      ((value : ℤ).bmod (2 ^ 32) = value % 2 ^ 32 - 2 ^ 32 ∧ 2 ^ 31 ≤ value % 2 ^ 32) := by
  have hdef := Int.bmod_def (value : ℤ) (2 ^ 32)
  rw [Nat.cast_pow, Nat.cast_ofNat] at hdef
  rw [hdef]
  split
  case isTrue hsmall => exact .inl ⟨rfl, by omega⟩
  case isFalse hlarge => exact .inr ⟨rfl, by omega⟩

theorem toNat_ofInt_bmod_32_eq_iff {value : ℕ} (hlt : value < 2 ^ 64) :
    (UInt64.ofInt ((value : ℤ).bmod (2 ^ 32))).toNat = value ↔
      value < 2 ^ 31 ∨ 2 ^ 64 - 2 ^ 31 ≤ value := by
  rw [toNat_ofInt_ui64]
  rcases bmod_two_pow_32_cases value with ⟨hlow, hsign⟩ | ⟨hlow, hsign⟩
  · rw [hlow]
    omega
  · rw [hlow]
    omega

theorem longOfUi64_lp64 (value : UInt64) :
    longOfUi64 .lp64 value = (value.toNat : ℤ).bmod (2 ^ 64) := rfl

theorem longOfUi64_ilp32 (value : UInt64) :
    longOfUi64 .ilp32 value = (value.toNat : ℤ).bmod (2 ^ 32) := rfl

theorem ackedId_lp64 (msgId : UInt64) : ackedId .lp64 msgId = msgId := by
  have hsame := toNat_ofInt_bmod_64 msgId.toNat_lt
  rw [← longOfUi64_lp64] at hsame
  exact UInt64.toNat_inj.mp hsame

/-- An id survives a 32-bit `long` if it is the sign extension of its lower half. -/
theorem ackedId_ilp32_eq_iff (msgId : UInt64) :
    ackedId .ilp32 msgId = msgId ↔ msgId.toNat < 2 ^ 31 ∨ 2 ^ 64 - 2 ^ 31 ≤ msgId.toNat := by
  have hsame := toNat_ofInt_bmod_32_eq_iff msgId.toNat_lt
  rw [← longOfUi64_ilp32] at hsame
  exact UInt64.toNat_inj.symm.trans hsame

theorem map_eq_self_iff {Item : Type*} (f : Item → Item) (items : List Item) :
    items.map f = items ↔ ∀ item ∈ items, f item = item := by
  induction items with
  | nil => simp
  | cons item rest ih => rw [List.map_cons, List.cons.injEq, ih, List.forall_mem_cons]

/-- `handle_tl` of the decoded tree makes exactly the calls due to its leaves, in order, and
acknowledges exactly the messages of its containers. -/
def DispatchCorrect (model : DataModel) (table : List Method) (gunzip : Bytes → Gunzipped)
    (own : ℕ) (queues : List Queue) (tree : MsgTree) : Prop :=
  ∃ tl, Decodes model table tree.wire (some tl) ∧ ∀ fuel, tree.depth ≤ fuel →
    ∃ events after, handleTl model table gunzip own fuel (some tl) queues = some (events, after) ∧
      events.filterMap Event.call = tree.calls ∧ events.filterMap Event.ack = tree.acks

/-- A tree is dispatched correctly if its message ids come through unchanged. -/
theorem dispatchCorrect_iff_map (htable : HasService table) (tree : MsgTree)
    (h : tree.WellFormed model table gunzip) (queues : List Queue) :
    DispatchCorrect model table gunzip own queues tree ↔
      tree.acks.map (ackedId model) = tree.acks := by
  obtain ⟨tl, htl, hhandles⟩ := MsgTree.dispatched htable tree h
  constructor
  · rintro ⟨found, hfound, hcorrect⟩
    have hsame : found = tl := by
      obtain ⟨first, hfirst⟩ := hfound
      obtain ⟨second, hsecond⟩ := htl
      rw [hfirst, Option.some.injEq, Prod.mk.injEq, Option.some.injEq] at hsecond
      exact hsecond.1
    obtain ⟨events, after, hevents, -, hacks⟩ := hcorrect tree.depth le_rfl
    obtain ⟨events', after', hevents', -, hacks'⟩ := hhandles tree.depth le_rfl queues
    rw [hsame, hevents', Option.some.injEq, Prod.mk.injEq] at hevents
    rw [← hacks', hevents.1, hacks]
  · intro heq
    refine ⟨tl, htl, fun fuel hfuel ↦ ?_⟩
    rw [← heq]
    exact hhandles fuel hfuel queues

/-- Dispatch is correct for exactly those trees whose message ids survive a `long`. -/
theorem dispatchCorrect_iff (htable : HasService table) (tree : MsgTree)
    (h : tree.WellFormed model table gunzip) (queues : List Queue) :
    DispatchCorrect model table gunzip own queues tree ↔
      (model = .lp64 ∨
        ∀ id ∈ tree.acks, id.toNat < 2 ^ 31 ∨ 2 ^ 64 - 2 ^ 31 ≤ id.toNat) := by
  rw [dispatchCorrect_iff_map htable tree h, map_eq_self_iff]
  cases model with
  | lp64 => simp only [ackedId_lp64, implies_true, true_or]
  | ilp32 => simp only [ackedId_ilp32_eq_iff, reduceCtorEq, false_or]

end Dispatch

/-! ## A container with a compressed update and a notice -/

def updatesTooLong : Method := ⟨"updatesTooLong", 0xe317af7e, [], false⟩

/-- A table with the constructors that `handle_tl` looks into and one update. -/
def serviceTable : List Method :=
  [gzipPacked, msgContainer, rpcResult, rpcError, msgDetailedInfo, msgNewDetailedInfo,
    updatesTooLong]

theorem hasService_serviceTable : HasService serviceTable where
  gzipPacked := by decide
  msgContainer := by decide
  rpcResult := by decide
  msgDetailedInfo := by decide
  msgNewDetailedInfo := by decide

/-- The four bytes of `updatesTooLong`, compressed. -/
def packedTooLong : Bytes :=
  [31, 139, 8, 0, 0, 0, 0, 0, 2, 3, 171, 91, 47, 254, 24, 0, 186, 37, 0, 68, 4, 0, 0, 0]

/-- `gunzip_buf` on these bytes; anything else is taken to be no gzip data. -/
def gunzipTooLong (packed : Bytes) : Gunzipped :=
  if packed = packedTooLong then ⟨true, le32 updatesTooLong.id, 4⟩ else ⟨false, [], 0⟩

/-- A container with the compressed update and a notice about an answer. -/
def noticeBatch : MsgTree :=
  .container (.cons 7301444403200000001 1
    (.gzip packedTooLong
      (.updates (le32 updatesTooLong.id) (.mk updatesTooLong.id (le32 updatesTooLong.id) [])))
    (.cons 7301444403200000005 3 (.detailedInfo 8 12 16 0) .nil))

theorem decodes_tooLong (model : DataModel) :
    Decodes model serviceTable (le32 updatesTooLong.id)
      (some (.mk updatesTooLong.id (le32 updatesTooLong.id) [])) :=
  decodes_of_args (List.append_nil _).symm (by decide) (by decide) (by decide) (by decide)
    ⟨_, rfl⟩

theorem expands_tooLong : Expands gunzipTooLong packedTooLong (le32 updatesTooLong.id) :=
  ⟨[], by rw [gunzipTooLong, if_pos rfl]; rfl, by decide⟩

theorem wellFormed_noticeBatch (model : DataModel) :
    noticeBatch.WellFormed model serviceTable gunzipTooLong := by
  have hupdates : MsgTree.WellFormed model serviceTable gunzipTooLong
      (.updates (le32 updatesTooLong.id) (.mk updatesTooLong.id (le32 updatesTooLong.id) [])) :=
    ⟨decodes_tooLong model, by decide⟩
  exact ⟨by decide, by decide +kernel, by decide, ⟨by decide, expands_tooLong, hupdates⟩, by decide,
    trivial, trivial⟩

theorem noticeBatch_dispatched :
    DispatchCorrect .lp64 serviceTable gunzipTooLong 0 [] noticeBatch :=
  (dispatchCorrect_iff hasService_serviceTable _ (wellFormed_noticeBatch .lp64) []).mpr (.inl rfl)

/-- On a target with a 32-bit `long` the acks of the same container go wrong. -/
theorem noticeBatch_not_dispatched :
    ¬ DispatchCorrect .ilp32 serviceTable gunzipTooLong 0 [] noticeBatch := by
  rw [dispatchCorrect_iff_map hasService_serviceTable _ (wellFormed_noticeBatch .ilp32)]
  decide +kernel

end LibTg.Tg
