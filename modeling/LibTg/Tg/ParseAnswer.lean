import LibTg.Tg.Gunzip
import LibTg.Tg.MessageTree

/-!
# Looking for an answer (`tg/answer.c`)

`tg_parse_answer` goes through a message, and through the messages that it wraps, for the answer to a
request. It returns 0 if it has found one, and hands what it finds to a callback, which may ask it to
stop. What comes out of a message inside a container does not come out of the container, and a
compressed message is never looked into: the pointer that is to be unpacked is the new variable `tl`,
which has no value yet.
-/

namespace LibTg.Tg

open LibTg.Tl

/-- An element of `msg_ids_`. -/
def longElem : Field → Option UInt64
  | .long value => some value
  | _ => none

/-- The elements of `msg_ids_` that the loop over `msg_ids_len` visits. -/
def msgIdsField (tl : TlObj) : Option (List UInt64) :=
  match tl.fields.head? with
  | some (.vector len elems) =>
    let count := (intOfUi32 len).toNat
    if count ≤ elems.length then (elems.take count).mapM longElem else none
  | _ => none

/-- What `tg_parse_answer` does: `tg_add_msgid`, a call of the callback, an assignment to `timediff`,
and `tg_do_updates`. -/
inductive AnswerEvent
  | addMsgid (id : UInt64)
  | callback (tl : Option TlObj)
  | timediff (value : ℤ)
  | doUpdates (tl : TlObj)

/-- The object that is handed to the callback. -/
def AnswerEvent.handed : AnswerEvent → Option (Option TlObj)
  | .callback tl => some tl
  | _ => none

/-- `answer_msg_id_` of the one or the other notice. -/
def answerMsgId (tl : TlObj) : Option UInt64 :=
  if tl.id = msgDetailedInfo.id then longField tl 1 else longField tl 0

section ParseAnswer

variable {State : Type} (moves : ℕ → Bool) (inflate : Inflate) (model : DataModel)
  (table : List Method)

/-- A callback, with the memory that it may use. There may be none. -/
abbrev Callback (State : Type) := Option (State → Option TlObj → ℤ × State)

/-- `if (callback) callback(ptr, tl)`, and whether it is not zero. -/
def callBack (callback : Callback State) (tl : Option TlObj) (state : State) :
    Bool × List AnswerEvent × State :=
  match callback with
  | none => (false, [], state)
  | some call => (decide ((call state tl).1 ≠ 0), [.callback tl], (call state tl).2)

/-- The loop over the ids of a `msgs_ack`, from which a callback leaves. -/
def ackLoop (msgId : UInt64) (callback : Callback State) (tl : TlObj) :
    ℤ → List UInt64 → State → ℤ × List AnswerEvent × State
  | ret, [], state => (ret, [], state)
  | ret, id :: rest, state =>
    if msgId = id then
      let (stop, events, state) := callBack callback (some tl) state
      if stop then (0, events, state)
      else
        let (ret, later, state) := ackLoop msgId callback tl 0 rest state
        (ret, events ++ later, state)
    else ackLoop msgId callback tl ret rest state

/-- The loop over the messages of a container. The value of each call is dropped. -/
def parseMessages (parse : Option TlObj → State → Option (ℤ × List AnswerEvent × State)) :
    List MtpMessage → State → Option (List AnswerEvent × State)
  | [], state => some ([], state)
  | message :: rest, state => do
    let (tl, _) ← tlDeserialize model table (cursorAt message.body [] 0)
    let (_, events, state) ← parse tl state
    let (later, state) ← parseMessages parse rest state
    some (events ++ later, state)

/-- `tg_parse_answer`, up to a nesting depth of `fuel`. `stray` is what the new variable `tl` of a
`gzip_packed` holds, which is nothing unless it happens to point to an object or nowhere. -/
def tgParseAnswer (stray : TlObj → Option (Option TlObj)) (msgId : UInt64)
    (callback : Callback State) :
    ℕ → Option TlObj → State → Option (ℤ × List AnswerEvent × State)
  | 0, _, _ => none
  | _ + 1, none, state => some (1, [], state)
  | fuel + 1, some tl, state =>
    if tl.id = rpcResult.id then do
      let reqMsgId ← longField tl 0
      let result ← objectField tl 1
      if msgId = reqMsgId then
        let (_, events, state) := callBack callback result state
        some (0, .addMsgid msgId :: events, state)
      else some (1, [.addMsgid msgId], state)
    else if tl.id = msgDetailedInfo.id ∨ tl.id = msgNewDetailedInfo.id then do
      let answer ← answerMsgId tl
      if msgId = answer then
        let (_, events, state) := callBack callback (some tl) state
        some (0, .addMsgid answer :: events, state)
      else some (1, [], state)
    else if tl.id = rpcError.id ∨ tl.id = idBadMsgNotification then
      some (1, [.timediff ntpTimeDiff], state)
    else if tl.id ∈ updatesIds then some (1, [.doUpdates tl], state)
    else if tl.id = msgContainer.id then do
      let messages ← messagesField tl
      let (events, state) ←
        parseMessages model table (tgParseAnswer stray msgId callback fuel) messages state
      some (1, events, state)
    else if tl.id = gzipPacked.id then do
      let packed ← stray tl
      let inner ← tgTlFromGzip moves inflate model table packed
      let (_, events, state) ← tgParseAnswer stray msgId callback fuel inner state
      some (1, events, state)
    else if tl.id = msgsAck.id then do
      let ids ← msgIdsField tl
      some (ackLoop msgId callback tl 1 ids state)
    else some (1, [], state)

end ParseAnswer

/-! ## Trees of answers -/

mutual

/-- A message tree, with the object of every node. -/
inductive AnswerTree
  | leaf (tl : TlObj)
  | container (tl : TlObj) (messages : AnswerList)
  | gzip (tl : TlObj) (inner : AnswerTree)

/-- The messages of a container. -/
inductive AnswerList
  | nil
  | cons (body : AnswerTree) (rest : AnswerList)

end

def AnswerTree.root : AnswerTree → TlObj
  | .leaf tl => tl
  | .container tl _ => tl
  | .gzip tl _ => tl

/-- What a node hands to the callback if it answers `msgId`. -/
def nodeAnswer (msgId : UInt64) (tl : TlObj) : Option (Option TlObj) :=
  if tl.id = rpcResult.id then
    if longField tl 0 = some msgId then objectField tl 1 else none
  else if tl.id = msgDetailedInfo.id then
    if longField tl 1 = some msgId then some (some tl) else none
  else if tl.id = msgNewDetailedInfo.id then
    if longField tl 0 = some msgId then some (some tl) else none
  else if tl.id = msgsAck.id then
    if msgId ∈ (msgIdsField tl).getD [] then some (some tl) else none
  else none

mutual

/-- What the nodes of a tree have to hand to the callback, depth first. -/
def AnswerTree.answers (msgId : UInt64) : AnswerTree → List (Option TlObj)
  | .leaf tl => (nodeAnswer msgId tl).toList
  | .container _ messages => messages.answers msgId
  | .gzip _ inner => inner.answers msgId

/-- What the messages of a container have to hand to the callback. -/
def AnswerList.answers (msgId : UInt64) : AnswerList → List (Option TlObj)
  | .nil => []
  | .cons body rest => body.answers msgId ++ rest.answers msgId

end

mutual

/-- How deep `tg_parse_answer` goes into a tree. -/
def AnswerTree.depth : AnswerTree → ℕ
  | .leaf _ => 1
  | .container _ messages => messages.depth + 1
  | .gzip _ inner => inner.depth + 1

/-- The depth of the deepest message. -/
def AnswerList.depth : AnswerList → ℕ
  | .nil => 0
  | .cons body rest => max body.depth rest.depth

end

/-- The calls of a callback for some objects, until it returns something that is not zero. -/
def handedUntil {State : Type} (callback : Callback State) :
    List (Option TlObj) → State → List (Option TlObj)
  | [], _ => []
  | tl :: rest, state =>
    match callback with
    | none => []
    | some call =>
      tl :: if (call state tl).1 ≠ 0 then [] else handedUntil callback rest (call state tl).2

section WellFormed

variable {State : Type} (moves : ℕ → Bool) (inflate : Inflate) (model : DataModel)
  (table : List Method)

/-- An object that wraps no message, with the fields that are read of it. -/
structure LeafFields (tl : TlObj) : Prop where
  container : tl.id ≠ msgContainer.id
  gzip : tl.id ≠ gzipPacked.id
  result : tl.id = rpcResult.id → (longField tl 0).isSome ∧ (objectField tl 1).isSome
  detailedInfo : tl.id = msgDetailedInfo.id → (longField tl 1).isSome
  newDetailedInfo : tl.id = msgNewDetailedInfo.id → (longField tl 0).isSome
  acks : tl.id = msgsAck.id → (msgIdsField tl).isSome

mutual

/-- The objects of a tree wrap each other. -/
def AnswerTree.WellFormed : AnswerTree → Prop
  | .leaf tl => LeafFields tl
  | .container tl messages =>
    tl.id = msgContainer.id ∧ ∃ found, messagesField tl = some found ∧ messages.WellFormed found
  | .gzip tl inner =>
    tl.id = gzipPacked.id ∧
      tgTlFromGzip moves inflate model table (some tl) = some (some inner.root) ∧ inner.WellFormed

/-- The bodies of some messages are decoded to the objects of a list. -/
def AnswerList.WellFormed : AnswerList → List MtpMessage → Prop
  | .nil, found => found = []
  | .cons body rest, found =>
    ∃ message others cursor, found = message :: others ∧
      tlDeserialize model table (cursorAt message.body [] 0) = some (some body.root, cursor) ∧
      body.WellFormed ∧ rest.WellFormed others

end

/-- `tg_parse_answer` returns 0 if a node of the tree answers `msgId` and 1 otherwise, and calls the
callback for these nodes, whatever the new variable holds. -/
def Reports (msgId : UInt64) (callback : Callback State) (state : State) (tree : AnswerTree) :
    Prop :=
  ∀ stray fuel, tree.depth ≤ fuel → ∃ events after,
    tgParseAnswer moves inflate model table stray msgId callback fuel (some tree.root) state =
        some (if tree.answers msgId = [] then 1 else 0, events, after) ∧
      events.filterMap AnswerEvent.handed = handedUntil callback (tree.answers msgId) state

end WellFormed

mutual

/-- Nothing in a tree is compressed. -/
def AnswerTree.GzipFree : AnswerTree → Prop
  | .leaf _ => True
  | .container _ messages => messages.GzipFree
  | .gzip _ _ => False

/-- Nothing in the messages of a container is compressed. -/
def AnswerList.GzipFree : AnswerList → Prop
  | .nil => True
  | .cons body rest => body.GzipFree ∧ rest.GzipFree

end

/-- A `msgs_ack` lists the id once at most, or the callback wants no more than one call. -/
def ListedOnce {State : Type} (msgId : UInt64) (callback : Callback State) (state : State)
    (tl : TlObj) : Prop :=
  tl.id = msgsAck.id → ((msgIdsField tl).getD []).count msgId ≤ 1 ∨
    ∀ call ∈ callback, (call state (some tl)).1 ≠ 0

/-- Nothing in the tree is compressed, and an answer to `msgId` is not wrapped. -/
def Bare {State : Type} (msgId : UInt64) (callback : Callback State) (state : State) :
    AnswerTree → Prop
  | .leaf tl => ListedOnce msgId callback state tl
  | tree => tree.GzipFree ∧ tree.answers msgId = []

/-! ## One level of a tree -/

section Level

variable {State : Type} {moves : ℕ → Bool} {inflate : Inflate} {model : DataModel}
  {table : List Method} {stray : TlObj → Option (Option TlObj)} {msgId : UInt64}
  {callback : Callback State} {tl : TlObj} {state : State} {fuel : ℕ}

theorem parseAnswer_container (hid : tl.id = msgContainer.id) :
    tgParseAnswer moves inflate model table stray msgId callback (fuel + 1) (some tl) state =
      (messagesField tl).bind fun messages ↦
        (parseMessages model table
          (tgParseAnswer moves inflate model table stray msgId callback fuel) messages state).bind
            fun result ↦ some (1, result.1, result.2) := by
  have hresult : ¬ tl.id = rpcResult.id := by rw [hid]; decide
  have hinfo : ¬ (tl.id = msgDetailedInfo.id ∨ tl.id = msgNewDetailedInfo.id) := by rw [hid]; decide
  have herror : ¬ (tl.id = rpcError.id ∨ tl.id = idBadMsgNotification) := by rw [hid]; decide
  have hupdates : tl.id ∉ updatesIds := by rw [hid]; decide
  rw [tgParseAnswer, if_neg hresult, if_neg hinfo, if_neg herror, if_neg hupdates, if_pos hid]
  rfl

theorem parseAnswer_gzip (hid : tl.id = gzipPacked.id) :
    tgParseAnswer moves inflate model table stray msgId callback (fuel + 1) (some tl) state =
      (stray tl).bind fun packed ↦
        (tgTlFromGzip moves inflate model table packed).bind fun inner ↦
          (tgParseAnswer moves inflate model table stray msgId callback fuel inner state).bind
            fun result ↦ some (1, result.2) := by
  have hresult : ¬ tl.id = rpcResult.id := by rw [hid]; decide
  have hinfo : ¬ (tl.id = msgDetailedInfo.id ∨ tl.id = msgNewDetailedInfo.id) := by rw [hid]; decide
  have herror : ¬ (tl.id = rpcError.id ∨ tl.id = idBadMsgNotification) := by rw [hid]; decide
  have hupdates : tl.id ∉ updatesIds := by rw [hid]; decide
  have hcontainer : ¬ tl.id = msgContainer.id := by rw [hid]; decide
  rw [tgParseAnswer, if_neg hresult, if_neg hinfo, if_neg herror, if_neg hupdates,
    if_neg hcontainer, if_pos hid]
  rfl

/-- What a call of the callback hands over. -/
theorem handed_callBack (tl : Option TlObj) :
    (callBack callback tl state).2.1.filterMap AnswerEvent.handed =
      handedUntil callback [tl] state := by
  cases callback with
  | none => rfl
  | some call =>
    rw [handedUntil]
    split <;> rfl

variable (msgId callback tl) in
/-- The loop over the ids of a `msgs_ack`. -/
theorem ackLoop_spec (ret : ℤ) (ids : List UInt64) (state : State) :
    (ackLoop msgId callback tl ret ids state).1 = (if msgId ∈ ids then 0 else ret) ∧
      (ackLoop msgId callback tl ret ids state).2.1.filterMap AnswerEvent.handed =
        handedUntil callback (List.replicate (ids.count msgId) (some tl)) state := by
  induction ids generalizing ret state with
  | nil => exact ⟨rfl, rfl⟩
  | cons id rest ih =>
    rw [ackLoop]
    split
    case isFalse hne =>
      obtain ⟨hret, hcalls⟩ := ih ret state
      rw [List.count_cons_of_ne (Ne.symm hne), hret, hcalls]
      simp only [List.mem_cons, hne, false_or, and_self]
    case isTrue heq =>
      rw [heq, List.count_cons_self, List.replicate_succ]
      rw [heq] at ih
      rw [if_pos List.mem_cons_self]
      cases callback with
      | none =>
        obtain ⟨hret, hcalls⟩ := ih 0 state
        simp only [callBack, Bool.false_eq_true, if_false, List.nil_append]
        rw [hret, hcalls]
        refine ⟨ite_self 0, ?_⟩
        cases rest.count id <;> rfl
      | some call =>
        rw [handedUntil]
        by_cases hstop : (call state (some tl)).1 ≠ 0
        · have hcall : callBack (some call) (some tl) state =
              (true, [.callback (some tl)], (call state (some tl)).2) := by
            rw [callBack, decide_eq_true hstop]
          rw [hcall, if_pos hstop]
          exact ⟨rfl, rfl⟩
        · have hcall : callBack (some call) (some tl) state =
              (false, [.callback (some tl)], (call state (some tl)).2) := by
            rw [callBack, decide_eq_false hstop]
          obtain ⟨hret, hcalls⟩ := ih 0 (call state (some tl)).2
          rw [hcall, if_neg hstop]
          refine ⟨hret.trans (ite_self 0), ?_⟩
          rw [← hcalls]
          rfl

/-- What is handed over for an object that wraps no message. A `msgs_ack` counts as often as it lists
the id. -/
def handedFor (msgId : UInt64) (tl : TlObj) : List (Option TlObj) :=
  if tl.id = msgsAck.id then List.replicate (((msgIdsField tl).getD []).count msgId) (some tl)
  else (nodeAnswer msgId tl).toList

variable (moves inflate model table stray msgId callback state fuel) in
/-- An object that wraps no message is looked at. -/
def LeafParsed (tl : TlObj) : Prop :=
  ∃ events after,
    tgParseAnswer moves inflate model table stray msgId callback (fuel + 1) (some tl) state =
        some (if (nodeAnswer msgId tl).toList = [] then 1 else 0, events, after) ∧
      events.filterMap AnswerEvent.handed = handedUntil callback (handedFor msgId tl) state

theorem leafParsed_result (hleaf : LeafFields tl) (hid : tl.id = rpcResult.id) :
    LeafParsed moves inflate model table stray msgId callback state fuel tl := by
  obtain ⟨hlong, hobject⟩ := hleaf.result hid
  obtain ⟨reqMsgId, hlong⟩ := Option.isSome_iff_exists.mp hlong
  obtain ⟨result, hobject⟩ := Option.isSome_iff_exists.mp hobject
  have hack : ¬ tl.id = msgsAck.id := by rw [hid]; decide
  rw [LeafParsed, tgParseAnswer, handedFor, nodeAnswer, if_pos hid, if_pos hid, if_neg hack, hlong,
    hobject, Option.bind_eq_bind, Option.bind_some, Option.bind_eq_bind, Option.bind_some]
  by_cases heq : msgId = reqMsgId
  · rw [if_pos heq, if_pos (congrArg some heq.symm)]
    exact ⟨_, _, rfl, handed_callBack result⟩
  · rw [if_neg heq, if_neg fun hsome ↦ heq (Option.some.inj hsome).symm]
    exact ⟨_, _, rfl, rfl⟩

theorem leafParsed_detailedInfo (hleaf : LeafFields tl) (hid : tl.id = msgDetailedInfo.id) :
    LeafParsed moves inflate model table stray msgId callback state fuel tl := by
  obtain ⟨answer, hlong⟩ := Option.isSome_iff_exists.mp (hleaf.detailedInfo hid)
  have hresult : ¬ tl.id = rpcResult.id := by rw [hid]; decide
  have hack : ¬ tl.id = msgsAck.id := by rw [hid]; decide
  rw [LeafParsed, handedFor, if_neg hack, tgParseAnswer, nodeAnswer, if_neg hresult,
    if_neg hresult, if_pos (.inl hid), answerMsgId, if_pos hid, if_pos hid, hlong,
    Option.bind_eq_bind, Option.bind_some]
  by_cases heq : msgId = answer
  · rw [if_pos heq, if_pos (congrArg some heq.symm)]
    exact ⟨_, _, rfl, handed_callBack (some tl)⟩
  · rw [if_neg heq, if_neg fun hsome ↦ heq (Option.some.inj hsome).symm]
    exact ⟨_, _, rfl, rfl⟩

theorem leafParsed_newDetailedInfo (hleaf : LeafFields tl) (hid : tl.id = msgNewDetailedInfo.id) :
    LeafParsed moves inflate model table stray msgId callback state fuel tl := by
  obtain ⟨answer, hlong⟩ := Option.isSome_iff_exists.mp (hleaf.newDetailedInfo hid)
  have hresult : ¬ tl.id = rpcResult.id := by rw [hid]; decide
  have hinfo : ¬ tl.id = msgDetailedInfo.id := by rw [hid]; decide
  have hack : ¬ tl.id = msgsAck.id := by rw [hid]; decide
  rw [LeafParsed, handedFor, if_neg hack, tgParseAnswer, nodeAnswer, if_neg hresult,
    if_neg hresult, if_pos (.inr hid), answerMsgId, if_neg hinfo, if_neg hinfo, if_pos hid, hlong,
    Option.bind_eq_bind, Option.bind_some]
  by_cases heq : msgId = answer
  · rw [if_pos heq, if_pos (congrArg some heq.symm)]
    exact ⟨_, _, rfl, handed_callBack (some tl)⟩
  · rw [if_neg heq, if_neg fun hsome ↦ heq (Option.some.inj hsome).symm]
    exact ⟨_, _, rfl, rfl⟩

theorem leafParsed_acks (hleaf : LeafFields tl) (hid : tl.id = msgsAck.id) :
    LeafParsed moves inflate model table stray msgId callback state fuel tl := by
  obtain ⟨ids, hids⟩ := Option.isSome_iff_exists.mp (hleaf.acks hid)
  obtain ⟨hret, hcalls⟩ := ackLoop_spec msgId callback tl 1 ids state
  have hresult : ¬ tl.id = rpcResult.id := by rw [hid]; decide
  have hinfo : ¬ tl.id = msgDetailedInfo.id := by rw [hid]; decide
  have hnew : ¬ tl.id = msgNewDetailedInfo.id := by rw [hid]; decide
  have herror : ¬ (tl.id = rpcError.id ∨ tl.id = idBadMsgNotification) := by rw [hid]; decide
  have hupdates : tl.id ∉ updatesIds := by rw [hid]; decide
  rw [LeafParsed, tgParseAnswer, handedFor, nodeAnswer, if_neg hresult, if_neg hresult,
    if_neg (not_or.mpr ⟨hinfo, hnew⟩), if_neg herror, if_neg hupdates, if_neg hleaf.container,
    if_neg hleaf.gzip, if_pos hid, if_neg hinfo, if_neg hnew, if_pos hid, if_pos hid, hids,
    Option.bind_eq_bind, Option.bind_some, Option.getD_some]
  refine ⟨_, _, congrArg some (Prod.ext ?_ rfl), hcalls⟩
  rw [hret]
  split <;> rfl

/-- Of the other objects nothing is handed over. -/
theorem leafParsed_other (hleaf : LeafFields tl) (hresult : tl.id ≠ rpcResult.id)
    (hinfo : tl.id ≠ msgDetailedInfo.id) (hnew : tl.id ≠ msgNewDetailedInfo.id)
    (hack : tl.id ≠ msgsAck.id) :
    LeafParsed moves inflate model table stray msgId callback state fuel tl := by
  have hnode : nodeAnswer msgId tl = none := by
    rw [nodeAnswer, if_neg hresult, if_neg hinfo, if_neg hnew, if_neg hack]
  have hhanded : handedUntil callback (handedFor msgId tl) state = [] := by
    rw [handedFor, if_neg hack, hnode]
    rfl
  rw [LeafParsed, tgParseAnswer, hhanded, hnode, if_neg hresult,
    if_neg (not_or.mpr ⟨hinfo, hnew⟩), if_neg hleaf.container, if_neg hleaf.gzip, if_neg hack,
    if_pos (show (none : Option (Option TlObj)).toList = [] from rfl)]
  split_ifs
  · exact ⟨_, _, rfl, rfl⟩
  · exact ⟨_, _, rfl, rfl⟩
  · exact ⟨_, _, rfl, rfl⟩

theorem leafParsed (hleaf : LeafFields tl) :
    LeafParsed moves inflate model table stray msgId callback state fuel tl := by
  by_cases hresult : tl.id = rpcResult.id
  · exact leafParsed_result hleaf hresult
  by_cases hinfo : tl.id = msgDetailedInfo.id
  · exact leafParsed_detailedInfo hleaf hinfo
  by_cases hnew : tl.id = msgNewDetailedInfo.id
  · exact leafParsed_newDetailedInfo hleaf hnew
  by_cases hack : tl.id = msgsAck.id
  · exact leafParsed_acks hleaf hack
  exact leafParsed_other hleaf hresult hinfo hnew hack

/-- A second call for the same object is due only if the callback asks for no end. -/
theorem handedUntil_replicate_iff (tl : Option TlObj) (count : ℕ) :
    handedUntil callback (List.replicate count tl) state =
        handedUntil callback (if count = 0 then [] else [tl]) state ↔
      count ≤ 1 ∨ ∀ call ∈ callback, (call state tl).1 ≠ 0 := by
  match count with
  | 0 => exact iff_of_true rfl (.inl (Nat.zero_le 1))
  | 1 => exact iff_of_true rfl (.inl le_rfl)
  | count + 2 =>
    rw [if_neg (by omega), or_iff_right (by omega), List.replicate_succ, List.replicate_succ]
    cases callback with
    | none => exact iff_of_true rfl nofun
    | some call =>
      simp only [handedUntil, Option.mem_some_iff, forall_eq']
      by_cases hstop : (call state tl).1 ≠ 0
      · rw [if_pos hstop, if_pos hstop]
        exact iff_of_true rfl hstop
      · rw [if_neg hstop, if_neg hstop]
        exact iff_of_false (by simp) hstop

end Level

/-! ## Whole trees -/

section Tree

variable {State : Type} {moves : ℕ → Bool} {inflate : Inflate} {model : DataModel}
  {table : List Method} {msgId : UInt64} {callback : Callback State}

theorem nodeAnswer_acks {tl : TlObj} (hid : tl.id = msgsAck.id) :
    (nodeAnswer msgId tl).toList =
      if ((msgIdsField tl).getD []).count msgId = 0 then [] else [some tl] := by
  have hresult : ¬ tl.id = rpcResult.id := by rw [hid]; decide
  have hinfo : ¬ tl.id = msgDetailedInfo.id := by rw [hid]; decide
  have hnew : ¬ tl.id = msgNewDetailedInfo.id := by rw [hid]; decide
  rw [nodeAnswer, if_neg hresult, if_neg hinfo, if_neg hnew, if_pos hid]
  by_cases hmem : msgId ∈ (msgIdsField tl).getD []
  · rw [if_pos hmem, if_neg (List.count_pos_iff.mpr hmem).ne']
    rfl
  · rw [if_neg hmem, if_pos (List.count_eq_zero_of_not_mem hmem)]
    rfl

/-- For an object that wraps no message the callback is called as promised exactly if a `msgs_ack` does
not list the id too often. -/
theorem handedUntil_handedFor_iff (tl : TlObj) (state : State) :
    handedUntil callback (handedFor msgId tl) state =
        handedUntil callback (nodeAnswer msgId tl).toList state ↔
      ListedOnce msgId callback state tl := by
  by_cases hid : tl.id = msgsAck.id
  · rw [nodeAnswer_acks hid, handedFor, if_pos hid, handedUntil_replicate_iff, ListedOnce,
      forall_prop_of_true hid]
  · rw [handedFor, if_neg hid]
    exact iff_of_true rfl fun h ↦ absurd h hid

mutual

/-- Without an answer, and with nothing compressed, the callback is not called. -/
theorem AnswerTree.silent (stray : TlObj → Option (Option TlObj)) : ∀ (tree : AnswerTree),
    tree.WellFormed moves inflate model table → tree.GzipFree → tree.answers msgId = [] →
    ∀ fuel, tree.depth ≤ fuel → ∀ state, ∃ events after,
      tgParseAnswer moves inflate model table stray msgId callback fuel (some tree.root) state =
        some (1, events, after) ∧ events.filterMap AnswerEvent.handed = []
  | .leaf tl, htree, _, hanswers, fuel, hfuel, state => by
    obtain ⟨less, rfl, -⟩ := exists_succ_of_le (show 0 + 1 ≤ fuel from hfuel)
    have hnone : (nodeAnswer msgId tl).toList = [] := hanswers
    have honce : ListedOnce msgId callback state tl := by
      intro hid
      rw [nodeAnswer_acks hid, ite_eq_left_iff] at hnone
      have hzero : ((msgIdsField tl).getD []).count msgId = 0 := by
        by_contra hne
        cases hnone hne
      exact .inl (hzero.le.trans (Nat.zero_le 1))
    have hleaf : LeafParsed moves inflate model table stray msgId callback state less tl :=
      leafParsed htree
    obtain ⟨events, after, hparse, hhanded⟩ := hleaf
    refine ⟨events, after, ?_, ?_⟩
    · rw [AnswerTree.root, hparse, if_pos hnone]
    · rw [hhanded, (handedUntil_handedFor_iff tl state).mpr honce, hnone, handedUntil]
  | .container tl messages, ⟨hid, found, hfound, hmessages⟩, hfree, hanswers, fuel, hfuel, state => by
    obtain ⟨less, rfl, hless⟩ := exists_succ_of_le hfuel
    obtain ⟨events, after, hparse, hhanded⟩ :=
      AnswerList.silent stray messages found hmessages hfree hanswers less hless state
    refine ⟨events, after, ?_, hhanded⟩
    rw [AnswerTree.root, parseAnswer_container hid, hfound, Option.bind_some, hparse,
      Option.bind_some]

/-- Without an answer in the messages of a container the callback is not called. -/
theorem AnswerList.silent (stray : TlObj → Option (Option TlObj)) : ∀ (messages : AnswerList)
    (found : List MtpMessage), messages.WellFormed moves inflate model table found →
    messages.GzipFree → messages.answers msgId = [] →
    ∀ fuel, messages.depth ≤ fuel → ∀ state, ∃ events after,
      parseMessages model table (tgParseAnswer moves inflate model table stray msgId callback fuel)
        found state = some (events, after) ∧ events.filterMap AnswerEvent.handed = []
  | .nil, found, hfound, _, _, _, _, state => by
    have hfound : found = [] := hfound
    rw [hfound]
    exact ⟨[], state, rfl, rfl⟩
  | .cons body rest, _, ⟨message, others, cursor, hfound, hread, hbody, hrest⟩, hfree, hanswers, fuel,
      hfuel, state => by
    have hdepth := max_le_iff.mp hfuel
    obtain ⟨hfirst, hlater⟩ := List.append_eq_nil_iff.mp hanswers
    obtain ⟨events, middle, hparse, hhanded⟩ :=
      AnswerTree.silent stray body hbody hfree.1 hfirst fuel hdepth.1 state
    obtain ⟨later, after, hparse', hhanded'⟩ :=
      AnswerList.silent stray rest others hrest hfree.2 hlater fuel hdepth.2 middle
    refine ⟨events ++ later, after, ?_, by rw [List.filterMap_append, hhanded, hhanded']; rfl⟩
    rw [hfound, parseMessages, hread, Option.bind_eq_bind, Option.bind_some]
    dsimp only
    rw [hparse, Option.bind_eq_bind, Option.bind_some]
    dsimp only
    rw [hparse']
    rfl

end

mutual

/-- When the new variable of a `gzip_packed` holds nothing, a tree with one is not gone through. -/
theorem AnswerTree.faults : ∀ (tree : AnswerTree), tree.WellFormed moves inflate model table →
    ¬ tree.GzipFree → ∀ fuel (state : State),
      tgParseAnswer moves inflate model table (fun _ ↦ none) msgId callback fuel (some tree.root)
        state = none
  | .leaf _, _, hpacked, _, _ => absurd trivial hpacked
  | .container _ _, _, _, 0, _ => rfl
  | .container tl messages, ⟨hid, found, hfound, hmessages⟩, hpacked, fuel + 1, state => by
    rw [AnswerTree.root, parseAnswer_container hid, hfound, Option.bind_some,
      AnswerList.faults messages found hmessages hpacked fuel state, Option.bind_none]
  | .gzip _ _, _, _, 0, _ => rfl
  | .gzip tl inner, ⟨hid, _⟩, _, fuel + 1, state => by
    rw [AnswerTree.root, parseAnswer_gzip hid, Option.bind_none]

/-- Neither is a container with a message of this kind. -/
theorem AnswerList.faults : ∀ (messages : AnswerList) (found : List MtpMessage),
    messages.WellFormed moves inflate model table found → ¬ messages.GzipFree →
    ∀ fuel (state : State), parseMessages model table
      (tgParseAnswer moves inflate model table (fun _ ↦ none) msgId callback fuel) found state = none
  | .nil, _, _, hpacked, _, _ => absurd trivial hpacked
  | .cons body rest, _, ⟨message, others, cursor, hfound, hread, hbody, hrest⟩, hpacked, fuel,
      state => by
    rw [hfound, parseMessages, hread, Option.bind_eq_bind, Option.bind_some]
    dsimp only
    by_cases hfree : body.GzipFree
    · have hlater : ¬ rest.GzipFree := fun hrest ↦ hpacked ⟨hfree, hrest⟩
      cases tgParseAnswer moves inflate model table (fun _ ↦ none) msgId callback fuel
          (some body.root) state with
      | none => rfl
      | some result =>
        rw [Option.bind_eq_bind, Option.bind_some]
        rw [AnswerList.faults rest others hrest hlater fuel result.2.2]
        rfl
    · rw [AnswerTree.faults body hbody hfree fuel state]
      rfl

end

/-- An answer is reported as promised exactly if nothing in its tree is compressed and it is not
inside a container, and if a `msgs_ack` does not list the id once more. -/
theorem reports_iff_bare (tree : AnswerTree) (htree : tree.WellFormed moves inflate model table)
    (state : State) :
    Reports moves inflate model table msgId callback state tree ↔ Bare msgId callback state tree := by
  cases tree with
  | leaf tl =>
    have hleaf (stray : TlObj → Option (Option TlObj)) (fuel : ℕ) :
        LeafParsed moves inflate model table stray msgId callback state fuel tl := leafParsed htree
    rw [Bare, ← handedUntil_handedFor_iff]
    constructor
    · intro hreports
      obtain ⟨events, after, hparse, hhanded⟩ := hreports (fun _ ↦ none) 1 le_rfl
      obtain ⟨events', after', hparse', hhanded'⟩ := hleaf (fun _ ↦ none) 0
      rw [AnswerTree.root, hparse', Option.some.injEq, Prod.mk.injEq, Prod.mk.injEq] at hparse
      rw [← hhanded', hparse.2.1, hhanded]
      rfl
    · intro heq stray fuel hfuel
      obtain ⟨less, rfl, -⟩ := exists_succ_of_le (show 0 + 1 ≤ fuel from hfuel)
      obtain ⟨events, after, hparse, hhanded⟩ := hleaf stray less
      exact ⟨events, after, hparse, hhanded.trans heq⟩
  | container tl messages =>
    constructor
    · intro hreports
      obtain ⟨events, after, hparse, -⟩ := hreports (fun _ ↦ none) _ le_rfl
      refine ⟨?_, ?_⟩
      · by_contra hpacked
        rw [AnswerTree.faults _ htree hpacked] at hparse
        cases hparse
      · by_contra hanswers
        obtain ⟨hid, found, hfound, -⟩ := htree
        rw [if_neg hanswers, AnswerTree.depth, AnswerTree.root, parseAnswer_container hid, hfound,
          Option.bind_some, Option.bind_eq_some_iff] at hparse
        obtain ⟨result, -, hparse⟩ := hparse
        cases hparse
    · rintro ⟨hfree, hanswers⟩ stray fuel hfuel
      obtain ⟨events, after, hparse, hhanded⟩ :=
        AnswerTree.silent stray _ htree hfree hanswers fuel hfuel state
      refine ⟨events, after, ?_, ?_⟩
      · rw [hparse, if_pos hanswers]
      · rw [hhanded, hanswers, handedUntil]
  | gzip tl inner =>
    refine iff_of_false (fun hreports ↦ ?_) fun hbare ↦ hbare.1
    obtain ⟨events, after, hparse, -⟩ := hreports (fun _ ↦ none) _ le_rfl
    rw [AnswerTree.faults _ htree not_false] at hparse
    cases hparse

end Tree

/-! ## An answer, and one inside a container -/

/-- A notice about the answer 12. -/
def noticeTl : TlObj :=
  .mk msgNewDetailedInfo.id (newDetailedInfoFormat 12 16 0) [.long 12, .int 16, .int 0]

/-- A container with this notice. -/
def wrappedNotice : AnswerTree :=
  .container (.mk msgContainer.id [] [.vector 1 [.message ⟨1, 1, 20, newDetailedInfoFormat 12 16 0⟩]])
    (.cons (.leaf noticeTl) .nil)

def countCalls : Callback ℕ := some fun count _ ↦ (0, count + 1)

theorem leafFields_notice : LeafFields noticeTl where
  container := by decide
  gzip := by decide
  result h := absurd h (by decide)
  detailedInfo h := absurd h (by decide)
  newDetailedInfo _ := rfl
  acks h := absurd h (by decide)

theorem notice_reported :
    Reports (fun _ ↦ false) (inflateOne [] []) .lp64 serviceTable 12 countCalls 0
      (.leaf noticeTl) :=
  (reports_iff_bare (.leaf noticeTl) leafFields_notice 0).mpr fun h ↦ absurd h (by decide)

/-- The value of the call for the notice is dropped. -/
theorem wrappedNotice_not_reported :
    ¬ Reports (fun _ ↦ false) (inflateOne [] []) .lp64 serviceTable 12 countCalls 0
      wrappedNotice := by
  have hdecodes : Decodes .lp64 serviceTable (newDetailedInfoFormat 12 16 0) (some noticeTl) :=
    decodes_newDetailedInfo hasService_serviceTable 12 16 0
  obtain ⟨cursor, hcursor⟩ := hdecodes
  have hmessages : messagesField wrappedNotice.root =
      some [⟨1, 1, 20, newDetailedInfoFormat 12 16 0⟩] := by decide +kernel
  have htree : wrappedNotice.WellFormed (fun _ ↦ false) (inflateOne [] []) .lp64 serviceTable :=
    ⟨rfl, _, hmessages, _, [], cursor, rfl, hcursor, leafFields_notice, rfl⟩
  rw [reports_iff_bare _ htree]
  exact fun hbare ↦ absurd hbare.2 (List.cons_ne_nil _ _)

end LibTg.Tg
