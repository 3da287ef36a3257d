import LibTg.Tg.MessageTree

/-!
# Wrapped and bare messages

A server may compress a message, put it into a container, or compress only the result of an answer.
`_tg_receive`, `handle_tl` and `catched_tl` each know other constructors, so that a message does not
always do the same in its wrapped form. This is when it does.
-/

namespace LibTg.Tg

open LibTg.Tl

/-- A message, or the result of an answer, with the way in which it is wrapped. -/
inductive Wrapping
  | gzip (message packed : Bytes)
  | container (message : Bytes) (msgId : UInt64) (seqno : UInt32)
  | answer (reqMsgId : UInt64) (result packed : Bytes)

def Wrapping.subject : Wrapping → Bytes
  | .gzip message _ => message
  | .container message _ _ => message
  | .answer _ result _ => result

/-- The message in its bare form. -/
def Wrapping.bare : Wrapping → Bytes
  | .gzip message _ => message
  | .container message _ _ => message
  | .answer reqMsgId result _ => resultFormat reqMsgId result

/-- The message in its wrapped form. -/
def Wrapping.wrapped : Wrapping → Bytes
  | .gzip _ packed => gzipFormat packed
  | .container message msgId seqno => containerFormat [⟨msgId, seqno, message⟩]
  | .answer reqMsgId _ packed => resultFormat reqMsgId (gzipFormat packed)

/-- The acks that are due to the wrapping alone. -/
def Wrapping.acks (model : DataModel) : Wrapping → List Event
  | .container _ msgId _ => [.addMsgid (ackedId model msgId)]
  | _ => []

/-- Compressed data expand to what they stand for, and both forms fit a buffer. -/
def Wrapping.Valid (gunzip : Bytes → Gunzipped) : Wrapping → Prop
  | .gzip message packed =>
    message.length + 1 < 2 ^ 32 ∧ packed.length < 2 ^ 24 ∧ Expands gunzip packed message
  | .container message msgId seqno => (containerFormat [⟨msgId, seqno, message⟩]).length + 1 < 2 ^ 32
  | .answer reqMsgId result packed =>
    (resultFormat reqMsgId result).length + 1 < 2 ^ 32 ∧ packed.length < 2 ^ 24 ∧
      Expands gunzip packed result

/-! ## Effects -/

/-- An event that changes something outside the function that reports it: a callback, a request
that is sent again, an ack, the time difference or an update. -/
def Event.isEffect : Event → Bool
  | .catchedTl _ _ => false
  | .stop _ => false
  | _ => true

section Received

variable (model : DataModel) (table : List Method) (gunzip : Bytes → Gunzipped)

/-- `_tg_receive` returns this for a message, with these effects and this list of queues. -/
def Received (own : ℕ) (msg slack : Bytes) (queues : List Queue)
    (outcome : Rtl × List Event × List Queue) : Prop :=
  ∃ fuel events, tgReceive model table gunzip own fuel msg slack queues =
    some (outcome.1, events, outcome.2.2) ∧ events.filter Event.isEffect = outcome.2.1

/-- Both forms have the same effects in every state, apart from the acks of the wrapping. -/
def Wrapping.Transparent (wrapping : Wrapping) : Prop :=
  ∀ own queues slack wrappedSlack, (wrapping.bare ++ slack).length < 2 ^ 32 →
    (wrapping.wrapped ++ wrappedSlack).length < 2 ^ 32 → ∀ rtl effects after,
      Received model table gunzip own wrapping.bare slack queues (rtl, effects, after) ↔
        Received model table gunzip own wrapping.wrapped wrappedSlack queues
          (rtl, wrapping.acks model ++ effects, after)

/-- An answer that `catched_tl` only hands on: no bad message, no error that sends the request
again, and no compressed object, unless it holds itself. -/
def HandedOn (tl : Option TlObj) : Prop :=
  ∀ answer ∈ tl, answer.id ≠ idBadMsgNotification ∧
    (answer.id = rpcError.id → ∃ error, rpcErrorText answer = some error ∧
      tgErrorGetNum error "MIGRATE_" = 0 ∧ tgErrorGetNum error "FLOOD_WAIT_" = 0) ∧
    (answer.id = gzipPacked.id → unpack model table gunzip answer = some (some answer))

/-- The objects for which a wrapping changes nothing. -/
def Wrapping.Harmless : Wrapping → Option TlObj → Prop
  | .answer _ _ _, tl => HandedOn model table gunzip tl
  | _, tl => ∃ inner, tl = some inner ∧ inner.id ≠ idBadServerSalt

end Received

section Transparent

variable {model : DataModel} {table : List Method} {gunzip : Bytes → Gunzipped} {own : ℕ}
  {queues : List Queue}

/-- `_tg_receive` of a message with a known decoding. -/
theorem tgReceive_of_decodes {msg slack : Bytes} {tl : Option TlObj} (fuel : ℕ)
    (hdecodes : Decodes model table msg tl) (hfits : (msg ++ slack).length < 2 ^ 32) :
    tgReceive model table gunzip own fuel msg slack queues =
      tl.bind fun inner ↦ if inner.id = idBadServerSalt then some (.resend, [], queues)
        else (handleTl model table gunzip own fuel (some inner) queues).map (Rtl.reread, ·) := by
  obtain ⟨cursor, hcursor⟩ := hdecodes.at_start slack hfits
  rw [tgReceive, hcursor, Option.bind_eq_bind, Option.bind_some]
  cases tl with
  | none => rfl
  | some inner =>
    dsimp only
    rw [Option.bind_some, Option.bind_eq_bind, Option.bind_some]
    split
    · rfl
    · cases handleTl model table gunzip own fuel (some inner) queues <;> rfl

theorem received_iff {msg slack : Bytes} {tl : TlObj} {rtl : Rtl} {effects : List Event}
    {after : List Queue} (hdecodes : Decodes model table msg (some tl))
    (hid : tl.id ≠ idBadServerSalt) (hfits : (msg ++ slack).length < 2 ^ 32) :
    Received model table gunzip own msg slack queues (rtl, effects, after) ↔
      rtl = .reread ∧ ∃ fuel events, handleTl model table gunzip own fuel (some tl) queues =
        some (events, after) ∧ events.filter Event.isEffect = effects := by
  simp only [Received, tgReceive_of_decodes _ hdecodes hfits, Option.bind_some, if_neg hid,
    Option.map_eq_some_iff, Prod.mk.injEq]
  constructor
  · rintro ⟨fuel, events, ⟨result, hresult, rfl, rfl⟩, hfilter⟩
    exact ⟨rfl, fuel, events, hresult, hfilter⟩
  · rintro ⟨rfl, fuel, events, hresult, hfilter⟩
    exact ⟨fuel, events, ⟨_, hresult, rfl, rfl⟩, hfilter⟩

/-- Inside another message a `NULL` and a `bad_server_salt` have no effect. -/
theorem handleTl_ignored {tl : Option TlObj} (h : ∀ inner ∈ tl, inner.id = idBadServerSalt)
    (fuel : ℕ) : handleTl model table gunzip own (fuel + 1) tl queues = some ([], queues) := by
  cases tl with
  | none => rfl
  | some inner =>
    have hid := h inner rfl
    have hne : ∀ id, id ≠ idBadServerSalt → ¬ inner.id = id := fun id hne heq ↦ hne (heq ▸ hid)
    have hupdates : inner.id ∉ updatesIds := by
      rw [hid]
      decide
    rw [handleTl, if_neg (hne _ (by decide)), if_neg (hne _ (by decide)),
      if_neg (hne _ (by decide)), if_neg (hne _ (by decide)), if_neg (hne _ (by decide)),
      if_neg (hne _ (by decide)), if_neg (hne _ (by decide)), if_neg hupdates]

/-- A message at the top that is not handed to `handle_tl` does not return `RTL_REREAD`. -/
theorem not_received_of_ignored {msg slack : Bytes} {tl : Option TlObj}
    (hdecodes : Decodes model table msg tl) (h : ∀ inner ∈ tl, inner.id = idBadServerSalt)
    (hfits : (msg ++ slack).length < 2 ^ 32) (effects : List Event) (after : List Queue) :
    ¬ Received model table gunzip own msg slack queues (.reread, effects, after) := by
  rintro ⟨fuel, events, hresult, -⟩
  rw [tgReceive_of_decodes fuel hdecodes hfits] at hresult
  cases tl with
  | none => cases hresult
  | some inner =>
    rw [Option.bind_some, if_pos (h inner rfl)] at hresult
    cases hresult

/-! ## A message inside another one -/

/-- `handle_tl` takes the object out of a `gzip_packed`. -/
theorem handleTl_packed {packed bytes : Bytes} {tl : Option TlObj}
    (hexpands : Expands gunzip packed bytes) (hdecodes : Decodes model table bytes tl) (fuel : ℕ) :
    handleTl model table gunzip own (fuel + 1)
        (some (.mk gzipPacked.id (gzipFormat packed) [.buf packed])) queues =
      handleTl model table gunzip own fuel tl queues := by
  obtain ⟨slack, hgunzip, hfits⟩ := hexpands
  obtain ⟨cursor, hcursor⟩ := hdecodes.at_start slack hfits
  have hread : tlDeserialize model table (gunzip packed).cursor = some (tl, cursor) := by
    rw [← hcursor, hgunzip]
    rfl
  have hfield : bufField (.mk gzipPacked.id (gzipFormat packed) [.buf packed]) 0 = some packed := rfl
  rw [handleTl_gzip rfl, hfield, Option.bind_some, hread, Option.bind_some]

/-- `handle_tl` takes the object out of a container and acknowledges its message. -/
theorem handleTl_contained {message : Message} {tl : Option TlObj}
    (hdecodes : Decodes model table message.body tl) (fuel : ℕ) :
    handleTl model table gunzip own (fuel + 1)
        (some (.mk msgContainer.id (containerFormat [message])
          [.vector (UInt32.ofNat [message].length)
            ([message].map fun message ↦ .message (message.decoded model))])) queues =
      (handleTl model table gunzip own fuel tl queues).map
        (Prod.map (.addMsgid (ackedId model message.msgId) :: ·) id) := by
  obtain ⟨cursor, hcursor⟩ := hdecodes
  rw [handleTl_container rfl, messagesField_container (Nat.le_of_ble_eq_true rfl), Option.bind_some,
    List.map_cons, handleMessages, decoded_body, hcursor, Option.bind_eq_bind, Option.bind_some]
  dsimp only
  cases handleTl model table gunzip own fuel tl queues with
  | none => rfl
  | some result =>
    rw [Option.bind_eq_bind, Option.bind_some, List.map_nil, handleMessages, Option.bind_some,
      List.append_nil]
    rfl

/-- If the wrapped form is handled as the bare one is, with the acks first, then the wrapping
changes nothing but what the top level makes of its own objects. -/
theorem transparent_iff_of_handled {wrapping : Wrapping} {outer : TlObj} {tl : Option TlObj}
    (hbare : Decodes model table wrapping.bare tl)
    (hwrapped : Decodes model table wrapping.wrapped (some outer))
    (houter : outer.id ≠ idBadServerSalt)
    (hfits : wrapping.bare.length < 2 ^ 32 ∧ wrapping.wrapped.length < 2 ^ 32)
    (hacks : (wrapping.acks model).filter Event.isEffect = wrapping.acks model)
    (hzero : ∀ own queues, handleTl model table gunzip own 0 (some outer) queues = none)
    (hhandled : ∀ own fuel queues,
      handleTl model table gunzip own (fuel + 1) (some outer) queues =
        (handleTl model table gunzip own fuel tl queues).map
          (Prod.map (wrapping.acks model ++ ·) id)) :
    wrapping.Transparent model table gunzip ↔ ∃ inner, tl = some inner ∧ inner.id ≠ idBadServerSalt := by
  constructor
  · intro htransparent
    by_contra hignored
    have hignored' : ∀ inner ∈ tl, inner.id = idBadServerSalt := by
      intro inner hinner
      by_contra hid
      exact hignored ⟨inner, hinner, hid⟩
    have hfitsBare : (wrapping.bare ++ []).length < 2 ^ 32 := by
      rw [List.append_nil]
      exact hfits.1
    have hfitsWrapped : (wrapping.wrapped ++ []).length < 2 ^ 32 := by
      rw [List.append_nil]
      exact hfits.2
    have hreceived : Received model table gunzip 0 wrapping.wrapped [] []
        (.reread, wrapping.acks model ++ [], []) := by
      rw [received_iff hwrapped houter hfitsWrapped]
      refine ⟨rfl, 2, wrapping.acks model ++ [], ?_, ?_⟩
      · rw [hhandled, handleTl_ignored hignored']
        rfl
      · rw [List.filter_append, hacks]
        rfl
    exact not_received_of_ignored hbare hignored' hfitsBare _ _
      ((htransparent 0 [] [] [] hfitsBare hfitsWrapped _ _ _).mpr hreceived)
  · rintro ⟨inner, rfl, hid⟩
    intro own queues slack wrappedSlack hslack hwrappedSlack rtl effects after
    rw [received_iff hbare hid hslack, received_iff hwrapped houter hwrappedSlack]
    refine and_congr_right fun _ ↦ ⟨?_, ?_⟩
    · rintro ⟨fuel, events, hevents, rfl⟩
      refine ⟨fuel + 1, wrapping.acks model ++ events, ?_, ?_⟩
      · rw [hhandled, hevents]
        rfl
      · rw [List.filter_append, hacks]
    · rintro ⟨fuel, events, hevents, hfilter⟩
      cases fuel with
      | zero =>
        rw [hzero] at hevents
        cases hevents
      | succ fuel =>
        rw [hhandled, Option.map_eq_some_iff] at hevents
        obtain ⟨⟨before, queuesAfter⟩, hbefore, hmap⟩ := hevents
        rw [Prod.map_apply, id_eq, Prod.mk.injEq] at hmap
        obtain ⟨rfl, rfl⟩ := hmap
        rw [List.filter_append, hacks] at hfilter
        exact ⟨fuel, before, hbefore, List.append_cancel_left hfilter⟩

theorem transparent_gzip_iff (htable : HasService table) {message packed : Bytes}
    {tl : Option TlObj} (hdecodes : Decodes model table message tl)
    (hvalid : (Wrapping.gzip message packed).Valid gunzip) :
    (Wrapping.gzip message packed).Transparent model table gunzip ↔
      ∃ inner, tl = some inner ∧ inner.id ≠ idBadServerSalt := by
  obtain ⟨hmessage, hpacked, hexpands⟩ := hvalid
  have hlength := length_tlBytes_le packed
  have hfits : (gzipFormat packed).length < 2 ^ 32 := by
    rw [gzipFormat, List.length_append, length_le32]
    omega
  have hid : gzipPacked.id ≠ idBadServerSalt := by decide
  refine transparent_iff_of_handled hdecodes (decodes_gzip htable hpacked) hid
    ⟨Nat.lt_of_succ_lt hmessage, hfits⟩ rfl (fun _ _ ↦ rfl) fun own fuel queues ↦ ?_
  rw [handleTl_packed hexpands hdecodes]
  exact Option.map_id'.symm

theorem transparent_container_iff (htable : HasService table) {message : Bytes} {msgId : UInt64}
    {seqno : UInt32} {tl : Option TlObj} (hdecodes : Decodes model table message tl)
    (hvalid : (Wrapping.container message msgId seqno).Valid gunzip) :
    (Wrapping.container message msgId seqno).Transparent model table gunzip ↔
      ∃ inner, tl = some inner ∧ inner.id ≠ idBadServerSalt := by
  have hlength : message.length ≤ (containerFormat [⟨msgId, seqno, message⟩]).length := by
    simp only [containerFormat, Message.format, List.flatMap_cons, List.length_append]
    omega
  have hfits : (containerFormat [⟨msgId, seqno, message⟩]).length + 1 < 2 ^ 32 := hvalid
  have hcount : [(⟨msgId, seqno, message⟩ : Message)].length ≤ 10000 := Nat.le_of_ble_eq_true rfl
  have hid : msgContainer.id ≠ idBadServerSalt := by decide
  exact transparent_iff_of_handled hdecodes
    (decodes_container htable hcount (List.forall_mem_nil _) hfits) hid
    ⟨hlength.trans_lt (Nat.lt_of_succ_lt hfits), Nat.lt_of_succ_lt hfits⟩ rfl (fun _ _ ↦ rfl)
    fun _ fuel _ ↦ handleTl_contained hdecodes fuel

/-! ## A compressed result -/

/-- `catched_tl` hands on what a compressed result holds. -/
theorem unpack_packed {packed bytes : Bytes} {tl : Option TlObj}
    (hexpands : Expands gunzip packed bytes) (hdecodes : Decodes model table bytes tl) :
    unpack model table gunzip (.mk gzipPacked.id (gzipFormat packed) [.buf packed]) = some tl := by
  obtain ⟨slack, hgunzip, hfits⟩ := hexpands
  obtain ⟨cursor, hcursor⟩ := hdecodes.at_start slack hfits
  have hread : tlDeserialize model table (gunzip packed).cursor = some (tl, cursor) := by
    rw [← hcursor, hgunzip]
    rfl
  have hok : (gunzip packed).ok = true := by rw [hgunzip]
  have hfield : bufField (.mk gzipPacked.id (gzipFormat packed) [.buf packed]) 0 = some packed := rfl
  rw [unpack, hfield, Option.bind_eq_bind, Option.bind_some]
  dsimp only
  rw [if_pos hok, hread, Option.map_some]

theorem filter_isEffect_done (queue : Queue) (tl : Option TlObj) :
    (queue.done tl).filter Event.isEffect = queue.done tl := by
  unfold Queue.done
  split <;> rfl

theorem filter_isEffect_done_stop (queue : Queue) (tl : Option TlObj) :
    (queue.done tl ++ [Event.stop queue.key]).filter Event.isEffect = queue.done tl := by
  rw [List.filter_append, filter_isEffect_done]
  exact List.append_nil _

/-- The effects of `catched_tl` for a queue in its loop. -/
def caughtEffects (model : DataModel) (table : List Method) (gunzip : Bytes → Gunzipped)
    (queue : Queue) (tl : TlObj) : Option (List Event) :=
  (caught model table gunzip queue tl).map (List.filter Event.isEffect)

/-- An object that is handed on reaches `on_done` as it is. -/
theorem caughtEffects_of_handedOn {tl : TlObj} (h : HandedOn model table gunzip (some tl))
    (queue : Queue) :
    caughtEffects model table gunzip queue tl = some (queue.done (some tl)) := by
  obtain ⟨hbad, herror, hgzip⟩ := h tl rfl
  have hdone := filter_isEffect_done_stop queue (some tl)
  unfold caughtEffects caught
  rw [if_neg hbad]
  split
  case isTrue hid => rw [hgzip hid, Option.map_some, Option.map_some, hdone]
  case isFalse =>
    split
    case isTrue hid =>
      obtain ⟨error, htext, hmigrate, hwait⟩ := herror hid
      have hrequeue : requeue queue.key error = some [] := by
        unfold requeue
        dsimp only
        rw [if_neg (not_not.mpr hmigrate), if_neg (not_not.mpr hwait)]
      have hnil : ¬ ([] : List Event).length > 0 := lt_irrefl 0
      rw [htext, Option.bind_eq_bind, Option.bind_some, hrequeue, Option.bind_eq_bind,
        Option.bind_some, if_neg hnil, Option.map_some, hdone]
    case isFalse => rw [Option.map_some, hdone]

/-- Only an error whose text names a data centre or a time is queued again. -/
theorem requeue_eq_nil_or {queue : ℕ} {error : List Char} {events : List Event}
    (h : requeue queue error = some events) :
    (events = [] ∧ tgErrorGetNum error "MIGRATE_" = 0 ∧ tgErrorGetNum error "FLOOD_WAIT_" = 0) ∨
      ∃ event, events = [event, .stop queue] ∧ ∀ tl, event ≠ .onDone queue tl := by
  unfold requeue at h
  dsimp only at h
  split at h
  · split at h
    · cases h
      exact .inr ⟨_, rfl, fun _ heq ↦ nomatch heq⟩
    · cases h
  case isFalse hmigrate =>
    split at h
    · cases h
      exact .inr ⟨_, rfl, fun _ heq ↦ nomatch heq⟩
    case isFalse hwait =>
      cases h
      exact .inl ⟨rfl, not_not.mp hmigrate, not_not.mp hwait⟩

/-- If an object reaches the `on_done` of a queue as it is, then it is handed on. -/
theorem handedOn_of_caughtEffects {tl : TlObj} {queue : Queue} (hqueue : queue.onDone = true)
    (h : caughtEffects model table gunzip queue tl = some (queue.done (some tl))) :
    HandedOn model table gunzip (some tl) := by
  have hdone (inner : Option TlObj) : queue.done inner = [.onDone queue.key inner] := if_pos hqueue
  unfold caughtEffects caught at h
  rintro answer ⟨⟩
  refine ⟨fun hid ↦ ?_, fun hid ↦ ?_, fun hid ↦ ?_⟩
  · have hne : ¬ tl.id = gzipPacked.id := by rw [hid]; decide
    rw [if_neg hne, if_pos hid, hdone, hdone, Option.map_some, Option.some.injEq] at h
    cases h
  · have hne : ¬ tl.id = gzipPacked.id := by rw [hid]; decide
    have hbad : ¬ tl.id = idBadMsgNotification := by rw [hid]; decide
    rw [if_neg hne, if_neg hbad, if_pos hid] at h
    cases htext : rpcErrorText tl with
    | none =>
      rw [htext] at h
      cases h
    | some error =>
      rw [htext, Option.bind_eq_bind, Option.bind_some] at h
      cases hrequeue : requeue queue.key error with
      | none =>
        rw [hrequeue] at h
        cases h
      | some events =>
        rw [hrequeue, Option.bind_eq_bind, Option.bind_some] at h
        rcases requeue_eq_nil_or hrequeue with ⟨-, hnumbers⟩ | ⟨event, rfl, hevent⟩
        · exact ⟨error, rfl, hnumbers⟩
        · have hcons : [event, Event.stop queue.key].length > 0 := Nat.succ_pos 1
          rw [if_pos hcons, Option.map_some, Option.some.injEq, hdone, List.filter_cons] at h
          split at h
          · exact absurd (List.cons.inj h).1 (hevent _)
          · cases h
  · rw [if_pos hid] at h
    cases hunpack : unpack model table gunzip tl with
    | none =>
      rw [hunpack] at h
      cases h
    | some inner =>
      rw [hunpack, Option.map_some, Option.map_some, filter_isEffect_done_stop, Option.some.injEq,
        hdone, hdone] at h
      cases h
      rfl

/-- What `catched_tl` does to an answer, in effects. -/
def catchedEffects (model : DataModel) (table : List Method) (gunzip : Bytes → Gunzipped)
    (queues : List Queue) (msgId : UInt64) (tl : Option TlObj) :
    Option (List Event × List Queue) :=
  (catchedTl model table gunzip queues msgId tl).map (Prod.map (List.filter Event.isEffect) id)

/-- An answer is received with the effects of `catched_tl`. -/
theorem received_result_iff (htable : HasService table) {reqMsgId : UInt64} {result slack : Bytes}
    {tl : Option TlObj} (hresult : Decodes model table result tl)
    (hfits : (resultFormat reqMsgId result).length + 1 < 2 ^ 32)
    (hslack : (resultFormat reqMsgId result ++ slack).length < 2 ^ 32) {rtl : Rtl}
    {effects : List Event} {after : List Queue} :
    Received model table gunzip own (resultFormat reqMsgId result) slack queues
        (rtl, effects, after) ↔
      rtl = .reread ∧ catchedEffects model table gunzip queues reqMsgId tl = some (effects, after) := by
  have hid : rpcResult.id ≠ idBadServerSalt := by decide
  rw [received_iff (decodes_result htable reqMsgId hresult hfits) hid hslack]
  refine and_congr_right fun _ ↦ ?_
  have hhandled (fuel : ℕ) : handleTl model table gunzip own (fuel + 1)
      (some (.mk rpcResult.id (resultFormat reqMsgId result) [.long reqMsgId, .object tl])) queues =
        callCatchedTl model table gunzip queues reqMsgId tl := handleTl_result rfl
  rw [catchedEffects, Option.map_eq_some_iff]
  constructor
  · rintro ⟨fuel, events, hevents, rfl⟩
    cases fuel with
    | zero => cases hevents
    | succ fuel =>
      rw [hhandled, callCatchedTl, Option.map_eq_some_iff] at hevents
      obtain ⟨inner, hinner, hmap⟩ := hevents
      refine ⟨inner, hinner, ?_⟩
      rw [Prod.map_apply', id_eq, Prod.mk.injEq] at hmap
      rw [← hmap.1, ← hmap.2]
      rfl
  · rintro ⟨inner, hinner, hmap⟩
    refine ⟨1, .catchedTl reqMsgId tl :: inner.1, ?_, ?_⟩
    · rw [hhandled, callCatchedTl, hinner, Option.map_some, ← (Prod.mk.inj hmap).2]
      rfl
    · exact (Prod.mk.inj hmap).1

/-- What `catched_tl` does when it only hands an object on. -/
def handedEffects (queues : List Queue) (msgId : UInt64) (tl : Option TlObj) :
    List Event × List Queue :=
  match listCut (fun queue : Queue ↦ queue.msgid = msgId) queues with
  | (none, rest) => ([], rest)
  | (some queue, rest) => (if queue.loop then queue.done tl else [], rest)

theorem catchedEffects_none (msgId : UInt64) :
    catchedEffects model table gunzip queues msgId none =
      some (handedEffects queues msgId none) := by
  unfold catchedEffects catchedTl handedEffects
  generalize listCut (fun queue : Queue ↦ queue.msgid = msgId) queues = cut
  obtain ⟨found, rest⟩ := cut
  cases found with
  | none => rfl
  | some queue =>
    dsimp only
    cases hloop : queue.loop with
    | false => rfl
    | true => exact congrArg (fun events ↦ some (events, rest)) (filter_isEffect_done queue none)

theorem catchedEffects_some {tl : TlObj} {final : Option TlObj} (msgId : UInt64)
    (h : ∀ queue, caughtEffects model table gunzip queue tl = some (queue.done final)) :
    catchedEffects model table gunzip queues msgId (some tl) =
      some (handedEffects queues msgId final) := by
  unfold catchedEffects catchedTl handedEffects
  generalize listCut (fun queue : Queue ↦ queue.msgid = msgId) queues = cut
  obtain ⟨found, rest⟩ := cut
  cases found with
  | none => rfl
  | some queue =>
    dsimp only
    cases hloop : queue.loop with
    | false => rfl
    | true =>
      obtain ⟨events, hevents, hfilter⟩ := Option.map_eq_some_iff.mp (h queue)
      rw [if_neg (not_not.mpr rfl), hevents, Option.map_some, Option.map_some, if_pos rfl, ← hfilter]
      rfl

theorem catchedEffects_of_handedOn {tl : Option TlObj} (h : HandedOn model table gunzip tl)
    (msgId : UInt64) :
    catchedEffects model table gunzip queues msgId tl = some (handedEffects queues msgId tl) := by
  cases tl with
  | none => exact catchedEffects_none msgId
  | some tl => exact catchedEffects_some msgId (caughtEffects_of_handedOn h)

/-- A queue that waits for an answer tells whether the answer is handed on. -/
theorem handedOn_of_catchedEffects {tl : Option TlObj} {msgId : UInt64}
    (h : catchedEffects model table gunzip [⟨0, msgId, true, true⟩] msgId tl =
      some ([.onDone 0 tl], [])) : HandedOn model table gunzip tl := by
  cases tl with
  | none => exact fun _ hanswer ↦ nomatch hanswer
  | some tl =>
    have hcut : listCut (fun queue : Queue ↦ queue.msgid = msgId) [⟨0, msgId, true, true⟩] =
        (some ⟨0, msgId, true, true⟩, []) := by
      simp [listCut]
    rw [catchedEffects, catchedTl, hcut] at h
    dsimp only at h
    rw [if_neg (not_not.mpr rfl), Option.map_map, Option.map_eq_some_iff] at h
    obtain ⟨events, hevents, hmap⟩ := h
    have hcaught : caughtEffects model table gunzip ⟨0, msgId, true, true⟩ tl =
        some [.onDone 0 (some tl)] := by
      rw [caughtEffects, hevents, Option.map_some]
      exact congrArg some (Prod.mk.inj hmap).1
    exact handedOn_of_caughtEffects rfl hcaught

theorem transparent_answer_iff (htable : HasService table) {reqMsgId : UInt64}
    {result packed : Bytes} {tl : Option TlObj} (hdecodes : Decodes model table result tl)
    (hvalid : (Wrapping.answer reqMsgId result packed).Valid gunzip) :
    (Wrapping.answer reqMsgId result packed).Transparent model table gunzip ↔
      HandedOn model table gunzip tl := by
  obtain ⟨hfits, hpacked, hexpands⟩ := hvalid
  have hlength := length_tlBytes_le packed
  have hfitsWrapped : (resultFormat reqMsgId (gzipFormat packed)).length + 1 < 2 ^ 32 := by
    simp only [resultFormat, gzipFormat, List.length_append, length_le32, length_le64]
    omega
  have hwrapped (queues : List Queue) : catchedEffects model table gunzip queues reqMsgId
      (some (.mk gzipPacked.id (gzipFormat packed) [.buf packed])) =
        some (handedEffects queues reqMsgId tl) := by
    refine catchedEffects_some reqMsgId fun queue ↦ ?_
    have hid : (TlObj.mk gzipPacked.id (gzipFormat packed) [.buf packed]).id = gzipPacked.id := rfl
    rw [caughtEffects, caught, if_pos hid, unpack_packed hexpands hdecodes, Option.map_some,
      Option.map_some, filter_isEffect_done_stop]
  have hiff (own : ℕ) (queues : List Queue) {slack wrappedSlack : Bytes}
      (hslack : (resultFormat reqMsgId result ++ slack).length < 2 ^ 32)
      (hwrappedSlack : (resultFormat reqMsgId (gzipFormat packed) ++ wrappedSlack).length < 2 ^ 32) :
      (∀ rtl effects after, Received model table gunzip own (resultFormat reqMsgId result) slack
          queues (rtl, effects, after) ↔
        Received model table gunzip own (resultFormat reqMsgId (gzipFormat packed)) wrappedSlack
          queues (rtl, effects, after)) ↔
      catchedEffects model table gunzip queues reqMsgId tl =
        some (handedEffects queues reqMsgId tl) := by
    simp only [received_result_iff htable hdecodes hfits hslack,
      received_result_iff htable (decodes_gzip htable hpacked) hfitsWrapped hwrappedSlack, hwrapped]
    constructor
    · intro hsame
      exact ((hsame .reread _ _).mpr ⟨rfl, rfl⟩).2
    · intro heq rtl effects after
      rw [heq]
  constructor
  · intro htransparent
    have hnil : ∀ bytes : Bytes, bytes.length + 1 < 2 ^ 32 → (bytes ++ []).length < 2 ^ 32 := by
      intro bytes hbytes
      rw [List.append_nil]
      exact Nat.lt_of_succ_lt hbytes
    have heq := (hiff 0 [⟨0, reqMsgId, true, true⟩] (hnil _ hfits) (hnil _ hfitsWrapped)).mp
      (htransparent 0 _ [] [] (hnil _ hfits) (hnil _ hfitsWrapped))
    refine handedOn_of_catchedEffects (heq.trans ?_)
    simp [handedEffects, listCut, Queue.done]
  · intro hhanded own queues slack wrappedSlack hslack hwrappedSlack
    exact (hiff own queues hslack hwrappedSlack).mpr (catchedEffects_of_handedOn hhanded reqMsgId)

/-- A wrapping is transparent for exactly the objects that it is harmless for. -/
theorem transparent_iff (htable : HasService table) (wrapping : Wrapping) {tl : Option TlObj}
    (hdecodes : Decodes model table wrapping.subject tl) (hvalid : wrapping.Valid gunzip) :
    wrapping.Transparent model table gunzip ↔ wrapping.Harmless model table gunzip tl := by
  cases wrapping with
  | gzip message packed => exact transparent_gzip_iff htable hdecodes hvalid
  | container message msgId seqno => exact transparent_container_iff htable hdecodes hvalid
  | answer reqMsgId result packed => exact transparent_answer_iff htable hdecodes hvalid

end Transparent

/-! ## A compressed update, and a bad salt in a container -/

theorem transparent_tooLong :
    (Wrapping.gzip (le32 updatesTooLong.id) packedTooLong).Transparent .lp64 serviceTable
      gunzipTooLong := by
  have hvalid : (Wrapping.gzip (le32 updatesTooLong.id) packedTooLong).Valid gunzipTooLong :=
    ⟨by decide, by decide, expands_tooLong⟩
  have hid : updatesTooLong.id ≠ idBadServerSalt := by decide
  exact (transparent_iff hasService_serviceTable (.gzip (le32 updatesTooLong.id) packedTooLong)
    (decodes_tooLong .lp64) hvalid).mpr ⟨_, rfl, hid⟩

def badServerSalt : Method where
  name := "bad_server_salt"
  id := idBadServerSalt
  args := [⟨"bad_msg_id", some "long", 0, 0⟩, ⟨"bad_msg_seqno", some "int", 0, 0⟩,
    ⟨"error_code", some "int", 0, 0⟩, ⟨"new_server_salt", some "long", 0, 0⟩]
  isMtproto := true

/-- The answer of a server to a message with an old salt. -/
def saltNotice : Bytes :=
  le32 badServerSalt.id ++ (le64 7301444403200000004 ++ (le32 1 ++ (le32 48 ++ le64 77)))

theorem decodes_saltNotice :
    ∃ inner, Decodes .lp64 (badServerSalt :: serviceTable) saltNotice (some inner) ∧
      inner.id = idBadServerSalt := by
  have hid : (tlDeserialize .lp64 (badServerSalt :: serviceTable) (cursorAt saltNotice [] 0)).bind
      (fun result ↦ result.1.map TlObj.id) = some idBadServerSalt := by decide +kernel
  obtain ⟨⟨tl, cursor⟩, hread, hinner⟩ := Option.bind_eq_some_iff.mp hid
  obtain ⟨inner, rfl, hinnerId⟩ := Option.map_eq_some_iff.mp hinner
  exact ⟨inner, ⟨cursor, hread⟩, hinnerId⟩

/-- In a container the request that the salt was wrong for is not sent again. -/
theorem not_transparent_saltNotice :
    ¬ (Wrapping.container saltNotice 7301444403200000005 3).Transparent .lp64
      (badServerSalt :: serviceTable) gunzipTooLong := by
  have htable : HasService (badServerSalt :: serviceTable) := by
    constructor <;> decide
  have hfits : (containerFormat [⟨7301444403200000005, 3, saltNotice⟩]).length + 1 < 2 ^ 32 := by
    decide +kernel
  obtain ⟨inner, hdecodes, hid⟩ := decodes_saltNotice
  rw [transparent_container_iff htable hdecodes hfits]
  rintro ⟨_, ⟨⟩, hne⟩
  exact hne hid

end LibTg.Tg
