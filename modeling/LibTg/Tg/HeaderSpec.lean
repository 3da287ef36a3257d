import LibTg.Tg.Header

/-!
# Layout of packets and of containers

The buffer programs of `header.c` and `ack.c` build these layouts, and `tg_deheader` and
`deserialize_mtp_message` read them back. A message inside a container keeps its length in a C
`int`, so reading it back needs bodies below `2 ^ 31` bytes; this is the only condition.
-/

namespace LibTg.Tg

open LibTg.Tl

/-- A message as it stands in a container. -/
structure Message where
  msgId : UInt64
  seqno : UInt32
  body : Bytes
  deriving DecidableEq

/-- `message msg_id:long seqno:int bytes:int body:Object`. -/
def Message.format (message : Message) : Bytes :=
  le64 message.msgId ++ (le32 message.seqno ++
    (le32 (UInt32.ofNat message.body.length) ++ message.body))

/-- The bytes of a `msg_container`. -/
def containerFormat (messages : List Message) : Bytes :=
  le32 idMsgContainer ++ (le32 (UInt32.ofNat messages.length) ++ messages.flatMap Message.format)

/-- The bytes of a `msgs_ack`. -/
def ackBody (ids : List UInt64) : Bytes :=
  le32 msgsAck.id ++ vectorFormat ids.length (ids.map le64)

/-- The bytes of an `rpc_drop_answer`. -/
def dropBody (id : UInt64) : Bytes := le32 rpcDropAnswer.id ++ le64 id

@[simp]
theorem length_format (message : Message) : message.format.length = 16 + message.body.length := by
  simp only [Message.format, List.length_append, length_le32, length_le64]
  omega

@[simp]
theorem length_dropBody (id : UInt64) : (dropBody id).length = 12 := by
  simp [dropBody]

theorem length_flatten_le64 (ids : List UInt64) :
    (ids.map le64).flatten.length = 8 * ids.length := by
  induction ids with
  | nil => rfl
  | cons id rest ih =>
    rw [List.map_cons, List.flatten_cons, List.length_append, length_le64, ih, List.length_cons]
    omega

@[simp]
theorem length_ackBody (ids : List UInt64) : (ackBody ids).length = 12 + 8 * ids.length := by
  simp only [ackBody, vectorFormat, List.length_append, length_le32, length_flatten_le64]
  omega

/-! ## The emitted encoders of the two service messages -/

section Service

variable (moves : ℕ → Bool)

theorem mapM_elemFormat_long (ids : List UInt64) :
    (ids.map CElem.u64).mapM (elemFormat "long") = some (ids.map le64) := by
  induction ids with
  | nil => rfl
  | cons id rest ih =>
    rw [List.map_cons, List.mapM_cons, ih]
    rfl

theorem valueFormat_ack (ids : List UInt64) :
    valueFormat true "Vector<long>" (.vec (ids.map .u64)) =
      some (vectorFormat ids.length (ids.map le64)) := by
  have hvector : vectorElem "Vector<long>" = some "long" := by decide
  have hvec : valueFormat true "Vector<long>" (.vec (ids.map .u64)) =
      ((ids.map CElem.u64).mapM (elemFormat "long")).map
        (vectorFormat (ids.map CElem.u64).length) := by
    simp only [valueFormat, hvector]
    rfl
  rw [hvec, mapM_elemFormat_long, Option.map_some, List.length_map]

theorem valueFormat_drop (id : UInt64) :
    valueFormat true "long" (.one (.u64 id)) = some (le64 id) := by
  have hvector : vectorElem "long" = none := by decide
  simp [valueFormat, hvector, CArg.toOne, elemFormat]

theorem tlMsgsAck_spec (ids : List UInt64) (hfits : (ackBody ids).length + 1 < 2 ^ 32) :
    ∃ buf, tlMethod moves msgsAck [.vec (ids.map .u64)] = some buf ∧ Holds buf (ackBody ids) := by
  have hlayout : ∀ words, emitted msgsAck words (msgsAck.args.zip [.vec (ids.map .u64)]) =
      ackBody ids := by
    intro words
    simp [emitted, msgsAck, argsLayout, Arg.isFlags, argBytes, valueFormat_ack, ackBody]
  have hlength := length_emitted msgsAck (fun _ ↦ 0) (msgsAck.args.zip [.vec (ids.map .u64)])
  rw [hlayout] at hlength
  have haccepts : ∀ pair ∈ msgsAck.args.zip [.vec (ids.map .u64)],
      Accepts msgsAck.isMtproto pair := by
    simp [msgsAck, Accepts, valueFormat_ack, CArg.toVec]
    rw [length_ackBody] at hfits
    omega
  obtain ⟨words, buf, hbuf, hholds, -⟩ :=
    tlMethod_spec moves msgsAck [.vec (ids.map .u64)] rfl (by decide) haccepts (by omega)
  exact ⟨buf, hbuf, hlayout words ▸ hholds⟩

theorem tlRpcDropAnswer_spec (id : UInt64) :
    ∃ buf, tlMethod moves rpcDropAnswer [.one (.u64 id)] = some buf ∧ Holds buf (dropBody id) := by
  have hlayout : ∀ words, emitted rpcDropAnswer words (rpcDropAnswer.args.zip [.one (.u64 id)]) =
      dropBody id := by
    intro words
    simp [emitted, rpcDropAnswer, argsLayout, Arg.isFlags, argBytes, valueFormat_drop, dropBody]
  have hlength := length_emitted rpcDropAnswer (fun _ ↦ 0)
    (rpcDropAnswer.args.zip [.one (.u64 id)])
  rw [hlayout, length_dropBody] at hlength
  have haccepts : ∀ pair ∈ rpcDropAnswer.args.zip [.one (.u64 id)],
      Accepts rpcDropAnswer.isMtproto pair := by
    simp [rpcDropAnswer, Accepts, valueFormat_drop, CArg.toVec]
  obtain ⟨words, buf, hbuf, hholds, -⟩ :=
    tlMethod_spec moves rpcDropAnswer [.one (.u64 id)] rfl (by decide) haccepts (by omega)
  exact ⟨buf, hbuf, hlayout words ▸ hholds⟩

end Service

/-! ## Building a packet -/

section Build

variable (moves : ℕ → Bool) (clock : ℕ → Timespec)

/-- Two sessions that differ at most in their numbering and their pending drops. -/
structure SameKeys (before after : Session) : Prop where
  salt : after.salt = before.salt
  ssid : after.ssid = before.ssid
  msgids : after.msgids = before.msgids
  timediff : after.timediff = before.timediff

theorem SameKeys.trans {first second third : Session} (h : SameKeys first second)
    (hnext : SameKeys second third) : SameKeys first third where
  salt := hnext.salt.trans h.salt
  ssid := hnext.ssid.trans h.ssid
  msgids := hnext.msgids.trans h.msgids
  timediff := hnext.timediff.trans h.timediff

/-- `tg_mtp_message` builds one message, with an id from the clock. -/
theorem tgMtpMessage_spec (tg : Session) (payload : Bytes) (content : Bool)
    (hfits : 16 + payload.length + 1 < 2 ^ 32) :
    ∃ (buf : Buf) (message : Message) (after : Session), tgMtpMessage moves clock tg payload content =
        some (buf, message.msgId, after) ∧
      Holds buf message.format ∧ message.body = payload ∧
      message.msgId = msgIdAt (clock tg.ticks) tg.timediff ∧
      SameKeys tg after ∧ after.todrop = tg.todrop := by
  obtain ⟨first, hfirst, hholdsFirst, -⟩ := bufCat_spec moves holds_bufNew
    (le64 (msgIdAt (clock tg.ticks) tg.timediff)) (by simp)
  obtain ⟨second, hsecond, hholdsSecond, -⟩ := bufCat_spec moves hholdsFirst
    (le32 (UInt32.ofInt (nextSeqno tg.seqn content).1)) (by simp)
  obtain ⟨third, hthird, hholdsThird, -⟩ := bufCat_spec moves hholdsSecond
    (le32 (UInt32.ofNat payload.length)) (by simp)
  obtain ⟨last, hlast, hholds, -⟩ := bufCat_spec moves hholdsThird payload (by
    simp only [List.length_append, length_le32, length_le64, List.length_nil]
    omega)
  refine ⟨last, ⟨msgIdAt (clock tg.ticks) tg.timediff,
      UInt32.ofInt (nextSeqno tg.seqn content).1, payload⟩,
    { tg with ticks := tg.ticks + 1, seqn := (nextSeqno tg.seqn content).2 }, ?_, ?_, rfl, rfl,
    ⟨rfl, rfl, rfl, rfl⟩, rfl⟩
  · simp [tgMtpMessage, tgGetCurrentTime, takeSeqno, hfirst, hsecond, hthird, hlast]
  · simpa only [Message.format, List.nil_append, List.append_assoc] using hholds

/-- The loop of `tg_to_drop` appends one message for each id. -/
theorem dropLoop_spec (ids : List UInt64) (tg : Session) {buf : Buf} {bytes : Bytes}
    (h : Holds buf bytes) (hfits : bytes.length + 28 * ids.length + 1 < 2 ^ 32) :
    ∃ (result : Buf) (messages : List Message) (after : Session),
      dropLoop moves clock tg buf ids = some (result, after) ∧
      Holds result (bytes ++ messages.flatMap Message.format) ∧
      messages.map Message.body = ids.map dropBody ∧ SameKeys tg after := by
  induction ids generalizing tg buf bytes with
  | nil => exact ⟨buf, [], tg, rfl, by simpa using h, rfl, ⟨rfl, rfl, rfl, rfl⟩⟩
  | cons id rest ih =>
    rw [List.length_cons] at hfits
    obtain ⟨drop, hdrop, hholdsDrop⟩ := tlRpcDropAnswer_spec moves id
    obtain ⟨msg, message, middle, hmsg, hholdsMsg, hbody, -, hsame, -⟩ :=
      tgMtpMessage_spec moves clock tg (dropBody id) true (by simp)
    have hlength : message.format.length = 28 := by rw [length_format, hbody, length_dropBody]
    obtain ⟨next, hnext, hholdsNext, -⟩ := bufCat_spec moves h message.format (by omega)
    obtain ⟨result, messages, after, hrun, hholds, hbodies, hsameRest⟩ := ih middle hholdsNext (by
      rw [List.length_append, hlength]
      omega)
    refine ⟨result, message :: messages, after, ?_, ?_, ?_, hsame.trans hsameRest⟩
    · simp [dropLoop, hdrop, hholdsDrop.bytes_eq, hmsg, hholdsMsg.bytes_eq, hnext, hrun]
    · simpa only [List.flatMap_cons, List.append_assoc] using hholds
    · rw [List.map_cons, List.map_cons, hbody, hbodies]

/-- `tg_to_drop` on an empty buffer: one message for each pending id, which are then forgotten. -/
theorem tgToDrop_spec (tg : Session) (hfits : 28 * tg.todrop.length + 1 < 2 ^ 32) :
    ∃ (result : Buf) (messages : List Message) (after : Session),
      tgToDrop moves clock tg bufNew = some (result, tg.todrop.length, after) ∧
      Holds result (messages.flatMap Message.format) ∧
      messages.map Message.body = tg.todrop.map dropBody ∧ SameKeys tg after ∧
      after.todrop = [] := by
  by_cases hempty : tg.todrop.length < 1
  · have hnil : tg.todrop = [] := List.length_eq_zero_iff.mp (by omega)
    refine ⟨bufNew, [], tg, ?_, holds_bufNew, by rw [hnil]; rfl, ⟨rfl, rfl, rfl, rfl⟩, hnil⟩
    rw [tgToDrop, if_pos hempty, hnil, List.length_nil]
  · obtain ⟨result, messages, after, hrun, hholds, hbodies, hsame⟩ :=
      dropLoop_spec moves clock tg.todrop tg holds_bufNew (by
        rw [List.length_nil]
        omega)
    refine ⟨result, messages, { after with todrop := [] }, ?_, by simpa using hholds, hbodies,
      ⟨hsame.salt, hsame.ssid, hsame.msgids, hsame.timediff⟩, rfl⟩
    rw [tgToDrop, if_neg hempty, hrun]
    rfl

theorem length_flatMap_drops {drops : List Message} {ids : List UInt64}
    (h : drops.map Message.body = ids.map dropBody) :
    (drops.flatMap Message.format).length = 28 * ids.length := by
  induction drops generalizing ids with
  | nil =>
    have hnil : ids = [] := List.map_eq_nil_iff.mp h.symm
    rw [hnil]
    rfl
  | cons message rest ih =>
    cases ids with
    | nil => cases h
    | cons id ids =>
      rw [List.map_cons, List.map_cons, List.cons.injEq] at h
      rw [List.flatMap_cons, List.length_append, length_format, h.1, length_dropBody, ih h.2,
        List.length_cons]
      omega

/-- The number of bytes of the payload of a packet. -/
def payloadLength (tg : Session) (query : Bytes) : ℕ :=
  if tg.msgids = [] then query.length
  else 52 + query.length + 8 * tg.msgids.length + 28 * tg.todrop.length

/-- Without pending acknowledgements the payload is the query. -/
theorem tgPayload_of_nil (tg : Session) (query : Bytes) (content : Bool) (hnil : tg.msgids = [])
    (hfits : query.length + 1 < 2 ^ 32) :
    ∃ buf, tgPayload moves clock tg query content = some (buf, 0, content, tg) ∧
      Holds buf query := by
  obtain ⟨buf, hbuf, hholds, -⟩ := bufCat_spec moves holds_bufNew query (by
    rw [List.length_nil]
    omega)
  refine ⟨buf, ?_, by simpa using hholds⟩
  have hack : tgAck moves tg = some (bufNew, tg) := by
    rw [tgAck, hnil]
    rfl
  rw [tgPayload, hack, Option.bind_eq_bind, Option.bind_some]
  dsimp only
  rw [if_neg (by decide), hbuf]
  rfl

/-- With pending acknowledgements the payload is a container of the query, a `msgs_ack` of all of
them and an `rpc_drop_answer` for each pending drop. -/
theorem tgPayload_of_ne_nil (tg : Session) (query : Bytes) (content : Bool)
    (hne : tg.msgids ≠ []) (hfits : payloadLength tg query + 1 < 2 ^ 32) :
    ∃ (buf : Buf) (first second : Message) (drops : List Message) (after : Session),
      tgPayload moves clock tg query content = some (buf, first.msgId, false, after) ∧
      Holds buf (containerFormat (first :: second :: drops)) ∧
      first.body = query ∧ second.body = ackBody tg.msgids ∧
      drops.map Message.body = tg.todrop.map dropBody ∧
      first.msgId = msgIdAt (clock tg.ticks) tg.timediff ∧
      after.salt = tg.salt ∧ after.ssid = tg.ssid ∧ after.msgids = [] ∧ after.todrop = [] ∧
      after.timediff = tg.timediff := by
  rw [payloadLength, if_neg hne] at hfits
  obtain ⟨ack, hack, hholdsAck⟩ := tlMsgsAck_spec moves tg.msgids (by
    rw [length_ackBody]
    omega)
  have htgAck : tgAck moves tg = some (ack, { tg with msgids := [] }) := by
    have hlength : ¬ tg.msgids.length < 1 := by
      rw [Nat.lt_one_iff, List.length_eq_zero_iff]
      exact hne
    rw [tgAck, if_neg hlength, hack]
    rfl
  have hsize : ack.size > 0 := by
    rw [hholdsAck.size_eq, length_ackBody]
    omega
  obtain ⟨firstBuf, first, middle, hfirst, hholdsFirst, hfirstBody, hfirstId, hsameFirst,
    htodropFirst⟩ := tgMtpMessage_spec moves clock { tg with msgids := [] } query true (by omega)
  obtain ⟨secondBuf, second, later, hsecond, hholdsSecond, hsecondBody, -, hsameSecond,
    htodropSecond⟩ := tgMtpMessage_spec moves clock middle (ackBody tg.msgids) false (by
    rw [length_ackBody]
    omega)
  have htodrop : later.todrop = tg.todrop := htodropSecond.trans htodropFirst
  obtain ⟨dropsBuf, drops, after, hdrops, hholdsDrops, hdropsBodies, hsameDrops, hafter⟩ :=
    tgToDrop_spec moves clock later (by rw [htodrop]; omega)
  rw [htodrop] at hdrops hdropsBodies
  have hkeys := (hsameFirst.trans hsameSecond).trans hsameDrops
  have hcount : (first :: second :: drops).length = 2 + tg.todrop.length := by
    have hlength := congrArg List.length hdropsBodies
    rw [List.length_map, List.length_map] at hlength
    rw [List.length_cons, List.length_cons, hlength]
    omega
  have hdropsLength := length_flatMap_drops hdropsBodies
  obtain ⟨start, hstart, hholdsStart⟩ := bufAdd_spec moves (le32 idMsgContainer) (by simp)
  obtain ⟨buf, hbuf, hholds, -⟩ := bufCatAll_spec moves
    [le32 (UInt32.ofNat (2 + tg.todrop.length)), first.format, second.format,
      drops.flatMap Message.format] hholdsStart (by
      simp only [List.flatten_cons, List.flatten_nil, List.length_append, List.length_nil,
        length_le32, length_format, hfirstBody, hsecondBody, length_ackBody, hdropsLength]
      omega)
  simp only [bufCatAll, List.foldlM_cons, List.foldlM_nil, Option.bind_eq_bind, Option.pure_def,
    Option.bind_eq_some_iff, Option.some.injEq] at hbuf
  obtain ⟨counted, hcounted, withFirst, hwithFirst, withSecond, hwithSecond, last, hlast, rfl⟩ :=
    hbuf
  refine ⟨last, first, second, drops, after, ?_, ?_, hfirstBody, hsecondBody, hdropsBodies,
    hfirstId, hkeys.salt, hkeys.ssid, hkeys.msgids, hafter, hkeys.timediff⟩
  · rw [tgPayload, htgAck]
    simp only [Option.bind_eq_bind, Option.bind_some, if_pos hsize, hholdsAck.bytes_eq, hfirst,
      hsecond, hstart, hdrops, hholdsFirst.bytes_eq, hholdsSecond.bytes_eq, hholdsDrops.bytes_eq,
      hcounted, hwithFirst, hwithSecond, hlast]
  · rw [containerFormat, hcount, List.flatMap_cons, List.flatMap_cons]
    simpa only [List.flatten_cons, List.flatten_nil, List.append_nil] using hholds

/-- The bytes of an encrypted packet before encryption. -/
def packetFormat (salt ssid : Bytes) (outer : UInt64) (seqno : UInt32) (payload padding : Bytes) :
    Bytes :=
  salt ++ (ssid ++ (le64 outer ++ (le32 seqno ++
    (le32 (UInt32.ofNat payload.length) ++ (payload ++ padding)))))

theorem length_packetFormat {salt ssid : Bytes} (hsalt : salt.length = 8) (hssid : ssid.length = 8)
    (outer : UInt64) (seqno : UInt32) (payload padding : Bytes) :
    (packetFormat salt ssid outer seqno payload padding).length =
      32 + payload.length + padding.length := by
  simp only [packetFormat, List.length_append, length_le32, length_le64, hsalt, hssid]
  omega

variable (rand : ℕ → UInt8)

/-- The second half of `tg_header`, for a payload that has been built. -/
theorem tgHeader_of_tgPayload {tg middle : Session} {query payload : Bytes}
    {content content' : Bool} {buf : Buf} {msgid : UInt64} (before : UInt64)
    (hpayload : tgPayload moves clock tg query content = some (buf, msgid, content', middle))
    (hholds : Holds buf payload) (hsalt : middle.salt.length = 8) (hssid : middle.ssid.length = 8)
    (hfits : 32 + payload.length + (16 + (16 - payload.length % 16) % 16) + 1 < 2 ^ 32) :
    ∃ (packet : Buf) (seqno : UInt32) (after : Session),
      tgHeader moves clock rand tg query true content before =
        some (packet, if msgid = 0 then msgIdAt (clock middle.ticks) middle.timediff else msgid,
          after) ∧
      Holds packet (packetFormat middle.salt middle.ssid
        (msgIdAt (clock middle.ticks) middle.timediff) seqno payload
        (bufRand rand (16 + (16 - payload.length % 16) % 16))) ∧
      after.msgids = middle.msgids ∧ after.todrop = middle.todrop := by
  have hsize := hholds.size_eq
  have hrand : ∀ count, (bufRand rand count).length = count := by simp [bufRand]
  obtain ⟨packet, hpacket, hholdsPacket, -⟩ := bufCatAll_spec moves
    [middle.salt, middle.ssid, le64 (msgIdAt (clock middle.ticks) middle.timediff),
      le32 (UInt32.ofInt (nextSeqno middle.seqn content').1),
      le32 (UInt32.ofNat payload.length), payload,
      bufRand rand (16 + (16 - payload.length % 16) % 16)] holds_bufNew (by
      simp only [List.flatten_cons, List.flatten_nil, List.length_append, List.length_nil,
        length_le32, length_le64, hsalt, hssid, hrand]
      omega)
  refine ⟨packet, UInt32.ofInt (nextSeqno middle.seqn content').1,
    { middle with ticks := middle.ticks + 1, seqn := (nextSeqno middle.seqn content').2 }, ?_, ?_,
    rfl, rfl⟩
  · simp only [bufCatAll, List.foldlM_cons, List.foldlM_nil, Option.bind_eq_bind, Option.pure_def,
      Option.bind_eq_some_iff, Option.some.injEq] at hpacket
    obtain ⟨one, hone, two, htwo, three, hthree, four, hfour, five, hfive, six, hsix, last, hlast,
      rfl⟩ := hpacket
    rw [tgHeader, if_pos rfl, hpayload]
    simp only [Option.bind_eq_bind, Option.bind_some, tgGetCurrentTime, takeSeqno, hsize,
      hholds.bytes_eq, hone, htwo, hthree, hfour, hfive, hsix, hlast]
  · simpa only [packetFormat, List.flatten_cons, List.flatten_nil, List.append_nil,
      List.nil_append] using hholdsPacket

end Build

/-! ## Taking a packet apart -/

section Read

variable (moves : ℕ → Bool) (model : DataModel)

/-- `tg_deheader` returns the payload, whatever the state of the receiver. -/
theorem tgDeheader_packetFormat (receiver : Session) {packet : Buf} {salt ssid payload padding : Bytes}
    {outer : UInt64} {seqno : UInt32}
    (hholds : Holds packet (packetFormat salt ssid outer seqno payload padding))
    (hsalt : salt.length = 8) (hssid : ssid.length = 8)
    (hfits : 32 + payload.length + padding.length + 1 < 2 ^ 32) :
    ∃ d later, tgDeheader moves model receiver packet true = some (d, later) ∧
      d.bytes = payload := by
  have hlength := length_packetFormat hsalt hssid outer seqno payload padding
  have hsize := hholds.size_eq
  obtain ⟨slack, hmem⟩ := hholds.exists_slack
  have hcursor : bufCursor packet =
      cursorAt (packetFormat salt ssid outer seqno payload padding) slack 0 := by
    rw [bufCursor, cursorAt, hmem, hsize, Nat.sub_zero]
    rfl
  generalize hdata : packetFormat salt ssid outer seqno payload padding = data at *
  have hdrop : data.drop 0 = le64 (getUi64 salt) ++ (le64 (getUi64 ssid) ++ (le64 outer ++
      (le32 seqno ++ (le32 (UInt32.ofNat payload.length) ++ (payload ++ padding))))) := by
    rw [le64_getUi64 salt hsalt, le64_getUi64 ssid hssid, List.drop_zero, ← hdata, packetFormat]
  have hdropSsid := drop_add_of_drop_eq hdrop
  have hdropOuter := drop_add_of_drop_eq hdropSsid
  have hdropSeqno := drop_add_of_drop_eq hdropOuter
  have hdropLen := drop_add_of_drop_eq hdropSeqno
  have hdropPayload := drop_add_of_drop_eq hdropLen
  simp only [length_le64, Nat.reduceAdd] at hdropSsid hdropOuter hdropSeqno
  simp only [length_le64, length_le32, Nat.reduceAdd] at hdropLen hdropPayload
  have hread : (cursorAt data slack 32).read payload.length = some payload :=
    read_cursorAt hdropPayload (by omega)
  have htoNat : (UInt32.ofNat payload.length).toNat = payload.length := by
    rw [UInt32.toNat_ofNat']
    omega
  obtain ⟨d, hd, hholdsD, -⟩ := bufCat_spec moves holds_bufNew payload (by
    rw [List.length_nil]
    omega)
  refine ⟨d, tgAddMsgid { receiver with salt := le64 (getUi64 salt) } outer, ?_,
    by simpa using hholdsD.bytes_eq⟩
  have hone : deserializeUi64 model (cursorAt data slack 0) =
      some (getUi64 salt, cursorAt data slack 8) :=
    deserializeUi64_spec (by omega) (by omega) hdrop
  have htwo : deserializeUi64 model (cursorAt data slack 8) =
      some (getUi64 ssid, cursorAt data slack 16) :=
    deserializeUi64_spec (by omega) (by omega) hdropSsid
  have hthree : deserializeUi64 model (cursorAt data slack 16) =
      some (outer, cursorAt data slack 24) :=
    deserializeUi64_spec (by omega) (by omega) hdropOuter
  have hfour : deserializeUi32 model (cursorAt data slack 24) =
      some (seqno, cursorAt data slack 28) :=
    deserializeUi32_spec (by omega) (by omega) hdropSeqno
  have hfive : deserializeUi32 model (cursorAt data slack 28) =
      some (UInt32.ofNat payload.length, cursorAt data slack 32) :=
    deserializeUi32_spec (by omega) (by omega) hdropLen
  rw [tgDeheader, if_neg (by omega), if_pos rfl, hcursor]
  simp only [Option.bind_eq_bind, Option.bind_some, hone, htwo, hthree, hfour, hfive, htoNat,
    hread, hd]

/-- What `deserialize_mtp_message` makes of a message. -/
def Message.decoded (message : Message) : MtpMessage where
  msgId := longOfUi64 model message.msgId
  seqno := intOfUi32 message.seqno
  bytes := intOfUi32 (UInt32.ofNat message.body.length)
  body := message.body

theorem decoded_bytes (message : Message) :
    (message.decoded model).bytes = intOfUi32 (UInt32.ofNat message.body.length) := by
  rw [Message.decoded]

theorem decoded_body (message : Message) : (message.decoded model).body = message.body := rfl

variable {model} {data slack rest : Bytes} {pos : ℕ}

/-- A message is read back with its body. The cursor ends behind the message if the length of the
body is not negative as an `int`. -/
theorem deserializeMtpMessage_spec {message : Message}
    (hdrop : data.drop pos = message.format ++ rest) (hpos : pos ≤ data.length)
    (hfits : data.length + 1 < 2 ^ 32) :
    ∃ cursor, deserializeMtpMessage model (cursorAt data slack pos) =
        some (message.decoded model, cursor) ∧
      (message.body.length < 2 ^ 31 → cursor = cursorAt data slack (pos + message.format.length)) := by
  have hle := add_le_length_of_drop_eq hdrop hpos
  rw [length_format] at hle
  rw [Message.format, List.append_assoc, List.append_assoc, List.append_assoc] at hdrop
  have hdropSeqno := drop_add_of_drop_eq hdrop
  have hdropLen := drop_add_of_drop_eq hdropSeqno
  have hdropBody := drop_add_of_drop_eq hdropLen
  simp only [length_le64, length_le32] at hdropSeqno hdropLen hdropBody
  have htoNat : (UInt32.ofNat message.body.length).toNat = message.body.length := by
    rw [UInt32.toNat_ofNat']
    omega
  have hcopy : (cursorAt data slack (pos + 8 + 4 + 4)).addBuf message.body.length =
      some message.body := addBuf_cursorAt hdropBody (by omega) hfits
  have hbuf : deserializeBuf model (cursorAt data slack (pos + 8 + 4 + 4))
      (intOfUi32 (UInt32.ofNat message.body.length)) =
      some (message.body, (cursorAt data slack (pos + 8 + 4 + 4)).advance model
        (intOfUi32 (UInt32.ofNat message.body.length))) := by
    rw [deserializeBuf, ofInt_intOfUi32, htoNat, hcopy, Option.bind_eq_bind, Option.bind_some]
  refine ⟨(cursorAt data slack (pos + 8 + 4 + 4)).advance model
    (intOfUi32 (UInt32.ofNat message.body.length)), ?_, ?_⟩
  · rw [deserializeMtpMessage, deserializeUi64_spec hpos hfits hdrop, Option.bind_eq_bind,
      Option.bind_some]
    dsimp only
    rw [deserializeUi32_spec (by omega) hfits hdropSeqno, Option.bind_eq_bind, Option.bind_some]
    dsimp only
    rw [deserializeUi32_spec (by omega) hfits hdropLen, Option.bind_some]
    dsimp only
    rw [hbuf, Option.bind_eq_bind, Option.bind_some, Message.decoded]
  · intro hsmall
    have hend : pos + 8 + 4 + 4 + message.body.length = pos + (16 + message.body.length) := by
      omega
    rw [intOfUi32_of_lt (by omega), htoNat, advance_cursorAt _ (by omega) hfits, length_format,
      hend]

/-- Messages with bodies below `2 ^ 31` bytes are all read back, and nothing else is. -/
theorem deserializeMtpMessages_spec {messages : List Message}
    (hdrop : data.drop pos = messages.flatMap Message.format ++ rest) (hpos : pos ≤ data.length)
    (hfits : data.length + 1 < 2 ^ 32)
    (hsmall : ∀ message ∈ messages, message.body.length < 2 ^ 31) :
    deserializeMtpMessages model messages.length (cursorAt data slack pos) =
      some (messages.map (Message.decoded model),
        cursorAt data slack (pos + (messages.flatMap Message.format).length)) := by
  induction messages generalizing pos with
  | nil => rfl
  | cons message later ih =>
    rw [List.flatMap_cons, List.append_assoc] at hdrop
    obtain ⟨cursor, hfirst, hcursor⟩ :
        ∃ cursor, deserializeMtpMessage model (cursorAt data slack pos) = _ ∧ _ :=
      deserializeMtpMessage_spec hdrop hpos hfits
    have hrest := ih (drop_add_of_drop_eq hdrop) (add_le_length_of_drop_eq hdrop hpos)
      fun other hmem ↦ hsmall other (List.mem_cons_of_mem _ hmem)
    rw [List.length_cons, deserializeMtpMessages, hfirst, Option.bind_eq_bind, Option.bind_some]
    dsimp only
    rw [hcursor (hsmall message List.mem_cons_self), hrest, Option.bind_eq_bind, Option.bind_some,
      List.map_cons, List.flatMap_cons, List.length_append, Nat.add_assoc]

end Read

/-! ## The header and its inverse -/

/-- The payload is a container with a count of `2 + |D|` whose first message has the id `msgid`,
and it decodes to exactly the query, one `msgs_ack` and one `rpc_drop_answer` for each element of
`D`, each with its length. -/
structure ContainerCorrect (model : DataModel) (tg : Session) (query : Bytes) (msgid : UInt64)
    (payload : Bytes) : Prop where
  layout : ∃ rest, payload = le32 idMsgContainer ++
    (le32 (UInt32.ofNat (2 + tg.todrop.length)) ++ (le64 msgid ++ rest))
  decodes : ∀ slack, ∃ messages,
    deserializeMtpMessages model (2 + tg.todrop.length) (cursorAt payload slack 8) =
      some (messages, cursorAt payload slack payload.length) ∧
    messages.map MtpMessage.body = query :: ackBody tg.msgids :: tg.todrop.map dropBody ∧
    ∀ message ∈ messages, message.bytes = message.body.length

/-- What `tg_header` returns, what `tg_deheader` makes of it and what is left pending. -/
def HeaderCorrect (moves : ℕ → Bool) (clock : ℕ → Timespec) (rand : ℕ → UInt8) (model : DataModel)
    (tg : Session) (query : Bytes) (content : Bool) (before : UInt64) : Prop :=
  ∃ packet msgid after outer seqno payload padding,
    tgHeader moves clock rand tg query true content before = some (packet, msgid, after) ∧
    packet.bytes = packetFormat tg.salt tg.ssid outer seqno payload padding ∧
    16 ≤ padding.length ∧ padding.length ≤ 31 ∧ (payload.length + padding.length) % 16 = 0 ∧
    (∀ receiver, ∃ d later, tgDeheader moves model receiver packet true = some (d, later) ∧
      d.bytes = payload) ∧
    (tg.msgids = [] → payload = query ∧ after.todrop = tg.todrop ∧ msgid = outer) ∧
    (tg.msgids ≠ [] → after.msgids = [] ∧ after.todrop = [] ∧
      ContainerCorrect model tg query msgid payload)

def packetLength (tg : Session) (query : Bytes) : ℕ :=
  32 + payloadLength tg query + (16 + (16 - payloadLength tg query % 16) % 16)

section Correct

variable {model : DataModel}

/-- A length is read back from an `int` exactly if it is below `2 ^ 31`. -/
theorem intOfUi32_ofNat_eq_iff {length : ℕ} (h : length < 2 ^ 32) :
    intOfUi32 (UInt32.ofNat length) = length ↔ length < 2 ^ 31 := by
  have htoNat : (UInt32.ofNat length).toNat = length := by
    rw [UInt32.toNat_ofNat']
    exact Nat.mod_eq_of_lt h
  constructor
  · intro heq
    by_contra hlarge
    have hrange := two_mul_intOfUi32_lt (UInt32.ofNat length)
    omega
  · intro hsmall
    rw [intOfUi32_of_lt (by omega), htoNat]

theorem length_containerFormat (messages : List Message) :
    (containerFormat messages).length = 8 + (messages.flatMap Message.format).length := by
  simp only [containerFormat, List.length_append, length_le32]
  omega

theorem drop_containerFormat (messages : List Message) :
    (containerFormat messages).drop 8 = messages.flatMap Message.format := by
  rw [containerFormat, ← List.append_assoc]
  exact List.drop_left' (by simp)

/-- A container is right exactly when the lengths of its query and of its `msgs_ack` are not
negative as an `int`. -/
theorem containerCorrect_iff {tg : Session} {query : Bytes} {first second : Message}
    {drops : List Message} (hfirst : first.body = query)
    (hsecond : second.body = ackBody tg.msgids)
    (hdrops : drops.map Message.body = tg.todrop.map dropBody)
    (hfits : (containerFormat (first :: second :: drops)).length + 1 < 2 ^ 32) :
    ContainerCorrect model tg query first.msgId (containerFormat (first :: second :: drops)) ↔
      query.length < 2 ^ 31 ∧ 12 + 8 * tg.msgids.length < 2 ^ 31 := by
  have hcount : (first :: second :: drops).length = 2 + tg.todrop.length := by
    have hlength := congrArg List.length hdrops
    rw [List.length_map, List.length_map] at hlength
    rw [List.length_cons, List.length_cons, hlength]
    omega
  have hlength := length_containerFormat (first :: second :: drops)
  have hdrop := drop_containerFormat (first :: second :: drops)
  generalize hdata : containerFormat (first :: second :: drops) = data at *
  rw [List.flatMap_cons, List.flatMap_cons, List.length_append, List.length_append, length_format,
    length_format, hfirst, hsecond, length_ackBody] at hlength
  constructor
  · rintro ⟨-, hdecodes⟩
    obtain ⟨messages, hrun, -, hbytes⟩ := hdecodes []
    have hdropFirst : data.drop 8 = first.format ++ (second :: drops).flatMap Message.format := by
      rw [hdrop, List.flatMap_cons]
    obtain ⟨cursor, hone, hcursor⟩ :
        ∃ cursor, deserializeMtpMessage model (cursorAt data [] 8) = _ ∧ _ :=
      deserializeMtpMessage_spec hdropFirst (by omega) hfits
    rw [show 2 + tg.todrop.length = 1 + tg.todrop.length + 1 by omega, deserializeMtpMessages,
      hone, Option.bind_eq_bind, Option.bind_some] at hrun
    dsimp only at hrun
    rw [Option.bind_eq_bind, Option.bind_eq_some_iff] at hrun
    obtain ⟨⟨later, last⟩, hlater, hmessages⟩ := hrun
    cases hmessages
    have hfirstBytes : intOfUi32 (UInt32.ofNat query.length) = query.length := by
      have hmessage := hbytes (first.decoded model) List.mem_cons_self
      rwa [decoded_bytes, decoded_body, hfirst] at hmessage
    have hquery : query.length < 2 ^ 31 := (intOfUi32_ofNat_eq_iff (by omega)).mp hfirstBytes
    refine ⟨hquery, ?_⟩
    rw [hcursor (by rw [hfirst]; exact hquery)] at hlater
    have hdropSecond : data.drop (8 + first.format.length) =
        second.format ++ drops.flatMap Message.format := by
      rw [drop_add_of_drop_eq hdropFirst, List.flatMap_cons]
    obtain ⟨cursor', htwo, -⟩ :
        ∃ cursor, deserializeMtpMessage model (cursorAt data [] (8 + first.format.length)) =
          _ ∧ _ :=
      deserializeMtpMessage_spec hdropSecond (by rw [length_format, hfirst]; omega) hfits
    rw [Nat.add_comm 1, deserializeMtpMessages, htwo, Option.bind_eq_bind, Option.bind_some]
      at hlater
    dsimp only at hlater
    rw [Option.bind_eq_bind, Option.bind_eq_some_iff] at hlater
    obtain ⟨⟨others, end'⟩, -, hlater⟩ := hlater
    cases hlater
    have hsecondBytes : intOfUi32 (UInt32.ofNat (ackBody tg.msgids).length) =
        (ackBody tg.msgids).length := by
      have hmessage := hbytes (second.decoded model) (by simp)
      rwa [decoded_bytes, decoded_body, hsecond] at hmessage
    have hack := (intOfUi32_ofNat_eq_iff (by rw [length_ackBody]; omega)).mp hsecondBytes
    rwa [length_ackBody] at hack
  · rintro ⟨hquery, hack⟩
    have hsmall : ∀ message ∈ first :: second :: drops, message.body.length < 2 ^ 31 := by
      intro message hmem
      rcases List.mem_cons.mp hmem with rfl | hmem
      · rw [hfirst]
        exact hquery
      rcases List.mem_cons.mp hmem with rfl | hmem
      · rw [hsecond, length_ackBody]
        exact hack
      · have hbody : message.body ∈ tg.todrop.map dropBody := hdrops ▸ List.mem_map_of_mem hmem
        obtain ⟨id, -, hid⟩ := List.mem_map.mp hbody
        rw [← hid, length_dropBody]
        decide
    refine ⟨⟨(le32 first.seqno ++ (le32 (UInt32.ofNat first.body.length) ++ first.body)) ++
      (second :: drops).flatMap Message.format, ?_⟩, ?_⟩
    · rw [← hdata, containerFormat, hcount, List.flatMap_cons, Message.format, List.append_assoc]
    · intro slack
      have hrun : deserializeMtpMessages model _ (cursorAt data slack 8) = _ :=
        deserializeMtpMessages_spec (by rw [hdrop, List.append_nil]) (by omega) hfits hsmall
      have hend : 8 + ((first :: second :: drops).flatMap Message.format).length = data.length := by
        rw [← hdata, length_containerFormat]
      rw [hcount, hend] at hrun
      refine ⟨_, hrun, ?_, ?_⟩
      · rw [List.map_map]
        have hbody : MtpMessage.body ∘ Message.decoded model = Message.body := rfl
        rw [hbody, List.map_cons, List.map_cons, hfirst, hsecond, hdrops]
      · intro message hmem
        obtain ⟨source, hsource, rfl⟩ := List.mem_map.mp hmem
        have hlt := hsmall source hsource
        rw [decoded_bytes, decoded_body]
        exact (intOfUi32_ofNat_eq_iff (by omega)).mpr hlt

variable (moves : ℕ → Bool) (clock : ℕ → Timespec) (rand : ℕ → UInt8) {tg : Session}
  {query : Bytes} (content : Bool) (before : UInt64)

/-- The packet of a session without pending acknowledgements. -/
theorem headerCorrect_of_nil (hsalt : tg.salt.length = 8) (hssid : tg.ssid.length = 8)
    (htotal : packetLength tg query < 2 ^ 32) (hnil : tg.msgids = []) :
    HeaderCorrect moves clock rand model tg query content before := by
  rw [packetLength, payloadLength, if_pos hnil] at htotal
  obtain ⟨buf, hpayload, hholds⟩ := tgPayload_of_nil moves clock tg query content hnil (by omega)
  obtain ⟨packet, seqno, after, hheader, hpacket, -, htodrop⟩ :=
    tgHeader_of_tgPayload moves clock rand before hpayload hholds hsalt hssid (by omega)
  have hpadding : ∀ count, (bufRand rand count).length = count := by simp [bufRand]
  refine ⟨packet, _, after, _, seqno, query, _, hheader, hpacket.bytes_eq, ?_, ?_, ?_, ?_, ?_, ?_⟩
  · rw [hpadding]
    omega
  · rw [hpadding]
    omega
  · rw [hpadding]
    omega
  · intro receiver
    exact tgDeheader_packetFormat moves model receiver hpacket hsalt hssid (by
      rw [hpadding]
      omega)
  · intro _
    exact ⟨rfl, htodrop, if_pos rfl⟩
  · intro hne
    exact absurd hnil hne

/-- The packet of a session with pending acknowledgements. -/
theorem headerCorrect_iff_of_ne_nil (hsalt : tg.salt.length = 8) (hssid : tg.ssid.length = 8)
    (hclock : ∀ n, msgIdAt (clock n) tg.timediff ≠ 0)
    (htotal : packetLength tg query < 2 ^ 32) (hne : tg.msgids ≠ []) :
    HeaderCorrect moves clock rand model tg query content before ↔
      query.length < 2 ^ 31 ∧ 12 + 8 * tg.msgids.length < 2 ^ 31 := by
  rw [packetLength] at htotal
  obtain ⟨buf, first, second, drops, middle, hpayload, hholds, hfirst, hsecond, hdrops, hid,
    hsaltEq, hssidEq, hmsgids, htodrop, -⟩ :=
    tgPayload_of_ne_nil moves clock tg query content hne (by omega)
  have hlength : (containerFormat (first :: second :: drops)).length = payloadLength tg query := by
    rw [length_containerFormat, List.flatMap_cons, List.flatMap_cons, List.length_append,
      List.length_append, length_format, length_format, hfirst, hsecond, length_ackBody,
      length_flatMap_drops hdrops, payloadLength, if_neg hne]
    omega
  have hcontainer : ContainerCorrect model tg query first.msgId _ ↔ _ :=
    containerCorrect_iff hfirst hsecond hdrops (by omega)
  obtain ⟨packet, seqno, after, hheader, hpacket, hafterMsgids, hafterTodrop⟩ :=
    tgHeader_of_tgPayload moves clock rand before hpayload hholds (hsaltEq ▸ hsalt)
      (hssidEq ▸ hssid) (by rw [hlength]; omega)
  rw [if_neg (hid ▸ hclock _)] at hheader
  rw [hsaltEq, hssidEq] at hpacket
  have hpadding : ∀ count, (bufRand rand count).length = count := by simp [bufRand]
  have hdeheader : ∀ receiver, ∃ d later,
      tgDeheader moves model receiver packet true = some (d, later) ∧
        d.bytes = containerFormat (first :: second :: drops) := by
    intro receiver
    exact tgDeheader_packetFormat moves model receiver hpacket hsalt hssid (by
      rw [hpadding, hlength]
      omega)
  constructor
  · rintro ⟨packet', msgid', after', outer', seqno', payload', padding', hheader', -, -, -, -,
      hdeheader', -, hafter'⟩
    rw [hheader, Option.some.injEq, Prod.mk.injEq, Prod.mk.injEq] at hheader'
    obtain ⟨rfl, rfl, rfl⟩ := hheader'
    obtain ⟨d, later, hd, hbytes⟩ := hdeheader tg
    obtain ⟨d', later', hd', hbytes'⟩ := hdeheader' tg
    rw [hd, Option.some.injEq, Prod.mk.injEq] at hd'
    rw [← hd'.1, hbytes] at hbytes'
    apply hcontainer.mp
    rw [hbytes']
    exact (hafter' hne).2.2
  · intro hsmall
    refine ⟨packet, first.msgId, after, _, seqno, _, _, hheader, hpacket.bytes_eq, ?_, ?_, ?_,
      hdeheader, fun hnil ↦ absurd hnil hne, fun _ ↦ ⟨hafterMsgids.trans hmsgids,
        hafterTodrop.trans htodrop, hcontainer.mpr hsmall⟩⟩
    · rw [hpadding]
      omega
    · rw [hpadding]
      omega
    · rw [hpadding]
      omega

/-- `tg_header` and `tg_deheader` keep to the packet layout, and a container can be read back,
exactly when nothing is to be acknowledged or the lengths of the query and of the `msgs_ack` are not
negative as an `int`. -/
theorem headerCorrect_iff (hsalt : tg.salt.length = 8) (hssid : tg.ssid.length = 8)
    (hclock : ∀ n, msgIdAt (clock n) tg.timediff ≠ 0)
    (htotal : packetLength tg query < 2 ^ 32) :
    HeaderCorrect moves clock rand model tg query content before ↔
      tg.msgids = [] ∨ (query.length < 2 ^ 31 ∧ 12 + 8 * tg.msgids.length < 2 ^ 31) := by
  by_cases hnil : tg.msgids = []
  · have hcorrect : HeaderCorrect moves clock rand model tg query content before :=
      headerCorrect_of_nil moves clock rand content before hsalt hssid htotal hnil
    exact iff_of_true hcorrect (Or.inl hnil)
  · rw [headerCorrect_iff_of_ne_nil moves clock rand content before hsalt hssid hclock htotal hnil]
    simp only [hnil, false_or]

end Correct

/-- A session with one id to acknowledge and one answer to drop. -/
def pendingSession : Session where
  salt := [1, 2, 3, 4, 5, 6, 7, 8]
  ssid := [8, 7, 6, 5, 4, 3, 2, 1]
  msgids := [5]
  todrop := [7]
  seqn := 3
  timediff := 0
  ticks := 0

/-- A clock that always reads one second. -/
def oneSecond (_ : ℕ) : Timespec := ⟨1, 0, zero_nsec_lt⟩

theorem msgIdAt_oneSecond (n : ℕ) : msgIdAt (oneSecond n) pendingSession.timediff ≠ 0 := by
  have hid : msgIdAt ⟨1, 0, zero_nsec_lt⟩ 0 ≠ 0 := by decide
  exact hid

/-- A query of four bytes goes out in a container of three messages. -/
theorem headerCorrect_pendingSession :
    HeaderCorrect (fun _ ↦ true) oneSecond (fun _ ↦ 0) .lp64 pendingSession [1, 2, 3, 4] true 0 :=
  (headerCorrect_iff (fun _ ↦ true) oneSecond (fun _ ↦ 0) true 0 rfl rfl msgIdAt_oneSecond
    (by decide)).mpr (Or.inr ⟨by decide, by decide⟩)

/-- A query of `2 ^ 31` bytes gets a negative length when its container is read back. -/
theorem not_headerCorrect_large :
    ¬ HeaderCorrect (fun _ ↦ true) oneSecond (fun _ ↦ 0) .lp64 pendingSession
      (List.replicate (2 ^ 31) 0) true 0 := by
  have htotal : packetLength pendingSession (List.replicate (2 ^ 31) 0) < 2 ^ 32 := by
    rw [packetLength, payloadLength, if_neg (by decide), List.length_replicate]
    decide
  rw [headerCorrect_iff_of_ne_nil (fun _ ↦ true) oneSecond (fun _ ↦ 0) true 0 rfl rfl
    msgIdAt_oneSecond htotal (by decide), List.length_replicate]
  exact fun h ↦ lt_irrefl _ h.1

end LibTg.Tg
