import LibTg.Tg.Dispatch
import LibTg.Tg.HeaderSpec

/-!
# What the decoder makes of the messages that are told apart

The layouts of the constructors that `handle_tl` looks into, and the object that `tl_deserialize`
returns for each. The table of constructors is a parameter; it only has to hold these.
-/

namespace LibTg.Tg

open LibTg.Tl

/-- The bytes of a `gzip_packed`. -/
def gzipFormat (packed : Bytes) : Bytes := le32 gzipPacked.id ++ tlBytes packed

/-- The bytes of an `rpc_result`. -/
def resultFormat (reqMsgId : UInt64) (result : Bytes) : Bytes :=
  le32 rpcResult.id ++ (le64 reqMsgId ++ result)

/-- The bytes of a `msg_detailed_info`. -/
def detailedInfoFormat (msgId answer : UInt64) (bytes status : UInt32) : Bytes :=
  le32 msgDetailedInfo.id ++ (le64 msgId ++ (le64 answer ++ (le32 bytes ++ le32 status)))

/-- The bytes of a `msg_new_detailed_info`. -/
def newDetailedInfoFormat (answer : UInt64) (bytes status : UInt32) : Bytes :=
  le32 msgNewDetailedInfo.id ++ (le64 answer ++ (le32 bytes ++ le32 status))

/-- The table holds the constructors that `handle_tl` looks into. -/
structure HasService (table : List Method) : Prop where
  gzipPacked : getFun table gzipPacked.id = some gzipPacked
  msgContainer : getFun table msgContainer.id = some msgContainer
  rpcResult : getFun table rpcResult.id = some rpcResult
  msgDetailedInfo : getFun table msgDetailedInfo.id = some msgDetailedInfo
  msgNewDetailedInfo : getFun table msgNewDetailedInfo.id = some msgNewDetailedInfo

/-! ## One level of `handle_tl` -/

section Level

variable {model : DataModel} {table : List Method} {gunzip : Bytes → Gunzipped} {own fuel : ℕ}
  {tl : TlObj} {queues : List Queue}

theorem handleTl_gzip (hid : tl.id = gzipPacked.id) :
    handleTl model table gunzip own (fuel + 1) (some tl) queues =
      (bufField tl 0).bind fun packed ↦
        (tlDeserialize model table (gunzip packed).cursor).bind fun result ↦
          handleTl model table gunzip own fuel result.1 queues := by
  rw [handleTl, if_pos hid]
  rfl

theorem handleTl_container (hid : tl.id = msgContainer.id) :
    handleTl model table gunzip own (fuel + 1) (some tl) queues =
      (messagesField tl).bind fun messages ↦
        handleMessages model table (handleTl model table gunzip own fuel) messages queues := by
  have hgzip : ¬ tl.id = gzipPacked.id := by rw [hid]; decide
  rw [handleTl, if_neg hgzip, if_pos hid]
  rfl

theorem handleTl_detailedInfo (hid : tl.id = msgDetailedInfo.id) :
    handleTl model table gunzip own (fuel + 1) (some tl) queues =
      (longField tl 1).bind fun answer ↦ callCatchedTl model table gunzip queues answer none := by
  have hgzip : ¬ tl.id = gzipPacked.id := by rw [hid]; decide
  have hcontainer : ¬ tl.id = msgContainer.id := by rw [hid]; decide
  have hbad : ¬ tl.id = idBadMsgNotification := by rw [hid]; decide
  have herror : ¬ tl.id = rpcError.id := by rw [hid]; decide
  rw [handleTl, if_neg hgzip, if_neg hcontainer, if_neg hbad, if_neg herror, if_pos hid]
  rfl

theorem handleTl_newDetailedInfo (hid : tl.id = msgNewDetailedInfo.id) :
    handleTl model table gunzip own (fuel + 1) (some tl) queues =
      (longField tl 0).bind fun answer ↦ callCatchedTl model table gunzip queues answer none := by
  have hgzip : ¬ tl.id = gzipPacked.id := by rw [hid]; decide
  have hcontainer : ¬ tl.id = msgContainer.id := by rw [hid]; decide
  have hbad : ¬ tl.id = idBadMsgNotification := by rw [hid]; decide
  have herror : ¬ tl.id = rpcError.id := by rw [hid]; decide
  have hinfo : ¬ tl.id = msgDetailedInfo.id := by rw [hid]; decide
  rw [handleTl, if_neg hgzip, if_neg hcontainer, if_neg hbad, if_neg herror, if_neg hinfo,
    if_pos hid]
  rfl

theorem handleTl_result (hid : tl.id = rpcResult.id) :
    handleTl model table gunzip own (fuel + 1) (some tl) queues =
      (longField tl 0).bind fun reqMsgId ↦ (objectField tl 1).bind fun result ↦
        callCatchedTl model table gunzip queues reqMsgId result := by
  have hgzip : ¬ tl.id = gzipPacked.id := by rw [hid]; decide
  have hcontainer : ¬ tl.id = msgContainer.id := by rw [hid]; decide
  have hbad : ¬ tl.id = idBadMsgNotification := by rw [hid]; decide
  have herror : ¬ tl.id = rpcError.id := by rw [hid]; decide
  have hinfo : ¬ tl.id = msgDetailedInfo.id := by rw [hid]; decide
  have hnew : ¬ tl.id = msgNewDetailedInfo.id := by rw [hid]; decide
  rw [handleTl, if_neg hgzip, if_neg hcontainer, if_neg hbad, if_neg herror, if_neg hinfo,
    if_neg hnew, if_pos hid]
  rfl

end Level

section Decode

variable {model : DataModel} {table : List Method}

/-- A message is decoded if the arguments of its constructor are. -/
theorem decodes_of_args {method : Method} {data body : Bytes} {fields : List Field}
    (hdata : data = le32 method.id ++ body)
    (hfun : getFun table method.id = some method) (hid : method.id ≠ 0)
    (hname : method.name ≠ "vector") (hfits : data.length + 1 < 2 ^ 32)
    (hargs : ∃ cursor, deserializeArgs model (tlDeserializeFuel model table data.length) []
      method.args (cursorAt data [] 4) = some (fields, cursor)) :
    Decodes model table data (some (.mk method.id data fields)) := by
  obtain ⟨cursor, hargs⟩ := hargs
  have hread : (cursorAt data [] 0).read _ = some (le32 method.id) :=
    read_cursorAt hdata (Nat.zero_le _)
  rw [length_le32] at hread
  have hword : deserializeUi32 model (cursorAt data [] 0) = _ :=
    deserializeUi32_spec (Nat.zero_le _) hfits hdata
  have hsize : (cursorAt data [] 0).size.toNat = data.length := by
    rw [cursorAt, Nat.sub_zero, UInt32.toNat_ofNat']
    exact Nat.mod_eq_of_lt (by omega)
  have hcopy : (cursorAt data [] 0).addBuf data.length = some data :=
    addBuf_cursorAt (List.append_nil _).symm (Nat.zero_le _) hfits
  have hmethod : deserializeMethod model (tlDeserializeFuel model table data.length) method
      (cursorAt data [] 0) = some (.mk method.id data fields, cursor) := by
    rw [deserializeMethod, hsize, hcopy, Option.bind_eq_bind, Option.bind_some, hword,
      Option.bind_eq_bind, Option.bind_some]
    dsimp only
    rw [if_neg hname, hargs, Option.bind_eq_bind, Option.bind_some]
  have hfuel : (cursorAt data [] 0).block.length = data.length := by
    rw [cursorAt, List.append_nil]
  refine ⟨cursor, ?_⟩
  rw [tlDeserialize, hfuel, tlDeserializeFuel, hread, Option.bind_eq_bind, Option.bind_some,
    getUi32_le32, if_neg hid, hfun]
  dsimp only
  rw [hmethod, Option.bind_eq_bind, Option.bind_some]

/-- The bytes after the constructor id. -/
theorem drop_four_of_eq {data body : Bytes} {id : UInt32} (hdata : data = le32 id ++ body) :
    data.drop 4 = body ∧ 4 ≤ data.length := by
  constructor
  · rw [hdata, ← length_le32 id, List.drop_left]
  · rw [hdata, List.length_append, length_le32]
    omega

theorem length_tlBytes_le (bytes : Bytes) : (tlBytes bytes).length ≤ bytes.length + 7 := by
  have hpadding := length_tlPadding_le (tlBytesHeader bytes ++ bytes).length
  have hheader : (tlBytesHeader bytes).length ≤ 4 := by
    rw [tlBytesHeader]
    split <;> simp
  simp only [tlBytes, List.length_append] at hpadding ⊢
  omega

theorem decodes_gzip (htable : HasService table) {packed : Bytes}
    (hpacked : packed.length < 2 ^ 24) :
    Decodes model table (gzipFormat packed)
      (some (.mk gzipPacked.id (gzipFormat packed) [.buf packed])) := by
  have hlength := length_tlBytes_le packed
  have hfits : (gzipFormat packed).length + 1 < 2 ^ 32 := by
    rw [gzipFormat, List.length_append, length_le32]
    omega
  obtain ⟨hdrop, hle⟩ := drop_four_of_eq (rfl : gzipFormat packed = _)
  have hbytes : deserializeBytes model (cursorAt (gzipFormat packed) [] 4) = _ :=
    deserializeBytes_spec hle hfits (hdrop.trans (List.append_nil _).symm) hpacked
  refine decodes_of_args rfl htable.gzipPacked (by decide) (by decide) hfits
    ⟨cursorAt (gzipFormat packed) [] (4 + (tlBytes packed).length), ?_⟩
  simp [gzipPacked, deserializeArgs, argPresent, deserializeValue, hbytes]

theorem decodes_detailedInfo (htable : HasService table) (msgId answer : UInt64)
    (bytes status : UInt32) :
    Decodes model table (detailedInfoFormat msgId answer bytes status)
      (some (.mk msgDetailedInfo.id (detailedInfoFormat msgId answer bytes status)
        [.long msgId, .long answer, .int bytes, .int status])) := by
  have hlength : (detailedInfoFormat msgId answer bytes status).length = 28 := by
    simp [detailedInfoFormat]
  have hfits : (detailedInfoFormat msgId answer bytes status).length + 1 < 2 ^ 32 := by
    rw [hlength]
    decide
  obtain ⟨hdrop, hle⟩ := drop_four_of_eq (rfl : detailedInfoFormat msgId answer bytes status = _)
  have hdropAnswer := drop_add_of_drop_eq hdrop
  have hdropBytes := drop_add_of_drop_eq hdropAnswer
  have hdropStatus := drop_add_of_drop_eq hdropBytes
  simp only [length_le64, length_le32] at hdropAnswer hdropBytes hdropStatus
  have hone : deserializeUi64 model (cursorAt _ [] 4) = _ := deserializeUi64_spec hle hfits hdrop
  have htwo : deserializeUi64 model (cursorAt _ [] (4 + 8)) = _ :=
    deserializeUi64_spec (by omega) hfits hdropAnswer
  have hthree : deserializeUi32 model (cursorAt _ [] (4 + 8 + 8)) = _ :=
    deserializeUi32_spec (by omega) hfits hdropBytes
  have hfour : deserializeUi32 model (cursorAt _ [] (4 + 8 + 8 + 4)) = _ :=
    deserializeUi32_spec (by omega) hfits (hdropStatus.trans (List.append_nil _).symm)
  refine decodes_of_args rfl htable.msgDetailedInfo (by decide) (by decide) hfits
    ⟨cursorAt (detailedInfoFormat msgId answer bytes status) [] (4 + 8 + 8 + 4 + 4), ?_⟩
  simp [msgDetailedInfo, deserializeArgs, argPresent, deserializeValue, hone, htwo, hthree, hfour]

theorem decodes_newDetailedInfo (htable : HasService table) (answer : UInt64)
    (bytes status : UInt32) :
    Decodes model table (newDetailedInfoFormat answer bytes status)
      (some (.mk msgNewDetailedInfo.id (newDetailedInfoFormat answer bytes status)
        [.long answer, .int bytes, .int status])) := by
  have hlength : (newDetailedInfoFormat answer bytes status).length = 20 := by
    simp [newDetailedInfoFormat]
  have hfits : (newDetailedInfoFormat answer bytes status).length + 1 < 2 ^ 32 := by
    rw [hlength]
    decide
  obtain ⟨hdrop, hle⟩ := drop_four_of_eq (rfl : newDetailedInfoFormat answer bytes status = _)
  have hdropBytes := drop_add_of_drop_eq hdrop
  have hdropStatus := drop_add_of_drop_eq hdropBytes
  simp only [length_le64, length_le32] at hdropBytes hdropStatus
  have hone : deserializeUi64 model (cursorAt _ [] 4) = _ := deserializeUi64_spec hle hfits hdrop
  have htwo : deserializeUi32 model (cursorAt _ [] (4 + 8)) = _ :=
    deserializeUi32_spec (by omega) hfits hdropBytes
  have hthree : deserializeUi32 model (cursorAt _ [] (4 + 8 + 4)) = _ :=
    deserializeUi32_spec (by omega) hfits (hdropStatus.trans (List.append_nil _).symm)
  refine decodes_of_args rfl htable.msgNewDetailedInfo (by decide) (by decide) hfits
    ⟨cursorAt (newDetailedInfoFormat answer bytes status) [] (4 + 8 + 4 + 4), ?_⟩
  simp [msgNewDetailedInfo, deserializeArgs, argPresent, deserializeValue, hone, htwo, hthree]

/-- An answer is decoded in place, to the object that it is on its own. -/
theorem decodes_result (htable : HasService table) (reqMsgId : UInt64) {result : Bytes}
    {tl : Option TlObj} (hresult : Decodes model table result tl)
    (hfits : (resultFormat reqMsgId result).length + 1 < 2 ^ 32) :
    Decodes model table (resultFormat reqMsgId result)
      (some (.mk rpcResult.id (resultFormat reqMsgId result) [.long reqMsgId, .object tl])) := by
  obtain ⟨hdrop, hle⟩ := drop_four_of_eq (rfl : resultFormat reqMsgId result = _)
  have hone : deserializeUi64 model (cursorAt (resultFormat reqMsgId result) [] 4) = _ :=
    deserializeUi64_spec hle hfits hdrop
  have hsplit : resultFormat reqMsgId result = le32 rpcResult.id ++ le64 reqMsgId ++ result := by
    rw [resultFormat, List.append_assoc]
  have hlength : (le32 rpcResult.id ++ le64 reqMsgId).length = 4 + 8 := by simp
  have hfuel : result.length < (resultFormat reqMsgId result).length := by
    rw [hsplit, List.length_append, hlength]
    omega
  obtain ⟨cursor, hobject⟩ := hresult.at_end (le32 rpcResult.id ++ le64 reqMsgId) [] hfuel
    (by rw [List.append_nil, ← hsplit]; omega)
  rw [hlength, ← hsplit] at hobject
  refine decodes_of_args rfl htable.rpcResult (by decide) (by decide) hfits ⟨cursor, ?_⟩
  have hvector : vectorElem "Object" = none := by decide
  simp [rpcResult, deserializeArgs, argPresent, deserializeValue, hone, hvector, hobject]

/-! ## Containers -/

theorem deserializeElems_message (readObject : ObjectReader) (count : ℕ) (cursor : Cursor) :
    deserializeElems model readObject "%Message" count cursor =
      (deserializeMtpMessages model count cursor).map (Prod.map (List.map .message) id) := by
  induction count generalizing cursor with
  | zero => rfl
  | succ count ih =>
    have helem : deserializeElem model readObject "%Message" cursor =
        (deserializeMtpMessage model cursor).map (Prod.map .message id) := by
      simp [deserializeElem]
    rw [deserializeElems, deserializeMtpMessages, helem]
    cases hfirst : deserializeMtpMessage model cursor with
    | none => rfl
    | some first =>
      simp only [Option.map_some, Option.bind_eq_bind, Option.bind_some, Prod.map, ih, id_eq]
      cases deserializeMtpMessages model count first.2 <;> rfl

/-- The messages of a container are read back. The last one may have a length that is negative as
an `int`, since nothing is read after it. -/
theorem deserializeMtpMessages_read {data slack rest : Bytes} {pos : ℕ} {messages : List Message}
    (hdrop : data.drop pos = messages.flatMap Message.format ++ rest) (hpos : pos ≤ data.length)
    (hfits : data.length + 1 < 2 ^ 32)
    (hsmall : ∀ message ∈ messages.dropLast, message.body.length < 2 ^ 31) :
    ∃ cursor, deserializeMtpMessages model messages.length (cursorAt data slack pos) =
      some (messages.map (Message.decoded model), cursor) := by
  induction messages generalizing pos with
  | nil => exact ⟨_, rfl⟩
  | cons message later ih =>
    rw [List.flatMap_cons, List.append_assoc] at hdrop
    obtain ⟨cursor, hfirst, hcursor⟩ :
        ∃ cursor, deserializeMtpMessage model (cursorAt data slack pos) = _ ∧ _ :=
      deserializeMtpMessage_spec hdrop hpos hfits
    rw [List.length_cons, deserializeMtpMessages, hfirst, Option.bind_eq_bind, Option.bind_some]
    dsimp only
    cases later with
    | nil => exact ⟨cursor, rfl⟩
    | cons second others =>
      rw [List.dropLast_cons_cons, List.forall_mem_cons] at hsmall
      obtain ⟨final, hrest⟩ := ih (drop_add_of_drop_eq hdrop)
        (add_le_length_of_drop_eq hdrop hpos) hsmall.2
      exact ⟨final, by rw [hcursor hsmall.1, hrest, Option.bind_eq_bind, Option.bind_some]; rfl⟩

theorem decodes_container (htable : HasService table) {messages : List Message}
    (hcount : messages.length ≤ 10000)
    (hsmall : ∀ message ∈ messages.dropLast, message.body.length < 2 ^ 31)
    (hfits : (containerFormat messages).length + 1 < 2 ^ 32) :
    Decodes model table (containerFormat messages)
      (some (.mk msgContainer.id (containerFormat messages)
        [.vector (UInt32.ofNat messages.length)
          (messages.map fun message ↦ .message (message.decoded model))])) := by
  obtain ⟨hdrop, hle⟩ := drop_four_of_eq (rfl : containerFormat messages = _)
  have hword : deserializeUi32 model (cursorAt (containerFormat messages) [] 4) = _ :=
    deserializeUi32_spec hle hfits hdrop
  have hdropMessages := drop_add_of_drop_eq hdrop
  have hleMessages := add_le_length_of_drop_eq hdrop hle
  rw [length_le32] at hdropMessages hleMessages
  obtain ⟨cursor, hmessages⟩ : ∃ cursor, deserializeMtpMessages model messages.length
      (cursorAt (containerFormat messages) [] (4 + 4)) = _ :=
    deserializeMtpMessages_read (hdropMessages.trans (List.append_nil _).symm) hleMessages hfits
      hsmall
  have htoNat : (UInt32.ofNat messages.length).toNat = messages.length := by
    rw [UInt32.toNat_ofNat']
    omega
  have hlen : deserializeLen model (cursorAt (containerFormat messages) [] 4) =
      some (UInt32.ofNat messages.length, cursorAt (containerFormat messages) [] (4 + 4)) := by
    have hne : UInt32.ofNat messages.length ≠ idVector := by
      intro heq
      have hnat := congrArg UInt32.toNat heq
      rw [htoNat] at hnat
      have hvector : idVector.toNat = 481674261 := by decide
      omega
    rw [deserializeLen, hword, Option.bind_eq_bind, Option.bind_some, if_neg hne]
  have hvalue : intOfUi32 (UInt32.ofNat messages.length) = messages.length := by
    rw [intOfUi32_of_lt (by omega), htoNat]
  have hvector (readObject : ObjectReader) :
      deserializeVector model readObject "%Message" (cursorAt (containerFormat messages) [] 4) =
        some (.next (.vector (UInt32.ofNat messages.length)
          (messages.map fun message ↦ .message (message.decoded model))) cursor) := by
    rw [deserializeVector, hlen, Option.bind_eq_bind, Option.bind_some]
    dsimp only
    rw [hvalue, if_neg (by omega), htoNat, deserializeElems_message, hmessages, Option.map_some,
      Option.bind_eq_bind, Option.bind_some]
    dsimp only [Prod.map]
    rw [List.map_map]
    rfl
  have helem : vectorElem "vector<%Message>" = some "%Message" := by decide
  refine decodes_of_args rfl htable.msgContainer (by decide) (by decide) hfits ⟨cursor, ?_⟩
  simp [msgContainer, deserializeArgs, argPresent, deserializeValue, helem, hvector]

end Decode

end LibTg.Tg
