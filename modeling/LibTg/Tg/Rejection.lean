import LibTg.Tg.HeaderSpec

/-!
# What `tg_deheader` rejects

A plaintext is acceptable if it is for this session, claims no more data than it has, and has a
padding of a permitted length. `tg_deheader` takes the salt and the message id over before it has
looked at anything else, and then returns what the plaintext claims to hold.
-/

namespace LibTg.Tg

open LibTg.Tl

/-- The claimed length of the payload, `msg_data_len`. -/
def msgDataLen (plain : Bytes) : ℕ := (getUi32 ((plain.drop 28).take 4)).toNat

/-- A plaintext that may be processed: a whole header with the id of this session, no more payload
claimed than there is, and 12 to 1024 bytes of padding. -/
structure Acceptable (tg : Session) (plain : Bytes) : Prop where
  header : 32 ≤ plain.length
  session : (plain.drop 8).take 8 = tg.ssid
  payload : 32 + msgDataLen plain ≤ plain.length
  padding : 12 ≤ plain.length - 32 - msgDataLen plain ∧
    plain.length - 32 - msgDataLen plain ≤ 1024

section Rejection

variable (moves : ℕ → Bool) (model : DataModel) (tg : Session) (packet : Buf)

/-- `tg_deheader` returns, and for a plaintext that is not acceptable without a payload, and with
the salt and the pending acks as they were. -/
def RejectsCleanly : Prop :=
  ∃ payload after, tgDeheader moves model tg packet true = some (payload, after) ∧
    (¬ Acceptable tg packet.bytes →
      payload.size = 0 ∧ after.salt = tg.salt ∧ after.msgids = tg.msgids)

variable {moves model tg packet}

/-- Whatever a plaintext holds, its message id is added to the pending acks. -/
theorem tgDeheader_msgids {payload : Buf} {after : Session} (hsize : packet.size ≠ 0)
    (h : tgDeheader moves model tg packet true = some (payload, after)) :
    ∃ msgId, after.msgids = tg.msgids ++ [msgId] := by
  rw [tgDeheader, if_neg hsize, if_pos rfl] at h
  simp only [Option.bind_eq_bind, Option.bind_eq_some_iff, Option.some.injEq, Prod.mk.injEq] at h
  obtain ⟨_, _, _, _, msgId, _, _, _, _, _, _, _, _, _, -, rfl⟩ := h
  exact ⟨msgId.1, rfl⟩

/-- The session after the header of a plaintext. -/
def afterHeader (tg : Session) (plain : Bytes) : Session :=
  tgAddMsgid { tg with salt := le64 (getUi64 ((plain.drop 0).take 8)) }
    (getUi64 ((plain.drop 16).take 8))

/-- A plaintext with a whole header is taken apart up to the copy of its payload. -/
theorem tgDeheader_of_header {slack : Bytes} (hcursor : bufCursor packet =
    cursorAt packet.bytes slack 0) (hsize : packet.size + 1 < 2 ^ 32)
    (hheader : 32 ≤ packet.bytes.length) :
    tgDeheader moves model tg packet true =
      ((cursorAt packet.bytes slack 32).read (msgDataLen packet.bytes)).bind fun data ↦
        (bufCat moves bufNew data).map fun d ↦ (d, afterHeader tg packet.bytes) := by
  have hlength := length_bytes packet
  have hfits : packet.bytes.length + 1 < 2 ^ 32 := by rw [hlength]; exact hsize
  have hsalt : deserializeUi64 model (cursorAt packet.bytes slack 0) = _ :=
    deserializeUi64_at (by omega) hfits
  have hssid : deserializeUi64 model (cursorAt packet.bytes slack (0 + 8)) = _ :=
    deserializeUi64_at (by omega) hfits
  have hmsgId : deserializeUi64 model (cursorAt packet.bytes slack (0 + 8 + 8)) = _ :=
    deserializeUi64_at (by omega) hfits
  have hseqno : deserializeUi32 model (cursorAt packet.bytes slack (0 + 8 + 8 + 8)) = _ :=
    deserializeUi32_at (by omega) hfits
  have hlen : deserializeUi32 model (cursorAt packet.bytes slack (0 + 8 + 8 + 8 + 4)) = _ :=
    deserializeUi32_at (by omega) hfits
  have hne : packet.size ≠ 0 := by omega
  rw [tgDeheader, if_neg hne, if_pos rfl, hcursor]
  simp only [Option.bind_eq_bind, Option.bind_some, hsalt, hssid, hmsgId, hseqno, hlen]
  refine congrArg _ (funext fun data ↦ ?_)
  cases bufCat moves bufNew data <;> rfl

/-- A plaintext with a whole header and payload is taken apart. -/
theorem tgDeheader_of_payload (hsize : packet.size + 1 < 2 ^ 32)
    (hpayload : 32 + msgDataLen packet.bytes ≤ packet.bytes.length) :
    ∃ payload, tgDeheader moves model tg packet true =
      some (payload, afterHeader tg packet.bytes) := by
  obtain ⟨slack, hcursor⟩ := bufCursor_eq packet
  have hlength := length_bytes packet
  obtain ⟨payload, hcopy, -⟩ := bufCat_spec moves holds_bufNew
    ((packet.bytes.drop 32).take (msgDataLen packet.bytes)) (by
      rw [length_take_drop hpayload, List.length_nil]
      omega)
  refine ⟨payload, ?_⟩
  rw [tgDeheader_of_header hcursor hsize (by omega), read_at hpayload, Option.bind_some, hcopy,
    Option.map_some]

/-- A plaintext that is not acceptable is never rejected cleanly. -/
theorem not_rejectsCleanly (hne : packet.size ≠ 0)
    (hunacceptable : ¬ Acceptable tg packet.bytes) : ¬ RejectsCleanly moves model tg packet := by
  rintro ⟨payload, after, hreturns, hclean⟩
  obtain ⟨msgId, hmsgids⟩ := tgDeheader_msgids hne hreturns
  rw [(hclean hunacceptable).2.2] at hmsgids
  cases List.self_eq_append_right.mp hmsgids

/-- A plaintext is rejected cleanly only if there is nothing to reject. -/
theorem rejectsCleanly_iff (hsize : packet.size + 1 < 2 ^ 32) :
    RejectsCleanly moves model tg packet ↔ packet.size = 0 ∨ Acceptable tg packet.bytes := by
  constructor
  · intro hclean
    by_contra hneither
    obtain ⟨hne, hunacceptable⟩ := not_or.mp hneither
    exact not_rejectsCleanly hne hunacceptable hclean
  · rintro (hempty | hacceptable)
    · refine ⟨packet, tg, ?_, fun _ ↦ ⟨hempty, rfl, rfl⟩⟩
      rw [tgDeheader, if_pos hempty]
    · obtain ⟨payload, hreturns⟩ := tgDeheader_of_payload hsize hacceptable.payload
      exact ⟨payload, _, hreturns, fun hnot ↦ absurd hacceptable hnot⟩

end Rejection

/-! ## A packet of this session, and one of another session -/

/-- The plaintext of a packet for the session with id `ssid`, with a payload of four bytes. -/
def pongPlain (ssid : UInt64) : Bytes :=
  le64 77 ++ le64 ssid ++ le64 7301444403200000001 ++ le32 1 ++ le32 4 ++ le32 0x347773c5 ++
    List.replicate 12 0

/-- A session that waits for an answer, with one pending ack. -/
def waitingSession : Session := ⟨le64 5, le64 9, [3], [], 0, 0, 0⟩

theorem exists_pongPacket (ssid : UInt64) :
    ∃ packet : Buf, packet.bytes = pongPlain ssid ∧ packet.size = 48 := by
  have hlength : (pongPlain ssid).length = 48 := by simp [pongPlain]
  obtain ⟨packet, -, hholds, -⟩ := bufCat_spec (fun _ ↦ false) holds_bufNew (pongPlain ssid)
    (by rw [hlength]; decide)
  exact ⟨packet, hholds.bytes_eq, hholds.size_eq.trans hlength⟩

theorem pong_rejectsCleanly :
    ∃ packet : Buf, packet.bytes = pongPlain 9 ∧
      RejectsCleanly (fun _ ↦ false) .lp64 waitingSession packet := by
  obtain ⟨packet, hbytes, hsize⟩ := exists_pongPacket 9
  have hacceptable : Acceptable waitingSession (pongPlain 9) :=
    ⟨by decide +kernel, by decide +kernel, by decide +kernel, by decide +kernel⟩
  rw [← hbytes] at hacceptable
  exact ⟨packet, hbytes, (rejectsCleanly_iff (by rw [hsize]; decide)).mpr (.inr hacceptable)⟩

/-- A packet of another session changes the salt and the acks, and its payload is processed. -/
theorem foreignPong_not_rejectsCleanly :
    ∃ packet : Buf, packet.bytes = pongPlain 8 ∧
      ¬ RejectsCleanly (fun _ ↦ false) .lp64 waitingSession packet := by
  obtain ⟨packet, hbytes, hsize⟩ := exists_pongPacket 8
  refine ⟨packet, hbytes, not_rejectsCleanly (by rw [hsize]; decide) fun hacceptable ↦ ?_⟩
  have hsession := hacceptable.session
  rw [hbytes] at hsession
  exact absurd hsession (by decide +kernel)

end LibTg.Tg
