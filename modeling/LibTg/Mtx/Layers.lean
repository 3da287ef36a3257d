import LibTg.Mtx.Sel

/-!
# Unencrypted packets (`mtx/src/hdl.c`, `mtx/src/enl.c`, `mtx/src/trl.c`)

While there is no auth key, a message is sent behind its id and length, eight zero bytes in the place
of a key id, and the length of all this. On the way back each layer drops what it has for its header:
a wrong length or key id is only reported.
-/

namespace LibTg.Mtx

/-- `hdl_header` for `RFC`, with the message id from the clock. -/
def hdlHeader (msgId : UInt64) (b : Buf) : Option Buf := do
  let id ← bufAdd (le64 msgId)
  let s ← bufCat .empty id
  let len ← bufAddUi32 (UInt32.ofNat b.size)
  let s ← bufCat s len
  bufCat s b

/-- `enl_encrypt` for `RFC`. -/
def enlEncrypt (b : Buf) : Option Buf := do
  let e ← zeroBuf 8
  bufCat e b

def trlTransport (buf : Buf) : Option Buf := do
  let b ← bufAddUi32 (UInt32.ofNat buf.size)
  bufCat b buf

def trlDetransport (a : Buf) : Option Buf := a.rest 4

/-- `enl_decrypt` for `RFC`. -/
def enlDecrypt (m : Buf) : Option Buf := m.rest 8

/-- `hdl_deheader` for `RFC`. The size is lowered before the length is dropped. -/
def hdlDeheader (b : Buf) : Option Buf := do
  let d ← b.rest 8
  d.rest 4

/-- `hdl_deheader` for `CTER`, a message in a container. Its length is the one that it states. -/
def hdlDeheaderCter (b : Buf) : Option Buf := do
  let d ← b.rest 8
  let d ← d.rest 4
  let msgDataLen := bufGetUi32 d
  d.part 4 msgDataLen.toNat

/-! ## The packet that is sent -/

/-- What `hdl_header` makes of a message. -/
def headed (msgId : UInt64) (data : Bytes) : Bytes :=
  le64 msgId ++ le32 (UInt32.ofNat data.length) ++ data

/-- What `trl_transport` makes of a packet. -/
def measured (data : Bytes) : Bytes := le32 (UInt32.ofNat data.length) ++ data

/-- A message with the headers of all layers. -/
def frame (msgId : UInt64) (data : Bytes) : Bytes :=
  measured (List.replicate 8 0 ++ headed msgId data)

theorem length_frame (msgId : UInt64) (data : Bytes) :
    (frame msgId data).length = data.length + 24 := by
  simp only [frame, measured, headed, List.length_append, length_le32, length_le64,
    List.length_replicate]
  omega

theorem hdlHeader_eq (msgId : UInt64) (b : Buf) :
    hdlHeader msgId b = bufAdd (headed msgId b.bytes) := by
  unfold hdlHeader bufAddUi32
  simp only [Option.bind_eq_bind, bufCat_empty, Option.bind_some]
  rw [bufAdd_bufCat_bind, bind_bufCat_right]
  rfl

theorem enlEncrypt_eq (b : Buf) : enlEncrypt b = bufAdd (List.replicate 8 0 ++ b.bytes) :=
  bind_bufCat_right (List.replicate 8 0) b

theorem trlTransport_eq (buf : Buf) : trlTransport buf = bufAdd (measured buf.bytes) :=
  bind_bufCat_right (le32 _) buf

/-- `hdl_header`, `enl_encrypt` and `trl_transport` put the headers in front, if the packet fits. -/
theorem frame_layers (msgId : UInt64) (data : Bytes) :
    ((bufAdd data).bind fun s ↦ (hdlHeader msgId s).bind fun s1 ↦
      (enlEncrypt s1).bind fun e ↦ trlTransport e) = bufAdd (frame msgId data) := by
  have hencrypt (s1 : Buf) : ((enlEncrypt s1).bind fun e ↦ trlTransport e) =
      bufAdd (measured (List.replicate 8 0 ++ s1.bytes)) := by
    rw [enlEncrypt_eq]
    refine bufAdd_bind_longer measured trlTransport_eq fun e ↦ ?_
    simp only [measured, List.length_append]
    omega
  have hheader (s : Buf) :
      ((hdlHeader msgId s).bind fun s1 ↦ (enlEncrypt s1).bind fun e ↦ trlTransport e) =
        bufAdd (frame msgId s.bytes) := by
    rw [hdlHeader_eq]
    refine bufAdd_bind_longer (fun s1 ↦ measured (List.replicate 8 0 ++ s1)) hencrypt fun s1 ↦ ?_
    simp only [measured, List.length_append]
    omega
  refine bufAdd_bind_longer (frame msgId) hheader fun s ↦ ?_
  rw [length_frame]
  omega

/-- The headers are dropped again. -/
theorem layers_frame {packet : Buf} {msgId : UInt64} {data : Bytes}
    (hpacket : packet.bytes = frame msgId data) :
    ∃ tr d s, trlDetransport packet = some tr ∧ enlDecrypt tr = some d ∧ hdlDeheader d = some s ∧
      s.bytes = data := by
  simp only [frame, measured, headed, List.append_assoc] at hpacket
  obtain ⟨tr, htr, hbytes⟩ := rest_append hpacket (length_le32 _)
  obtain ⟨d, hd, hbytes⟩ := rest_append hbytes (List.length_replicate ..)
  obtain ⟨m, hm, hbytes⟩ := rest_append hbytes (length_le64 _)
  obtain ⟨s, hs, hbytes⟩ := rest_append hbytes (length_le32 _)
  refine ⟨tr, d, s, htr, hd, ?_, hbytes⟩
  rw [hdlDeheader, hm, Option.bind_eq_bind, Option.bind_some, hs]

end LibTg.Mtx
