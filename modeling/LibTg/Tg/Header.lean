import LibTg.Tg.State
import LibTg.Tl.Cursor

/-!
# Packet headers (`tg/header.c`, `tg/ack.c`)

`tg_header` puts a query into a packet. If acknowledgements are pending it sends a container with
the query, one `msgs_ack` and one `rpc_drop_answer` for each answer to drop; otherwise the query
alone. `tg_deheader` takes the packet apart again.
-/

namespace LibTg.Tg

open LibTg.Tl

def msgsAck : Method where
  name := "msgs_ack"
  id := 0x62d6b459
  args := [⟨"msg_ids", some "Vector<long>", 0, 0⟩]
  isMtproto := true

def rpcDropAnswer : Method where
  name := "rpc_drop_answer"
  id := 0x58e4a740
  args := [⟨"req_msg_id", some "long", 0, 0⟩]
  isMtproto := true

def idMsgContainer : UInt32 := 0x73f1f8dc

section Header

variable (moves : ℕ → Bool) (clock : ℕ → Timespec) (rand : ℕ → UInt8)

/-- `tg_mtp_message`: the message, its id and the session after it. -/
def tgMtpMessage (tg : Session) (payload : Bytes) (content : Bool) :
    Option (Buf × UInt64 × Session) := do
  let (msgId, tg) := tgGetCurrentTime clock tg
  let msg ← bufCat moves bufNew (le64 msgId)
  let (seqno, tg) := takeSeqno tg content
  let msg ← bufCat moves msg (le32 seqno)
  let msg ← bufCat moves msg (le32 (UInt32.ofNat payload.length))
  let msg ← bufCat moves msg payload
  some (msg, msgId, tg)

/-- `tg_ack`: an empty buffer, or a `msgs_ack` of all pending ids, which are then forgotten. -/
def tgAck (tg : Session) : Option (Buf × Session) :=
  if tg.msgids.length < 1 then some (bufNew, tg)
  else do
    let ack ← tlMethod moves msgsAck [.vec (tg.msgids.map .u64)]
    some (ack, { tg with msgids := [] })

/-- The loop of `tg_to_drop`. -/
def dropLoop (tg : Session) (buf : Buf) : List UInt64 → Option (Buf × Session)
  | [] => some (buf, tg)
  | msgid :: rest => do
    let drop ← tlMethod moves rpcDropAnswer [.one (.u64 msgid)]
    let (msg, _, tg) ← tgMtpMessage moves clock tg drop.bytes true
    let buf ← bufCat moves buf msg.bytes
    dropLoop tg buf rest

/-- `tg_to_drop`: the messages, how many they are, and the session after it. -/
def tgToDrop (tg : Session) (buf : Buf) : Option (Buf × ℕ × Session) :=
  if tg.todrop.length < 1 then some (buf, 0, tg)
  else do
    let (buf, after) ← dropLoop moves clock tg buf tg.todrop
    some (buf, tg.todrop.length, { after with todrop := [] })

/-- The part of `tg_header` that fills `buf` and may set `*msgid`: a container if there is
something to acknowledge, else the query. The second result is `*msgid` afterwards, the third is
`content`. -/
def tgPayload (tg : Session) (query : Bytes) (content : Bool) :
    Option (Buf × UInt64 × Bool × Session) := do
  let (ack, tg) ← tgAck moves tg
  if ack.size > 0 then
    let (first, msgId, tg) ← tgMtpMessage moves clock tg query true
    let (second, _, tg) ← tgMtpMessage moves clock tg ack.bytes false
    let buf ← bufAdd moves (le32 idMsgContainer)
    let (todrop, len, tg) ← tgToDrop moves clock tg bufNew
    let buf ← bufCat moves buf (le32 (UInt32.ofNat (2 + len)))
    let buf ← bufCat moves buf first.bytes
    let buf ← bufCat moves buf second.bytes
    let buf ← bufCat moves buf todrop.bytes
    some (buf, msgId, false, tg)
  else
    let buf ← bufCat moves bufNew query
    some (buf, 0, content, tg)

def bufRand (count : ℕ) : Bytes := (List.range count).map rand

/-- `tg_header`, for a pointer to a variable that holds `msgid`: the packet, the value of the
variable afterwards and the session after it. -/
def tgHeader (tg : Session) (query : Bytes) (enc content : Bool) (msgid : UInt64) :
    Option (Buf × UInt64 × Session) :=
  if enc then do
    let (buf, msgid, content, tg) ← tgPayload moves clock tg query content
    let s ← bufCat moves bufNew tg.salt
    let s ← bufCat moves s tg.ssid
    let (outer, tg) := tgGetCurrentTime clock tg
    let s ← bufCat moves s (le64 outer)
    let (seqno, tg) := takeSeqno tg content
    let s ← bufCat moves s (le32 seqno)
    let s ← bufCat moves s (le32 (UInt32.ofNat buf.size))
    let s ← bufCat moves s buf.bytes
    let s ← bufCat moves s (bufRand rand (16 + (16 - buf.size % 16) % 16))
    some (s, if msgid = 0 then outer else msgid, tg)
  else do
    let s ← bufCat moves bufNew (le64 0)
    let (msgId, tg) := tgGetCurrentTime clock tg
    let s ← bufCat moves s (le64 msgId)
    let s ← bufCat moves s (le32 (UInt32.ofNat query.length))
    let s ← bufCat moves s query
    some (s, msgid, tg)

variable (model : DataModel)

/-- A buffer that is about to be read. -/
def bufCursor (buf : Buf) : Cursor := ⟨buf.mem, 0, UInt32.ofNat buf.size⟩

theorem length_bytes (packet : Buf) : packet.bytes.length = packet.size := by
  have hle := packet.size_le
  rw [Buf.bytes, List.length_take, packet.mem_length]
  omega

/-- A buffer is read from the start of its contents, with the rest of its block behind them. -/
theorem bufCursor_eq (packet : Buf) :
    ∃ slack, bufCursor packet = cursorAt packet.bytes slack 0 := by
  refine ⟨packet.mem.drop packet.size, ?_⟩
  rw [bufCursor, cursorAt, length_bytes, Buf.bytes, List.take_append_drop, Nat.sub_zero]
  rfl

/-- `tg_deheader`. The session id is only compared for the log. -/
def tgDeheader (tg : Session) (packet : Buf) (enc : Bool) : Option (Buf × Session) :=
  if packet.size = 0 then some (packet, tg)
  else if enc then do
    let (salt, cursor) ← deserializeUi64 model (bufCursor packet)
    let (_, cursor) ← deserializeUi64 model cursor
    let (msgId, cursor) ← deserializeUi64 model cursor
    let tg := tgAddMsgid { tg with salt := le64 salt } msgId
    let (_, cursor) ← deserializeUi32 model cursor
    let (len, cursor) ← deserializeUi32 model cursor
    let data ← cursor.read len.toNat
    let d ← bufCat moves bufNew data
    some (d, tg)
  else do
    let id ← (bufCursor packet).read 8
    if getUi64 id ≠ 0 then some (packet, tg)
    else
      let (_, cursor) ← deserializeUi64 model (bufCursor packet)
      let (_, cursor) ← deserializeUi64 model cursor
      let (_, cursor) ← deserializeUi32 model cursor
      let data ← cursor.read cursor.size.toNat
      let d ← bufCat moves bufNew data
      some (d, tg)

/-- `deserialize_mtp_message` repeated. -/
def deserializeMtpMessages : ℕ → Cursor → Option (List MtpMessage × Cursor)
  | 0, cursor => some ([], cursor)
  | count + 1, cursor => do
    let (first, cursor) ← deserializeMtpMessage model cursor
    let (rest, cursor) ← deserializeMtpMessages count cursor
    some (first :: rest, cursor)

end Header

end LibTg.Tg
