import LibTg.Tg.Header
import LibTg.Tl.Relocate

/-!
# Receiving a message (`tg/queue.c`, `tg/errors.c`)

`_tg_receive` decodes a message and hands it to `handle_tl`, which takes containers and compressed
objects apart and passes every answer to `catched_tl`. A message that these functions follow a null
pointer or leave a buffer for has no result. What they do is a list of events, in the order of the
calls; `tg->queue` is the only state that they read back.
-/

namespace LibTg.Tg

open LibTg.Tl

/-! ## The constructors that are told apart -/

def gzipPacked : Method where
  name := "gzip_packed"
  id := 0x3072cfa1
  args := [⟨"packed_data", some "bytes", 0, 0⟩]
  isMtproto := true

def msgContainer : Method where
  name := "msg_container"
  id := idMsgContainer
  args := [⟨"messages", some "vector<%Message>", 0, 0⟩]
  isMtproto := true

def rpcResult : Method where
  name := "rpc_result"
  id := 0xf35c6d01
  args := [⟨"req_msg_id", some "long", 0, 0⟩, ⟨"result", some "Object", 0, 0⟩]
  isMtproto := true

def rpcError : Method where
  name := "rpc_error"
  id := 0x2144ca19
  args := [⟨"error_code", some "int", 0, 0⟩, ⟨"error_message", some "string", 0, 0⟩]
  isMtproto := true

def msgDetailedInfo : Method where
  name := "msg_detailed_info"
  id := 0x276d3ec6
  args := [⟨"msg_id", some "long", 0, 0⟩, ⟨"answer_msg_id", some "long", 0, 0⟩,
    ⟨"bytes", some "int", 0, 0⟩, ⟨"status", some "int", 0, 0⟩]
  isMtproto := true

def msgNewDetailedInfo : Method where
  name := "msg_new_detailed_info"
  id := 0x809db6df
  args := [⟨"answer_msg_id", some "long", 0, 0⟩, ⟨"bytes", some "int", 0, 0⟩,
    ⟨"status", some "int", 0, 0⟩]
  isMtproto := true

def idBadMsgNotification : UInt32 := 0xa7eff811

def idBadServerSalt : UInt32 := 0xedab447b

/-- The constructors of `Updates`: `updatesTooLong`, `updateShort`, `updateShortMessage`,
`updateShortChatMessage`, `updateShortSentMessage`, `updatesCombined` and `updates`. -/
def updatesIds : List UInt32 :=
  [0xe317af7e, 0x78d4dec1, 0x313bc7f8, 0x4d6deea5, 0x9015e101, 0x725b04c3, 0x74ae4240]

/-! ## Fields -/

/-- A field of type `string` or `bytes`. -/
def bufField (tl : TlObj) (index : ℕ) : Option Bytes :=
  match tl.fields[index]? with
  | some (.buf bytes) => some bytes
  | _ => none

/-- A field of type `long`. -/
def longField (tl : TlObj) (index : ℕ) : Option UInt64 :=
  match tl.fields[index]? with
  | some (.long value) => some value
  | _ => none

def objectField (tl : TlObj) (index : ℕ) : Option (Option TlObj) :=
  match tl.fields[index]? with
  | some (.object inner) => some inner
  | _ => none

def messageElem : Field → Option MtpMessage
  | .message message => some message
  | _ => none

/-- The elements of `messages_` that the loop over `messages_len` visits. A length that the decoder
has refused stays in the field, with no elements behind it. -/
def messagesField (tl : TlObj) : Option (List MtpMessage) :=
  match tl.fields.head? with
  | some (.vector len elems) =>
    let count := (intOfUi32 len).toNat
    if count ≤ elems.length then (elems.take count).mapM messageElem else none
  | _ => none

/-! ## Errors of the server -/

def cString (bytes : Bytes) : List Char :=
  (bytes.takeWhile (· ≠ 0)).map fun byte ↦ Char.ofNat byte.toNat

/-- The digits that `atoi` reads. -/
def digitsValue (text : List Char) : ℤ :=
  (text.takeWhile Char.isDigit).foldl (fun value digit ↦ 10 * value + (digit.toNat - 48)) 0

def atoi (text : List Char) : ℤ :=
  match text.dropWhile fun c ↦ c = ' ' ∨ (9 ≤ c.toNat ∧ c.toNat ≤ 13) with
  | '-' :: rest => -digitsValue rest
  | '+' :: rest => digitsValue rest
  | rest => digitsValue rest

def tgErrorGetNum (error : List Char) (pattern : String) : ℤ :=
  match strstr pattern.toList error with
  | some str => atoi (str.drop pattern.length)
  | none => 0

/-- The number of entries of `DCs`, with `DCNULL`. -/
def dcCount : ℕ := 9

/-- `RPC_ERROR`. -/
def rpcErrorText (tl : TlObj) : Option (List Char) := (bufField tl 1).map cString

/-! ## Events -/

/-- A listed `tg_queue_t`: which one it is, its `msgid` and `loop`, and whether it has an
`on_done`. -/
structure Queue where
  key : ℕ
  msgid : UInt64
  loop : Bool
  onDone : Bool
  deriving DecidableEq

/-- What a received message makes the program do: `tg_add_msgid`, a call of `catched_tl`, a call of
`on_done`, `migrate_to_dc` (and whether it changes the main address), `flood_wait_for_seconds`,
`loop = false`, an assignment to `timediff`, and `tg_do_updates`. -/
inductive Event
  | addMsgid (id : UInt64)
  | catchedTl (msgId : UInt64) (tl : Option TlObj)
  | onDone (queue : ℕ) (tl : Option TlObj)
  | migrate (queue : ℕ) (dc : ℕ) (main : Bool)
  | floodWait (queue : ℕ) (seconds : ℤ)
  | stop (queue : ℕ)
  | timediff (value : ℤ)
  | doUpdates (tl : TlObj)

/-- `if (queue->on_done) queue->on_done(queue->userdata, tl)`. -/
def Queue.done (queue : Queue) (tl : Option TlObj) : List Event :=
  if queue.onDone then [.onDone queue.key tl] else []

/-- What `gunzip_buf` leaves: whether it has succeeded, and the buffer `dst` in any case. -/
structure Gunzipped where
  ok : Bool
  block : Bytes
  size : UInt32

/-- The buffer that has been written. -/
def Gunzipped.cursor (result : Gunzipped) : Cursor := ⟨result.block, 0, result.size⟩

/-- `migrate_to_dc` and `flood_wait_for_seconds`, if the text of an `rpc_error` asks for them. An
entry outside `DCs` has no meaning. -/
def requeue (queue : ℕ) (error : List Char) : Option (List Event) :=
  let dc := tgErrorGetNum error "MIGRATE_"
  let wait := tgErrorGetNum error "FLOOD_WAIT_"
  if dc ≠ 0 then
    if 0 ≤ dc ∧ dc < dcCount then
      some [.migrate queue dc.toNat (tgErrorGetNum error "FILE_MIGRATE_" = 0), .stop queue]
    else none
  else if wait ≠ 0 then some [.floodWait queue wait, .stop queue]
  else some []

section Receive

variable (model : DataModel) (table : List Method) (gunzip : Bytes → Gunzipped)

/-- The object inside a `gzip_packed` that is an answer. -/
def unpack (tl : TlObj) : Option (Option TlObj) := do
  let packed ← bufField tl 0
  let result := gunzip packed
  if result.ok then (tlDeserialize model table result.cursor).map Prod.fst else some none

/-- `catched_tl` for a queue in its loop and an object. -/
def caught (queue : Queue) (tl : TlObj) : Option (List Event) :=
  if tl.id = gzipPacked.id then
    (unpack model table gunzip tl).map fun inner ↦ queue.done inner ++ [.stop queue.key]
  else if tl.id = idBadMsgNotification then
    some (.timediff ntpTimeDiff :: (queue.done none ++ [.stop queue.key]))
  else if tl.id = rpcError.id then do
    let error ← rpcErrorText tl
    let events ← requeue queue.key error
    if events.length > 0 then some events else some (queue.done (some tl) ++ [.stop queue.key])
  else some (queue.done (some tl) ++ [.stop queue.key])

def catchedTl (queues : List Queue) (msgId : UInt64) (tl : Option TlObj) :
    Option (List Event × List Queue) :=
  match listCut (fun queue : Queue ↦ queue.msgid = msgId) queues with
  | (none, queues) => some ([], queues)
  | (some queue, queues) =>
    if ¬ queue.loop then some ([], queues)
    else
      match tl with
      | none => some (queue.done none, queues)
      | some tl => (caught model table gunzip queue tl).map (·, queues)

/-- A call of `catched_tl`, as an event followed by what it does. -/
def callCatchedTl (queues : List Queue) (msgId : UInt64) (tl : Option TlObj) :
    Option (List Event × List Queue) :=
  (catchedTl model table gunzip queues msgId tl).map (Prod.map (.catchedTl msgId tl :: ·) id)

/-- `loop = false` for the queue that receives. -/
def stopQueue (own : ℕ) (queues : List Queue) : List Queue :=
  queues.map fun queue ↦ if queue.key = own then { queue with loop := false } else queue

/-- The loop over the messages of a container, for a given way to handle an object. -/
def handleMessages
    (handle : Option TlObj → List Queue → Option (List Event × List Queue)) :
    List MtpMessage → List Queue → Option (List Event × List Queue)
  | [], queues => some ([], queues)
  | message :: rest, queues => do
    let (tl, _) ← tlDeserialize model table (cursorAt message.body [] 0)
    let (events, queues) ← handle tl queues
    let (later, queues) ← handleMessages handle rest queues
    some (.addMsgid (UInt64.ofInt message.msgId) :: (events ++ later), queues)

/-- `handle_tl` in the thread of the queue `own`, up to a nesting depth of `fuel`. An error of
`gunzip_buf` is only reported. -/
def handleTl (own : ℕ) :
    ℕ → Option TlObj → List Queue → Option (List Event × List Queue)
  | 0, _, _ => none
  | _ + 1, none, queues => some ([], queues)
  | fuel + 1, some tl, queues =>
    if tl.id = gzipPacked.id then do
      let packed ← bufField tl 0
      let (inner, _) ← tlDeserialize model table (gunzip packed).cursor
      handleTl own fuel inner queues
    else if tl.id = msgContainer.id then do
      let messages ← messagesField tl
      handleMessages model table (handleTl own fuel) messages queues
    else if tl.id = idBadMsgNotification then some ([.timediff ntpTimeDiff], queues)
    else if tl.id = rpcError.id then do
      let error ← rpcErrorText tl
      let events ← requeue own error
      some (events, if events.length > 0 then stopQueue own queues else queues)
    else if tl.id = msgDetailedInfo.id then do
      let answer ← longField tl 1
      callCatchedTl model table gunzip queues answer none
    else if tl.id = msgNewDetailedInfo.id then do
      let answer ← longField tl 0
      callCatchedTl model table gunzip queues answer none
    else if tl.id = rpcResult.id then do
      let reqMsgId ← longField tl 0
      let result ← objectField tl 1
      callCatchedTl model table gunzip queues reqMsgId result
    else if tl.id ∈ updatesIds then some ([.doUpdates tl], queues)
    else some ([], queues)

/-- `enum RTL`. -/
inductive Rtl
  | exit
  | error
  | reread
  | resend
  deriving DecidableEq

/-- `_tg_receive` from the message that `tg_deheader` has returned on, which stands at the start of
its block. A `NULL` for an unknown constructor is dereferenced. -/
def tgReceive (own fuel : ℕ) (msg slack : Bytes) (queues : List Queue) :
    Option (Rtl × List Event × List Queue) := do
  let (tl, _) ← tlDeserialize model table (cursorAt msg slack 0)
  let tl ← tl
  if tl.id = idBadServerSalt then some (.resend, [], queues)
  else do
    let (events, queues) ← handleTl model table gunzip own fuel (some tl) queues
    some (.reread, events, queues)

end Receive

/-- Fuel that is enough for a message and what it wraps. -/
theorem exists_succ_of_le {depth fuel : ℕ} (h : depth + 1 ≤ fuel) :
    ∃ less, fuel = less + 1 ∧ depth ≤ less :=
  ⟨fuel - 1, by omega, by omega⟩

end LibTg.Tg
