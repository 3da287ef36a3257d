import LibTg.Data.Chunks
import LibTg.Data.LittleEndian

/-!
# Receiving a packet (`_tg_receive`)

`_tg_receive` calls `recv` for the four bytes of a length, without a look at how many it has got, and
then in a loop for as many bytes as the length says. A result of zero, with which `recv` reports that
the peer has closed the connection, is taken for progress of no bytes. The bytes of the length that
have not come in are what was on the stack before.
-/

namespace LibTg.Tg

/-- What happens on a connection: bytes arrive, or the next call of `recv` fails. -/
inductive Arrival
  | data (bytes : Bytes)
  | failure
  deriving DecidableEq

/-- A result of `recv`: negative, or the number of bytes that it has copied. -/
inductive RecvResult
  | failed
  | copied (bytes : Bytes)
  deriving DecidableEq

/-- `INT_MAX`. No call of `recv` transfers more. -/
def intMax : ℕ := 2 ^ 31 - 1

/-- `recv` for at most `count` bytes. At the end it reports a closed connection, or blocks on one
that is open. -/
def recv (closed : Bool) (count : ℕ) : List Arrival → Option (RecvResult × List Arrival)
  | [] => if closed then some (.copied [], []) else none
  | .failure :: rest => some (.failed, rest)
  | .data bytes :: rest =>
    let most := min count intMax
    if most < bytes.length then some (.copied (bytes.take most), .data (bytes.drop most) :: rest)
    else some (.copied bytes, rest)

/-- How receiving a packet ends: with `RTL_ERROR`, with `RTL_EXIT`, or with the packet. -/
inductive Incoming
  | error
  | exit
  | packet (bytes : Bytes)
  deriving DecidableEq

/-- How it ended, and if the length was used, how many of its bytes had come in. -/
structure Receipt where
  incoming : Incoming
  lengthBytes : Option ℕ
  deriving DecidableEq

section Receive

variable (progress : Option (ℕ → ℕ → Bool)) (closed : Bool)

/-- The loop over the body of a packet of `len` bytes, for at most `fuel` calls of `recv`. A callback
that returns a value other than zero cancels it. -/
def receiveBody (len : ℕ) : ℕ → Bytes → List Arrival → Option (Incoming × List Arrival)
  | 0, _, _ => none
  | fuel + 1, received, arrivals =>
    if received.length < len then do
      let (result, arrivals) ← recv closed (len - received.length) arrivals
      match result with
      | .failed => some (.error, arrivals)
      | .copied bytes =>
        let received := received ++ bytes
        if progress.any fun callback ↦ callback received.length len then some (.exit, arrivals)
        else receiveBody len fuel received arrivals
    else some (.packet received, arrivals)

/-- `_tg_receive` up to the point where the packet is complete, with the four bytes of `stack` in
the variable `len`. The block of the packet has `len + 1` bytes, in 32-bit arithmetic. -/
def receivePacket (stack : Bytes) (fuel : ℕ) (arrivals : List Arrival) :
    Option (Receipt × List Arrival) := do
  let (result, arrivals) ← recv closed 4 arrivals
  match result with
  | .failed => some (⟨.error, none⟩, arrivals)
  | .copied bytes =>
    let len := (getUi32 ((bytes ++ stack.drop bytes.length).take 4)).toNat
    if len + 1 < 2 ^ 32 then
      let (incoming, arrivals) ← receiveBody progress closed len fuel [] arrivals
      some (⟨incoming, some bytes.length⟩, arrivals)
    else none

/-- One call of `_tg_receive` after the other, each with what it finds on the stack: the packets, if
every call gets one. -/
def receivePackets (fuel : ℕ) : List Bytes → List Arrival → Option (List Bytes × List Arrival)
  | [], arrivals => some ([], arrivals)
  | stack :: others, arrivals => do
    let (receipt, arrivals) ← receivePacket progress closed stack fuel arrivals
    match receipt.incoming with
    | .packet bytes =>
      let (later, arrivals) ← receivePackets fuel others arrivals
      some (bytes :: later, arrivals)
    | _ => none

end Receive

/-- No progress callback cancels the download. -/
def Patient (progress : Option (ℕ → ℕ → Bool)) : Prop :=
  ∀ callback ∈ progress, ∀ received total, callback received total = false

/-! ## The loop over the body -/

section Body

variable {progress : Option (ℕ → ℕ → Bool)} {closed : Bool} {len fuel : ℕ} {received : Bytes}
  {arrivals : List Arrival}

/-- The loop is at its end. -/
theorem receiveBody_done (h : len ≤ received.length) :
    receiveBody progress closed len (fuel + 1) received arrivals =
      some (.packet received, arrivals) := by
  rw [receiveBody, if_neg (not_lt.mpr h)]

/-- The loop calls `recv`. -/
theorem receiveBody_step (hpatient : Patient progress) (h : received.length < len) :
    receiveBody progress closed len (fuel + 1) received arrivals =
      (recv closed (len - received.length) arrivals).bind fun result ↦
        match result.1 with
        | .failed => some (.error, result.2)
        | .copied bytes => receiveBody progress closed len fuel (received ++ bytes) result.2 := by
  rw [receiveBody, if_pos h, Option.bind_eq_bind]
  refine congrArg _ (funext fun result ↦ ?_)
  obtain ⟨outcome, after⟩ := result
  cases outcome with
  | failed => rfl
  | copied bytes =>
    have hgoes : ¬ (progress.any fun callback ↦
        callback (received ++ bytes).length len) = true := by
      intro hcancel
      obtain ⟨callback, hcallback, hcancel⟩ := (Option.any_eq_true _ _).mp hcancel
      rw [hpatient callback hcallback] at hcancel
      cases hcancel
    exact if_neg hgoes

/-- More fuel does not change the result. -/
theorem receiveBody_mono {result : Incoming × List Arrival} {more : ℕ}
    (h : receiveBody progress closed len fuel received arrivals = some result) (hle : fuel ≤ more) :
    receiveBody progress closed len more received arrivals = some result := by
  induction fuel generalizing more received arrivals with
  | zero => cases h
  | succ fuel ih =>
    obtain ⟨more, rfl⟩ : ∃ less, more = less + 1 := ⟨more - 1, by omega⟩
    rw [receiveBody] at h ⊢
    split at h
    case isTrue hlt =>
      rw [if_pos hlt]
      obtain ⟨⟨outcome, after⟩, hrecv, hrest⟩ := Option.bind_eq_some_iff.mp h
      rw [hrecv, Option.bind_eq_bind, Option.bind_some]
      cases outcome with
      | failed => exact hrest
      | copied bytes =>
        dsimp only at hrest ⊢
        split at hrest
        case isTrue hcancel => rw [if_pos hcancel, hrest]
        case isFalse hgoes =>
          rw [if_neg hgoes]
          exact ih hrest (Nat.le_of_succ_le_succ hle)
    case isFalse hle' => rw [if_neg hle', h]

end Body

end LibTg.Tg
