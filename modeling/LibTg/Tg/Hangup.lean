import LibTg.Tg.Receive

/-!
# A peer that closes the connection

If the peer closes the connection before a packet is complete, then `recv` returns zero from some
point on. `_tg_receive` only ends in an error if `recv` has reported a failure before.
-/

namespace LibTg.Tg

def arrivedBytes (arrivals : List Arrival) : Bytes :=
  arrivals.flatMap fun arrival ↦
    match arrival with
    | .data bytes => bytes
    | .failure => []

/-- The connection is closed before the packet is complete: before its length is, or before the
number of bytes that the length announces has come in. -/
def Truncated (arrivals : List Arrival) : Prop :=
  (arrivedBytes arrivals).length < 4 ∨
    (arrivedBytes arrivals).length < 4 + (getUi32 ((arrivedBytes arrivals).take 4)).toNat

/-- `_tg_receive` returns, with `RTL_ERROR`, and has used the length only if it had come in. -/
def EndsInError (progress : Option (ℕ → ℕ → Bool)) (stack : Bytes) (arrivals : List Arrival) :
    Prop :=
  ∃ fuel receipt after, receivePacket progress true stack fuel arrivals = some (receipt, after) ∧
    receipt.incoming = .error ∧ ∀ count ∈ receipt.lengthBytes, count = 4

/-- `recv` fails at once, or it returns the whole length at once, the block of the packet can be
allocated, and `recv` fails later, before it reports that the connection is closed. -/
def ReportsFailure (arrivals : List Arrival) : Prop :=
  (∃ rest, arrivals = .failure :: rest) ∨
    ∃ bytes rest, arrivals = .data bytes :: rest ∧ 4 ≤ bytes.length ∧ .failure ∈ rest ∧
      (getUi32 (bytes.take 4)).toNat + 1 < 2 ^ 32

/-! ## One call of `recv` -/

section Recv

variable {count : ℕ} {arrivals after : List Arrival} {bytes : Bytes}

/-- What `recv` does while the connection may still fail. -/
structure Copies (arrivals : List Arrival) (bytes : Bytes) (after : List Arrival) : Prop where
  bytes_eq : arrivedBytes arrivals = bytes ++ arrivedBytes after
  failure_iff : .failure ∈ after ↔ .failure ∈ arrivals
  shorter : arrivals ≠ [] → (arrivedBytes after).length + after.length <
    (arrivedBytes arrivals).length + arrivals.length

theorem recv_copied (hcount : 0 < count) (h : recv true count arrivals = some (.copied bytes, after)) :
    Copies arrivals bytes after := by
  cases arrivals with
  | nil =>
    cases h
    exact ⟨rfl, Iff.rfl, fun hne ↦ absurd rfl hne⟩
  | cons arrival rest =>
    cases arrival with
    | failure => cases h
    | data arrived =>
      have hmost : 0 < min count intMax := by
        rw [Nat.lt_min]
        exact ⟨hcount, by decide⟩
      rw [recv] at h
      split at h
      case isTrue hlt =>
        cases h
        refine ⟨?_, by simp, fun _ ↦ ?_⟩
        · simp only [arrivedBytes, List.flatMap_cons, ← List.append_assoc, List.take_append_drop]
        · simp only [arrivedBytes, List.flatMap_cons, List.length_append, List.length_drop,
            List.length_cons]
          omega
      case isFalse =>
        cases h
        refine ⟨rfl, by simp, fun _ ↦ ?_⟩
        simp only [arrivedBytes, List.flatMap_cons, List.length_append, List.length_cons]
        omega

/-- A closed connection always has a result. -/
theorem recv_closed (count : ℕ) (arrivals : List Arrival) :
    ∃ result, recv true count arrivals = some result := by
  cases arrivals with
  | nil => exact ⟨_, rfl⟩
  | cons arrival rest =>
    cases arrival with
    | failure => exact ⟨_, rfl⟩
    | data arrived =>
      rw [recv]
      split <;> exact ⟨_, rfl⟩

theorem recv_failed (h : recv true count arrivals = some (.failed, after)) :
    .failure ∈ arrivals := by
  cases arrivals with
  | nil => cases h
  | cons arrival rest =>
    cases arrival with
    | failure => exact List.mem_cons_self
    | data arrived =>
      rw [recv] at h
      split at h <;> cases h

end Recv

/-! ## The loop -/

section Loop

variable {progress : Option (ℕ → ℕ → Bool)} {len : ℕ}

/-- With no failure to come the loop does not end. -/
theorem receiveBody_endless (hpatient : Patient progress) (fuel : ℕ) {received : Bytes}
    {arrivals : List Arrival} (hfailure : .failure ∉ arrivals)
    (hshort : received.length + (arrivedBytes arrivals).length < len) :
    receiveBody progress true len fuel received arrivals = none := by
  induction fuel generalizing received arrivals with
  | zero => rfl
  | succ fuel ih =>
    obtain ⟨⟨outcome, after⟩, hrecv⟩ := recv_closed (len - received.length) arrivals
    rw [receiveBody_step hpatient (by omega), hrecv, Option.bind_some]
    cases outcome with
    | failed => exact absurd (recv_failed hrecv) hfailure
    | copied bytes =>
      have hcopies := recv_copied (by omega) hrecv
      rw [hcopies.bytes_eq, List.length_append] at hshort
      apply ih
      · rw [hcopies.failure_iff]
        exact hfailure
      · rw [List.length_append]
        dsimp only
        omega

/-- A failure to come ends the loop. -/
theorem receiveBody_fails (hpatient : Patient progress) (size : ℕ) {received : Bytes}
    {arrivals : List Arrival} (hsize : (arrivedBytes arrivals).length + arrivals.length ≤ size)
    (hfailure : .failure ∈ arrivals)
    (hshort : received.length + (arrivedBytes arrivals).length < len) :
    ∃ fuel after, receiveBody progress true len fuel received arrivals = some (.error, after) := by
  induction size generalizing received arrivals with
  | zero =>
    have hpos := List.length_pos_of_mem hfailure
    omega
  | succ size ih =>
    obtain ⟨⟨outcome, next⟩, hrecv⟩ := recv_closed (len - received.length) arrivals
    have hstep (fuel : ℕ) : receiveBody progress true len (fuel + 1) received arrivals = _ :=
      receiveBody_step hpatient (by omega)
    simp only [hrecv, Option.bind_some] at hstep
    cases outcome with
    | failed => exact ⟨1, next, hstep 0⟩
    | copied bytes =>
      have hcopies := recv_copied (by omega) hrecv
      have hshorter := hcopies.shorter (List.ne_nil_of_mem hfailure)
      rw [hcopies.bytes_eq, List.length_append] at hshort
      obtain ⟨fuel, after, hrest⟩ := @ih (received ++ bytes) next (by omega)
        (hcopies.failure_iff.mpr hfailure) (by rw [List.length_append]; omega)
      exact ⟨fuel + 1, after, (hstep fuel).trans hrest⟩

end Loop

/-! ## The whole packet -/

section Packet

variable {progress : Option (ℕ → ℕ → Bool)} {stack : Bytes}

/-- The first call of `recv` has returned less than a length. -/
theorem not_endsInError_of_short {arrivals after : List Arrival} {bytes : Bytes}
    (hrecv : recv true 4 arrivals = some (.copied bytes, after)) (hshort : bytes.length < 4) :
    ¬ EndsInError progress stack arrivals := by
  rintro ⟨fuel, receipt, final, hreceive, -, hlength⟩
  rw [receivePacket, hrecv, Option.bind_eq_bind, Option.bind_some] at hreceive
  dsimp only at hreceive
  split at hreceive
  · obtain ⟨result, -, hresult⟩ := Option.bind_eq_some_iff.mp hreceive
    cases hresult
    exact absurd (hlength _ rfl) hshort.ne
  · cases hreceive

/-- The first call of `recv` has returned the length. -/
theorem endsInError_of_length {arrivals after : List Arrival} {bytes : Bytes}
    (hrecv : recv true 4 arrivals = some (.copied bytes, after)) (hfour : bytes.length = 4) :
    EndsInError progress stack arrivals ↔ (getUi32 bytes).toNat + 1 < 2 ^ 32 ∧
      ∃ fuel final, receiveBody progress true (getUi32 bytes).toNat fuel [] after =
        some (.error, final) := by
  have htake : (bytes ++ stack.drop bytes.length).take 4 = bytes := List.take_left' hfour
  have hreceive (fuel : ℕ) : receivePacket progress true stack fuel arrivals =
      if (getUi32 bytes).toNat + 1 < 2 ^ 32 then
        (receiveBody progress true (getUi32 bytes).toNat fuel [] after).map fun result ↦
          (⟨result.1, some bytes.length⟩, result.2)
      else none := by
    rw [receivePacket, hrecv, Option.bind_eq_bind, Option.bind_some]
    dsimp only
    rw [htake]
    split
    · cases receiveBody progress true (getUi32 bytes).toNat fuel [] after <;> rfl
    · rfl
  constructor
  · rintro ⟨fuel, receipt, final, hresult, herror, -⟩
    rw [hreceive] at hresult
    split at hresult
    case isTrue hroom =>
      obtain ⟨result, hbody, hpair⟩ := Option.map_eq_some_iff.mp hresult
      cases hpair
      exact ⟨hroom, fuel, result.2, by rw [hbody, ← herror]⟩
    case isFalse => cases hresult
  · rintro ⟨hroom, fuel, final, hbody⟩
    refine ⟨fuel, ⟨.error, some bytes.length⟩, final, ?_, rfl, ?_⟩
    · rw [hreceive, if_pos hroom, hbody, Option.map_some]
    · rintro count ⟨⟩
      exact hfour

/-- The first call of `recv` returns what there is of the length. -/
theorem recv_length (bytes : Bytes) (rest : List Arrival) : ∃ after,
    recv true 4 (.data bytes :: rest) = some (.copied (bytes.take 4), after) := by
  have hmost : min 4 intMax = 4 := by decide
  rw [recv, hmost]
  split
  case isTrue => exact ⟨_, rfl⟩
  case isFalse hle => exact ⟨rest, by rw [List.take_of_length_le (not_lt.mp hle)]⟩

/-- A body that is cut off ends in an error exactly if `recv` reports a failure before the end. -/
theorem receiveBody_error_iff (hpatient : Patient progress) {len : ℕ} {arrivals : List Arrival}
    (hshort : (arrivedBytes arrivals).length < len) :
    (∃ fuel after, receiveBody progress true len fuel [] arrivals = some (.error, after)) ↔
      .failure ∈ arrivals := by
  have hshort' : ([] : Bytes).length + (arrivedBytes arrivals).length < len := by
    rw [List.length_nil, Nat.zero_add]
    exact hshort
  constructor
  · rintro ⟨fuel, after, hbody⟩
    by_contra hfailure
    rw [receiveBody_endless hpatient fuel hfailure hshort'] at hbody
    cases hbody
  · intro hfailure
    exact receiveBody_fails hpatient _ le_rfl hfailure hshort'

/-- `_tg_receive` of a packet that is cut off ends in an error exactly if `recv` reports a failure
before the end. -/
theorem endsInError_iff (hpatient : Patient progress) {arrivals : List Arrival}
    (htruncated : Truncated arrivals) :
    EndsInError progress stack arrivals ↔ ReportsFailure arrivals := by
  cases arrivals with
  | nil =>
    apply iff_of_false
    · have hnothing : recv true 4 [] = some (.copied [], []) := rfl
      exact not_endsInError_of_short hnothing (by decide)
    · rintro (⟨rest, heq⟩ | ⟨bytes, rest, heq, -⟩) <;> cases heq
  | cons arrival rest =>
    cases arrival with
    | failure => exact iff_of_true ⟨0, _, rest, rfl, rfl, nofun⟩ (.inl ⟨rest, rfl⟩)
    | data bytes =>
      have hreports : ReportsFailure (.data bytes :: rest) ↔ 4 ≤ bytes.length ∧
          .failure ∈ rest ∧ (getUi32 (bytes.take 4)).toNat + 1 < 2 ^ 32 := by
        simp [ReportsFailure]
      rw [hreports]
      obtain ⟨after, hrecv⟩ := recv_length bytes rest
      by_cases hfour : 4 ≤ bytes.length
      · have hlength : (bytes.take 4).length = 4 := List.length_take_of_le hfour
        have hcopies := recv_copied (by decide) hrecv
        have hfailure : .failure ∈ after ↔ .failure ∈ rest := by
          rw [hcopies.failure_iff]
          simp
        have hshort : (arrivedBytes after).length < (getUi32 (bytes.take 4)).toNat := by
          have htake : (arrivedBytes (.data bytes :: rest)).take 4 = bytes.take 4 :=
            List.take_append_of_le_length hfour
          have htotal := congrArg List.length hcopies.bytes_eq
          rw [List.length_append, hlength] at htotal
          rw [Truncated, htake] at htruncated
          omega
        rw [endsInError_of_length hrecv hlength, receiveBody_error_iff hpatient hshort, hfailure]
        tauto
      · have hlength : (bytes.take 4).length < 4 := by
          rw [List.length_take]
          omega
        exact iff_of_false (not_endsInError_of_short hrecv hlength) fun h ↦ hfour h.1

end Packet

/-! ## A connection that breaks, and one that is closed -/

/-- The length of a packet of 64 bytes, and nine of them. -/
def cutPacket : Bytes := le32 64 ++ List.replicate 9 0

theorem resetPacket_endsInError :
    EndsInError none [1, 2, 3, 4] [.data cutPacket, .failure] := by
  have htruncated : Truncated [.data cutPacket, .failure] := by
    refine .inr ?_
    decide +kernel
  have hpatient : Patient none := nofun
  exact (endsInError_iff hpatient htruncated).mpr
    (.inr ⟨cutPacket, [.failure], rfl, by decide +kernel, List.mem_singleton_self _,
      by decide +kernel⟩)

/-- The peer closes the connection inside the body, and `_tg_receive` never returns. -/
theorem closedPacket_not_endsInError :
    ¬ EndsInError none [1, 2, 3, 4] [.data cutPacket] := by
  have hshort : ([] : Bytes).length + (arrivedBytes [.data (cutPacket.drop 4)]).length < 64 := by
    decide +kernel
  have hrecv : recv true 4 [.data cutPacket] =
      some (.copied (le32 64), [.data (cutPacket.drop 4)]) := by
    decide +kernel
  have hlen : (getUi32 (le32 64)).toNat = 64 := by rw [getUi32_le32]; rfl
  rw [endsInError_of_length hrecv (length_le32 64), hlen]
  rintro ⟨-, fuel, final, hbody⟩
  have hpatient : Patient none := nofun
  rw [receiveBody_endless hpatient fuel (by decide) hshort] at hbody
  cases hbody

end LibTg.Tg
