import LibTg.Tg.Receive

/-!
# Frames on a stream

A server sends packets one after the other, each behind its length. The connection delivers this
stream in chunks that have nothing to do with the packets. `_tg_receive` puts a body together from
any number of chunks, but takes the length from a single call of `recv`.
-/

namespace LibTg.Tg

/-- The packets as they are sent, each behind the four bytes of its length. -/
def frameStream (frames : List Bytes) : Bytes :=
  frames.flatMap fun body ↦ le32 (UInt32.ofNat body.length) ++ body

/-- As many calls of `_tg_receive` as there are packets return exactly these packets, whatever they
find on the stack, and leave nothing behind. -/
def ReceivesFrames (progress : Option (ℕ → ℕ → Bool)) (frames chunks : List Bytes) : Prop :=
  ∀ garbage : List Bytes, garbage.length = frames.length → ∃ fuel,
    receivePackets progress false fuel garbage (chunks.map .data) = some (frames, [])

/-- No chunk ends inside a length, and every packet with its spare byte fits a 32-bit size. -/
def WholeLengths (frames chunks : List Bytes) : Prop :=
  ∀ before body after, frames = before ++ body :: after → body.length + 1 < 2 ^ 32 ∧
    ∀ cut, IsCut chunks cut →
      ¬ ((frameStream before).length < cut ∧ cut < (frameStream before).length + 4)

/-! ## Chunks and calls of `recv` -/

section Chunked

variable {progress : Option (ℕ → ℕ → Bool)} {chunk : Bytes} {rest chunks : List Bytes}

/-- How many bytes of the first chunk a call of `recv` returns. -/
def recvPart (chunk : Bytes) (count : ℕ) : ℕ := min chunk.length (min count intMax)

theorem recvPart_pos {count : ℕ} (hchunk : chunk ≠ []) (hcount : 0 < count) :
    0 < recvPart chunk count := by
  have hpos := List.length_pos_iff.mpr hchunk
  have hlimit : 0 < intMax := by decide
  rw [recvPart]
  omega

theorem recvPart_le (chunk : Bytes) (count : ℕ) :
    recvPart chunk count ≤ chunk.length ∧ recvPart chunk count ≤ count := by
  rw [recvPart]
  omega

/-- `recv` takes a part of the stream. -/
theorem recv_chunks (hne : NonemptyChunks (chunk :: rest)) (count : ℕ) :
    recv false count ((chunk :: rest).map .data) =
      some (.copied ((chunk :: rest).flatten.take (recvPart chunk count)),
        (dropItems (recvPart chunk count) (chunk :: rest)).map .data) := by
  rw [List.map_cons, recv, dropItems, List.flatten_cons,
    List.take_append_of_le_length (recvPart_le chunk count).1, recvPart]
  split
  case isTrue hlt => rw [Nat.min_eq_right hlt.le, if_pos hlt, List.map_cons]
  case isFalse hle =>
    rw [Nat.min_eq_left (not_lt.mp hle), if_neg (lt_irrefl _), Nat.sub_self,
      dropItems_zero (List.forall_mem_cons.mp hne).2, List.take_length]

/-- A call of `recv` does not return more than it was asked for. -/
theorem recv_length_le {closed : Bool} {count : ℕ} {arrivals after : List Arrival} {bytes : Bytes}
    (h : recv closed count arrivals = some (.copied bytes, after)) : bytes.length ≤ count := by
  cases arrivals with
  | nil =>
    rw [recv] at h
    split at h
    · cases h
      exact Nat.zero_le count
    · cases h
  | cons arrival others =>
    cases arrival with
    | failure => cases h
    | data arrived =>
      rw [recv] at h
      split at h
      case isTrue =>
        cases h
        rw [List.length_take]
        omega
      case isFalse hle =>
        cases h
        omega

/-- The loop returns packets of the announced length. -/
theorem receiveBody_length {closed : Bool} {len fuel : ℕ} {received packet : Bytes}
    {arrivals after : List Arrival} (hle : received.length ≤ len)
    (h : receiveBody progress closed len fuel received arrivals = some (.packet packet, after)) :
    packet.length = len := by
  induction fuel generalizing received arrivals with
  | zero => cases h
  | succ fuel ih =>
    rw [receiveBody] at h
    split at h
    case isTrue hlt =>
      obtain ⟨⟨outcome, next⟩, hrecv, hrest⟩ := Option.bind_eq_some_iff.mp h
      cases outcome with
      | failed => cases hrest
      | copied bytes =>
        have hbytes := recv_length_le hrecv
        dsimp only at hrest
        split at hrest
        · cases hrest
        · refine ih ?_ hrest
          rw [List.length_append]
          omega
    case isFalse hge =>
      cases h
      omega

/-- The loop puts a body together. -/
theorem receiveBody_chunks (hpatient : Patient progress) {len : ℕ} (size : ℕ) :
    ∀ {received body tail : Bytes} {chunks : List Bytes}, body.length ≤ size →
      NonemptyChunks chunks → chunks.flatten = body ++ tail → received.length + body.length = len →
      ∃ fuel, receiveBody progress false len fuel received (chunks.map .data) =
        some (.packet (received ++ body), (dropItems body.length chunks).map .data) := by
  induction size with
  | zero =>
    intro received body tail chunks hsize hne _ hlen
    obtain rfl := List.length_eq_zero_iff.mp (Nat.le_zero.mp hsize)
    refine ⟨1, ?_⟩
    rw [List.length_nil, Nat.add_zero] at hlen
    rw [receiveBody_done hlen.ge, List.append_nil, List.length_nil, dropItems_zero hne]
  | succ size ih =>
    intro received body tail chunks hsize hne hflatten hlen
    by_cases hempty : body = []
    · subst hempty
      refine ⟨1, ?_⟩
      rw [List.length_nil, Nat.add_zero] at hlen
      rw [receiveBody_done hlen.ge, List.append_nil, List.length_nil, dropItems_zero hne]
    · have hpos := List.length_pos_iff.mpr hempty
      cases chunks with
      | nil =>
        rw [List.flatten_nil] at hflatten
        exact absurd (List.append_eq_nil_iff.mp hflatten.symm).1 hempty
      | cons chunk rest =>
        have hpart := recvPart_pos (hne chunk List.mem_cons_self) hpos
        obtain ⟨-, hpartLe⟩ := recvPart_le chunk body.length
        generalize hcount : recvPart chunk body.length = count at hpart hpartLe
        have hasked : len - received.length = body.length := by omega
        have htake : (chunk :: rest).flatten.take count = body.take count := by
          rw [hflatten, List.take_append_of_le_length hpartLe]
        have hdrop : (dropItems count (chunk :: rest)).flatten = body.drop count ++ tail := by
          rw [flatten_dropItems, hflatten, List.drop_append_of_le_length hpartLe]
        have hsplit : dropItems body.length (chunk :: rest) =
            dropItems (body.drop count).length (dropItems count (chunk :: rest)) := by
          rw [← dropItems_add, List.length_drop, Nat.add_sub_cancel' hpartLe]
        obtain ⟨fuel, hrest⟩ := @ih (received ++ body.take count) _ tail _ (by
            rw [List.length_drop]
            omega) (nonemptyChunks_dropItems hne count) hdrop (by
            rw [List.length_append, List.length_take, List.length_drop]
            omega)
        refine ⟨fuel + 1, ?_⟩
        rw [receiveBody_step hpatient (by omega), hasked, recv_chunks hne, hcount, htake,
          Option.bind_some]
        dsimp only
        rw [hrest, List.append_assoc, List.take_append_drop, hsplit]

/-! ## One packet -/

theorem receivePacket_step {garbage first : Bytes} {arrivals after : List Arrival}
    (hrecv : recv false 4 arrivals = some (.copied first, after)) {len : ℕ}
    (hlen : (getUi32 ((first ++ garbage.drop first.length).take 4)).toNat = len) (fuel : ℕ) :
    receivePacket progress false garbage fuel arrivals =
      if len + 1 < 2 ^ 32 then
        (receiveBody progress false len fuel [] after).map fun result ↦
          (⟨result.1, some first.length⟩, result.2)
      else none := by
  rw [receivePacket, hrecv, Option.bind_eq_bind, Option.bind_some]
  dsimp only
  rw [hlen]
  split
  · cases receiveBody progress false len fuel [] after <;> rfl
  · rfl

/-- The length arrives whole. -/
theorem receivePacket_length (garbage : Bytes) (hne : NonemptyChunks (chunk :: rest))
    (hfour : 4 ≤ chunk.length) {body tail : Bytes}
    (hflatten : (chunk :: rest).flatten = le32 (UInt32.ofNat body.length) ++ body ++ tail)
    (hbody : body.length < 2 ^ 32) (fuel : ℕ) :
    receivePacket progress false garbage fuel ((chunk :: rest).map .data) =
      if body.length + 1 < 2 ^ 32 then
        (receiveBody progress false body.length fuel []
          ((dropItems 4 (chunk :: rest)).map .data)).map fun result ↦
            (⟨result.1, some 4⟩, result.2)
      else none := by
  have hpart : recvPart chunk 4 = 4 := by
    have hlimit : min 4 intMax = 4 := by decide
    rw [recvPart, hlimit, Nat.min_eq_right hfour]
  have hword := length_le32 (UInt32.ofNat body.length)
  have htake : (chunk :: rest).flatten.take 4 = le32 (UInt32.ofNat body.length) := by
    rw [hflatten, List.append_assoc]
    exact List.take_left' hword
  have hrecv := recv_chunks hne 4
  rw [hpart, htake] at hrecv
  have hlen : (getUi32 ((le32 (UInt32.ofNat body.length) ++
      garbage.drop (le32 (UInt32.ofNat body.length)).length).take 4)).toNat = body.length := by
    rw [List.take_left' hword, getUi32_le32, UInt32.toNat_ofNat']
    exact Nat.mod_eq_of_lt hbody
  rw [receivePacket_step hrecv hlen, hword]

/-- A packet whose length arrives whole. -/
theorem receivePacket_whole (hpatient : Patient progress) (garbage : Bytes)
    (hne : NonemptyChunks (chunk :: rest)) (hfour : 4 ≤ chunk.length) {body tail : Bytes}
    (hflatten : (chunk :: rest).flatten = le32 (UInt32.ofNat body.length) ++ body ++ tail)
    (hfits : body.length + 1 < 2 ^ 32) :
    ∃ fuel, receivePacket progress false garbage fuel ((chunk :: rest).map .data) =
      some (⟨.packet body, some 4⟩,
        (dropItems (4 + body.length) (chunk :: rest)).map .data) := by
  have hdrop : (dropItems 4 (chunk :: rest)).flatten = body ++ tail := by
    rw [flatten_dropItems, hflatten, List.append_assoc]
    exact List.drop_left' (length_le32 _)
  obtain ⟨fuel, hbody⟩ := receiveBody_chunks hpatient body.length le_rfl
    (nonemptyChunks_dropItems hne 4) hdrop (by rw [List.length_nil, Nat.zero_add])
  refine ⟨fuel, ?_⟩
  rw [receivePacket_length garbage hne hfour hflatten (by omega), if_pos hfits, hbody,
    Option.map_some, dropItems_add, List.nil_append]

/-- The top byte of a length of which less than four bytes have come in is the one on the stack. -/
theorem toNat_getUi32_partial {first : Bytes} (hshort : first.length < 4) (top : UInt8) :
    (getUi32 ((first ++ (List.replicate 4 top).drop first.length).take 4)).toNat / 2 ^ 24 =
      top.toNat := by
  have hsplit : first ++ (List.replicate 4 top).drop first.length =
      first ++ List.replicate (3 - first.length) top ++ [top] := by
    have hcount : 4 - first.length = 3 - first.length + 1 := by omega
    rw [List.drop_replicate, hcount, List.replicate_succ', List.append_assoc]
  have hthree : (first ++ List.replicate (3 - first.length) top).length = 3 := by
    rw [List.length_append, List.length_replicate]
    omega
  have hfour : (first ++ (List.replicate 4 top).drop first.length).length = 4 := by
    rw [hsplit, List.length_append, hthree, List.length_singleton]
  have hlow := leNat_lt (first ++ List.replicate (3 - first.length) top)
  rw [hthree] at hlow
  rw [List.take_of_length_le hfour.le, toNat_getUi32 hfour, hsplit, leNat_append, hthree]
  simp only [leNat]
  omega

/-- A packet whose length does not arrive whole gets a wrong length from some stack. -/
theorem exists_garbage (hne : NonemptyChunks (chunk :: rest)) (hshort : chunk.length < 4)
    (body : Bytes) : ∃ garbage : Bytes, ∀ fuel receipt after,
      receivePacket progress false garbage fuel ((chunk :: rest).map .data) =
        some (receipt, after) → receipt.incoming ≠ .packet body := by
  have hpart : recvPart chunk 4 = chunk.length := by
    have hlimit : min 4 intMax = 4 := by decide
    rw [recvPart, hlimit, Nat.min_eq_left hshort.le]
  have htake : (chunk :: rest).flatten.take chunk.length = chunk := List.take_left
  have hrecv := recv_chunks hne 4
  rw [hpart, htake] at hrecv
  obtain ⟨top, htop⟩ : ∃ top : UInt8, top.toNat ≠ body.length / 2 ^ 24 := by
    by_cases hzero : body.length / 2 ^ 24 = 0
    · exact ⟨1, by rw [hzero]; decide⟩
    · exact ⟨0, by rw [UInt8.toNat_zero]; omega⟩
  refine ⟨List.replicate 4 top, fun fuel receipt after hreceive hpacket ↦ htop ?_⟩
  have hpartial := toNat_getUi32_partial hshort top
  rw [receivePacket_step hrecv rfl] at hreceive
  split at hreceive
  · obtain ⟨⟨incoming, final⟩, hbody, hpair⟩ := Option.map_eq_some_iff.mp hreceive
    cases hpair
    dsimp only at hpacket
    rw [hpacket] at hbody
    rw [receiveBody_length (Nat.zero_le _) hbody]
    exact hpartial.symm
  · cases hreceive

/-! ## The stream -/

theorem frameStream_cons (body : Bytes) (frames : List Bytes) :
    frameStream (body :: frames) =
      le32 (UInt32.ofNat body.length) ++ body ++ frameStream frames := rfl

theorem length_frameStream_cons (body : Bytes) (frames : List Bytes) :
    (frameStream (body :: frames)).length = 4 + body.length + (frameStream frames).length := by
  rw [frameStream_cons, List.length_append, List.length_append, length_le32]

/-- No chunk ends inside the first four bytes exactly if the first chunk has four bytes. -/
theorem forall_cut_iff (hne : NonemptyChunks (chunk :: rest)) :
    (∀ cut, IsCut (chunk :: rest) cut → ¬ (0 < cut ∧ cut < 4)) ↔ 4 ≤ chunk.length := by
  constructor
  · intro hcuts
    by_contra hshort
    have hpos := List.length_pos_iff.mpr (hne chunk List.mem_cons_self)
    exact hcuts _ (isCut_length_cons chunk rest) ⟨hpos, not_le.mp hshort⟩
  · rintro hfour cut hcut ⟨hpos, hlt⟩
    obtain ⟨later, -, rfl⟩ := (isCut_cons_iff hpos).mp hcut
    omega

/-- The condition splits into one for the first packet and one for the rest of the stream. -/
theorem wholeLengths_cons_iff {body : Bytes} {frames : List Bytes} :
    WholeLengths (body :: frames) chunks ↔
      (body.length + 1 < 2 ^ 32 ∧ ∀ cut, IsCut chunks cut → ¬ (0 < cut ∧ cut < 4)) ∧
        WholeLengths frames (dropItems (4 + body.length) chunks) := by
  constructor
  · intro h
    refine ⟨h [] body frames rfl, fun before other after heq ↦ ?_⟩
    obtain ⟨hfits, hcuts⟩ := h (body :: before) other after (by rw [heq, List.cons_append])
    rw [length_frameStream_cons] at hcuts
    refine ⟨hfits, fun cut hcut hinside ↦ ?_⟩
    exact hcuts _ ((isCut_dropItems_iff _ (by omega)).mp hcut) ⟨by omega, by omega⟩
  · rintro ⟨hfirst, hrest⟩ before other after heq
    cases before with
    | nil =>
      obtain ⟨rfl, -⟩ := List.cons.inj heq
      exact hfirst
    | cons first before =>
      obtain ⟨rfl, htail⟩ := List.cons.inj heq
      obtain ⟨hfits, hcuts⟩ := hrest before other after htail
      rw [length_frameStream_cons]
      refine ⟨hfits, fun cut hcut hinside ↦ ?_⟩
      obtain ⟨later, rfl⟩ : ∃ later, cut = 4 + body.length + later :=
        ⟨cut - (4 + body.length), by omega⟩
      exact hcuts later ((isCut_dropItems_iff _ (by omega)).mpr hcut) ⟨by omega, by omega⟩

/-- More fuel does not change a packet. -/
theorem receivePacket_mono {fuel more : ℕ} (hle : fuel ≤ more) {garbage : Bytes}
    {arrivals : List Arrival} {result : Receipt × List Arrival}
    (h : receivePacket progress false garbage fuel arrivals = some result) :
    receivePacket progress false garbage more arrivals = some result := by
  cases hrecv : recv false 4 arrivals with
  | none =>
    rw [receivePacket, hrecv] at h
    cases h
  | some first =>
    obtain ⟨outcome, after⟩ := first
    cases outcome with
    | failed =>
      rw [receivePacket, hrecv] at h ⊢
      exact h
    | copied bytes =>
      rw [receivePacket_step hrecv rfl] at h ⊢
      split at h
      case isTrue hroom =>
        obtain ⟨body, hbody, rfl⟩ := Option.map_eq_some_iff.mp h
        rw [if_pos hroom, receiveBody_mono hbody hle, Option.map_some]
      case isFalse => cases h

/-- The first of several packets. -/
theorem receivePackets_cons_iff {fuel : ℕ} {garbage body : Bytes} {others frames : List Bytes}
    {arrivals final : List Arrival} :
    receivePackets progress false fuel (garbage :: others) arrivals = some (body :: frames, final) ↔
      ∃ receipt after, receivePacket progress false garbage fuel arrivals = some (receipt, after) ∧
        receipt.incoming = .packet body ∧
        receivePackets progress false fuel others after = some (frames, final) := by
  rw [receivePackets, Option.bind_eq_bind, Option.bind_eq_some_iff]
  constructor
  · rintro ⟨⟨receipt, after⟩, hpacket, hrest⟩
    dsimp only at hrest
    split at hrest
    case h_1 bytes hincoming =>
      obtain ⟨⟨later, last⟩, hlater, heq⟩ := Option.bind_eq_some_iff.mp hrest
      cases heq
      exact ⟨receipt, after, hpacket, hincoming, hlater⟩
    case h_2 => cases hrest
  · rintro ⟨⟨incoming, lengthBytes⟩, after, hpacket, rfl, hlater⟩
    refine ⟨_, hpacket, ?_⟩
    dsimp only
    rw [hlater, Option.bind_eq_bind, Option.bind_some]

/-- More fuel does not change the packets. -/
theorem receivePackets_mono {fuel more : ℕ} (hle : fuel ≤ more) {garbage frames : List Bytes}
    {arrivals final : List Arrival}
    (h : receivePackets progress false fuel garbage arrivals = some (frames, final)) :
    receivePackets progress false more garbage arrivals = some (frames, final) := by
  induction garbage generalizing frames arrivals with
  | nil => exact h
  | cons first others ih =>
    cases frames with
    | nil =>
      rw [receivePackets] at h
      obtain ⟨⟨receipt, after⟩, -, hrest⟩ := Option.bind_eq_some_iff.mp h
      dsimp only at hrest
      split at hrest
      · obtain ⟨later, -, heq⟩ := Option.bind_eq_some_iff.mp hrest
        cases heq
      · cases hrest
    | cons body frames =>
      obtain ⟨receipt, after, hpacket, hincoming, hrest⟩ := receivePackets_cons_iff.mp h
      exact receivePackets_cons_iff.mpr
        ⟨receipt, after, receivePacket_mono hle hpacket, hincoming, ih hrest⟩

/-- A stream is received if its first packet is, and then the rest. -/
theorem receivesFrames_cons_iff (hpatient : Patient progress) (hne : NonemptyChunks chunks)
    {body : Bytes} {frames : List Bytes} (hstream : chunks.flatten = frameStream (body :: frames))
    (hbody : body.length < 2 ^ 32) :
    ReceivesFrames progress (body :: frames) chunks ↔
      (body.length + 1 < 2 ^ 32 ∧ ∀ cut, IsCut chunks cut → ¬ (0 < cut ∧ cut < 4)) ∧
        ReceivesFrames progress frames (dropItems (4 + body.length) chunks) := by
  cases chunks with
  | nil =>
    have hlength := congrArg List.length hstream
    rw [length_frameStream_cons, List.flatten_nil, List.length_nil] at hlength
    omega
  | cons chunk rest =>
    rw [forall_cut_iff hne]
    have hstream' := hstream.trans (frameStream_cons body frames)
    have hwhole (garbage : Bytes) (hfour : 4 ≤ chunk.length) (hfits : body.length + 1 < 2 ^ 32) :
        ∃ fuel, receivePacket progress false garbage fuel ((chunk :: rest).map .data) = _ :=
      receivePacket_whole hpatient garbage hne hfour hstream' hfits
    constructor
    · intro h
      have hfour : 4 ≤ chunk.length := by
        by_contra hshort
        obtain ⟨garbage, hgarbage⟩ := exists_garbage hne (not_le.mp hshort) body
        obtain ⟨fuel, hpackets⟩ := h (garbage :: List.replicate frames.length []) (by simp)
        obtain ⟨receipt, after, hpacket, hincoming, -⟩ := receivePackets_cons_iff.mp hpackets
        exact hgarbage fuel receipt after hpacket hincoming
      have hfits : body.length + 1 < 2 ^ 32 := by
        by_contra hlarge
        obtain ⟨fuel, hpackets⟩ := h (List.replicate (body :: frames).length [])
          List.length_replicate
        obtain ⟨receipt, after, hpacket, -, -⟩ := receivePackets_cons_iff.mp hpackets
        rw [receivePacket_length [] hne hfour hstream' hbody, if_neg hlarge] at hpacket
        cases hpacket
      refine ⟨⟨hfits, hfour⟩, fun garbage hlength ↦ ?_⟩
      obtain ⟨fuel, hpackets⟩ := h ([] :: garbage) (by rw [List.length_cons, hlength, List.length_cons])
      obtain ⟨receipt, after, hpacket, -, hrest⟩ := receivePackets_cons_iff.mp hpackets
      obtain ⟨enough, hexpected⟩ := hwhole [] hfour hfits
      have hboth := receivePacket_mono (le_max_left fuel enough) hpacket
      rw [receivePacket_mono (le_max_right fuel enough) hexpected] at hboth
      cases hboth
      exact ⟨fuel, hrest⟩
    · rintro ⟨⟨hfits, hfour⟩, hrest⟩ garbage hlength
      cases garbage with
      | nil => cases hlength
      | cons first others =>
        obtain ⟨fuel, hfirst⟩ := hwhole first hfour hfits
        obtain ⟨enough, hothers⟩ := hrest others (Nat.succ.inj hlength)
        exact ⟨max fuel enough, receivePackets_cons_iff.mpr
          ⟨_, _, receivePacket_mono (le_max_left _ _) hfirst, rfl,
            receivePackets_mono (le_max_right _ _) hothers⟩⟩

/-- A stream is received packet by packet, however it is cut, exactly if no cut is inside a
length. -/
theorem receivesFrames_iff (hpatient : Patient progress) {frames : List Bytes}
    (hframes : ∀ body ∈ frames, body.length < 2 ^ 32) (hne : NonemptyChunks chunks)
    (hstream : chunks.flatten = frameStream frames) :
    ReceivesFrames progress frames chunks ↔ WholeLengths frames chunks := by
  induction frames generalizing chunks with
  | nil =>
    cases chunks with
    | nil =>
      apply iff_of_true
      · intro garbage hlength
        exact ⟨0, by rw [List.length_eq_zero_iff.mp hlength]; rfl⟩
      · intro before body after heq
        cases before <;> cases heq
    | cons chunk rest =>
      have hnil := (List.append_eq_nil_iff.mp hstream).1
      exact absurd hnil (hne chunk List.mem_cons_self)
  | cons body frames ih =>
    obtain ⟨hbody, hlater⟩ := List.forall_mem_cons.mp hframes
    have hrest : (dropItems (4 + body.length) chunks).flatten = frameStream frames := by
      have hlength : (le32 (UInt32.ofNat body.length) ++ body).length = 4 + body.length := by
        rw [List.length_append, length_le32]
      rw [flatten_dropItems, hstream, frameStream_cons, ← hlength, List.drop_left]
    rw [receivesFrames_cons_iff hpatient hne hstream hbody, wholeLengths_cons_iff,
      ih hlater (nonemptyChunks_dropItems hne _) hrest]

end Chunked

/-! ## Two packets, cut in two ways -/

/-- Two packets of three and of no bytes. -/
def twoFrames : List Bytes := [[7, 8, 9], []]

/-- The first packet in three chunks; the last chunk brings the second one along. -/
def spreadChunks : List Bytes := [[3, 0, 0, 0, 7], [8], [9, 0, 0, 0, 0]]

/-- The first chunk ends inside the first length. -/
def splitChunks : List Bytes := [[3, 0], [0, 0, 7, 8, 9, 0, 0, 0, 0]]

theorem wholeLengths_spreadChunks : WholeLengths twoFrames spreadChunks := by
  have hfirst : NonemptyChunks spreadChunks := by unfold NonemptyChunks; decide
  have hsecond : NonemptyChunks [([0, 0, 0, 0] : Bytes)] := by unfold NonemptyChunks; decide
  have hdrop : dropItems (4 + [(7 : UInt8), 8, 9].length) spreadChunks = [[0, 0, 0, 0]] := by
    decide
  rw [twoFrames, wholeLengths_cons_iff, hdrop, wholeLengths_cons_iff]
  refine ⟨⟨by decide, (forall_cut_iff hfirst).mpr (by decide)⟩,
    ⟨by decide, (forall_cut_iff hsecond).mpr (by decide)⟩, fun before body after heq ↦ ?_⟩
  cases before <;> cases heq

theorem twoFrames_received : ReceivesFrames none twoFrames spreadChunks := by
  have hne : NonemptyChunks spreadChunks := by unfold NonemptyChunks; decide
  have hpatient : Patient none := nofun
  exact (receivesFrames_iff hpatient (by decide) hne (by decide)).mpr wholeLengths_spreadChunks

theorem twoFrames_not_received : ¬ ReceivesFrames none twoFrames splitChunks := by
  have hne : NonemptyChunks splitChunks := by unfold NonemptyChunks; decide
  have hpatient : Patient none := nofun
  intro hreceives
  have hfirst := ((receivesFrames_cons_iff hpatient hne (by decide) (by decide)).mp hreceives).1.2
  exact absurd ((forall_cut_iff hne).mp hfirst) (by decide)

end LibTg.Tg
