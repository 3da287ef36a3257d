import LibTg.Tg.Authentication
import LibTg.Tl.Bounds

/-!
# The framing of a packet stays inside it

`_tg_receive` passes a packet to `tg_decrypt` and the plaintext to `tg_deheader`. Neither looks at
the remaining size before it reads a field, and `tg_deheader` replaces the size by the length that
the plaintext claims for its payload.
-/

namespace LibTg.Tg

open LibTg.Tl

section Framing

variable (moves : ℕ → Bool) (crypto : Crypto) (key : Bytes) (model : DataModel) (tg : Session)

/-- The test for the error `404`, a packet of four bytes. -/
def isNotFound (packet : Buf) : Bool :=
  packet.size = 4 ∧ getUi32 packet.bytes = 0xfffffe6c

/-- `_tg_receive` from a complete packet to the message in it; `none` is `RTL_ERROR`. -/
def receiveMessage (packet : Buf) : Option (Option (Buf × Session)) :=
  if isNotFound packet then some none
  else do
    let d ← tgDecrypt moves crypto key model packet true
    if d.size = 0 then some none
    else (tgDeheader moves model tg d true).map some

/-- The accesses of `tg_decrypt` to its packet. The cipher reads all that is left. -/
def accessesDecrypt (packet : Buf) : List Access :=
  if packet.size = 0 then []
  else
    [accessCopy (bufCursor packet) 8] ++ ((bufCursor packet).read 8).elim [] fun keyId ↦
      if getUi64 keyId ≠ getUi64 (authKeyId crypto key) then []
      else
        accessesUi64 model (bufCursor packet) ++
          (deserializeUi64 model (bufCursor packet)).elim [] fun keyId ↦
            accessesBuf model keyId.2 16 ++ (deserializeBuf model keyId.2 16).elim [] fun msgKey ↦
              if msgKey.2.size.toNat % 16 ≠ 0 then []
              else [accessCopy msgKey.2 msgKey.2.size.toNat]

/-- The accesses of `tg_deheader` to its plaintext. -/
def accessesDeheader (packet : Buf) : List Access :=
  if packet.size = 0 then []
  else
    accessesUi64 model (bufCursor packet) ++
      (deserializeUi64 model (bufCursor packet)).elim [] fun salt ↦
        accessesUi64 model salt.2 ++ (deserializeUi64 model salt.2).elim [] fun ssid ↦
          accessesUi64 model ssid.2 ++ (deserializeUi64 model ssid.2).elim [] fun msgId ↦
            accessesUi32 model msgId.2 ++ (deserializeUi32 model msgId.2).elim [] fun seqNo ↦
              accessesUi32 model seqNo.2 ++ (deserializeUi32 model seqNo.2).elim [] fun len ↦
                [accessCopy len.2 len.1.toNat]

/-- Every access to the packet and to the plaintext stays inside, and a packet that is too short for
a key id, a message key and a header is rejected. -/
structure FramesSafely (packet : Buf) : Prop where
  packet_inside : isNotFound packet = false →
    ∀ access ∈ accessesDecrypt crypto key model packet, access.Inside packet.size
  plaintext_inside : isNotFound packet = false →
    ∀ d, tgDecrypt moves crypto key model packet true = some d → d.size ≠ 0 →
      ∀ access ∈ accessesDeheader model d, access.Inside d.size
  rejected : packet.size < 56 →
    ∀ result, receiveMessage moves crypto key model tg packet = some result → result = none

/-- The plaintext of a packet. -/
def plaintext (packet : Buf) : Bytes :=
  decryptedData crypto key 8 (substr packet.bytes 8 16) (packet.bytes.drop 24)

/-- The packets that are framed safely: those that are told apart before anything is read that they
do not have, and those with a whole header that claims no more payload than there is. -/
def SafelyFramed (packet : Buf) : Prop :=
  isNotFound packet = true ∨ packet.size = 0 ∨
    (8 ≤ packet.size ∧ packet.bytes.take 8 ≠ authKeyId crypto key) ∨
    (24 ≤ packet.size ∧ (packet.size - 24) % 16 ≠ 0) ∨ packet.size = 24 ∨
    (56 ≤ packet.size ∧ (¬ CipherRoom (packet.size - 24) ∨
      msgDataLen (plaintext crypto key packet) ≤ packet.size - 56))

end Framing

/-! ## The accesses of `tg_decrypt` -/

section Decrypt

variable {crypto : Crypto} {key : Bytes} {model : DataModel} {packet : Buf}

theorem accessesDecrypt_inside_iff (hsize : packet.size + 1 < 2 ^ 32) :
    (∀ access ∈ accessesDecrypt crypto key model packet, access.Inside packet.size) ↔
      packet.size = 0 ∨ (8 ≤ packet.size ∧ packet.bytes.take 8 ≠ authKeyId crypto key) ∨
        24 ≤ packet.size := by
  obtain ⟨slack, hcursor⟩ := bufCursor_eq packet
  have hlength := length_bytes packet
  have hfits : packet.bytes.length + 1 < 2 ^ 32 := by rw [hlength]; exact hsize
  rw [accessesDecrypt, hcursor, ← hlength]
  by_cases hempty : packet.bytes.length = 0
  · rw [if_pos hempty]
    exact iff_of_true (by simp) (.inl hempty)
  rw [if_neg hempty, List.forall_mem_append, List.forall_mem_singleton, accessCopy,
    inside_copy_iff hfits]
  by_cases hid : 0 + 8 ≤ packet.bytes.length
  case neg => exact iff_of_false (fun h ↦ hid h.1) (by omega)
  have hsame : getUi64 (packet.bytes.take 8) = getUi64 (authKeyId crypto key) ↔
      packet.bytes.take 8 = authKeyId crypto key :=
    getUi64_inj (List.length_take_of_le (by omega)) (length_authKeyId crypto key)
  have hread : (cursorAt packet.bytes slack 0).read 8 = some (packet.bytes.take 8) := read_at hid
  rw [hread, Option.elim_some, and_iff_right hid]
  by_cases hmatch : packet.bytes.take 8 = authKeyId crypto key
  case neg =>
    rw [if_pos (mt hsame.mp hmatch)]
    exact iff_of_true (by simp) (.inr (.inl ⟨by omega, hmatch⟩))
  have hkeyId : deserializeUi64 model (cursorAt packet.bytes slack 0) = _ :=
    deserializeUi64_at hid hfits
  have hsixteen : (UInt32.ofInt 16).toNat = 16 := rfl
  have hadvance : (cursorAt packet.bytes slack (0 + 8)).advance model ((16 : ℕ) : ℤ) =
      (cursorAt packet.bytes slack (0 + 8)).advance model 16 := rfl
  rw [if_neg (not_not_intro (hsame.mpr hmatch)), hkeyId, Option.elim_some, accessesUi64,
    accessesBuf, hsixteen, List.forall_mem_append, List.forall_mem_singleton,
    List.forall_mem_append, List.forall_mem_singleton, ← hadvance, inside_advance_iff hfits]
  have hfirst : Access.Inside packet.bytes.length ⟨cursorAt packet.bytes slack 0, 8,
      (cursorAt packet.bytes slack 0).advance model (8 : ℕ), .value⟩ :=
    (inside_advance_iff hfits).mpr hid
  rw [Nat.cast_ofNat] at hfirst
  rw [and_iff_right hfirst]
  by_cases hmsgKey : 0 + 8 + 16 ≤ packet.bytes.length
  case neg =>
    refine iff_of_false (fun h ↦ hmsgKey h.1) ?_
    rintro (hzero | ⟨-, hother⟩ | hlong)
    · exact hempty hzero
    · exact hother hmatch
    · omega
  have hbuf : deserializeBuf model (cursorAt packet.bytes slack (0 + 8)) ((16 : ℕ) : ℤ) = _ :=
    deserializeBuf_at (by omega) hfits hmsgKey
  rw [Nat.cast_ofNat] at hbuf
  rw [hbuf, Option.elim_some]
  apply iff_of_true _ (by omega)
  refine ⟨hmsgKey, ?_⟩
  dsimp only
  split
  case isTrue => simp
  case isFalse =>
    rw [List.forall_mem_singleton]
    exact inside_rest hfits hmsgKey

end Decrypt

/-! ## The accesses of `tg_deheader` -/

section Deheader

/-- The payload of a plaintext that has its header and all that it claims. -/
def checkedPayload (plain : Bytes) : Option (Bytes × Bytes) := do
  let (_, rest) ← parseUi64 plain
  let (_, rest) ← parseUi64 rest
  let (_, rest) ← parseUi64 rest
  let (_, rest) ← parseUi32 rest
  let (len, rest) ← parseUi32 rest
  takeBytes len.toNat rest

theorem takeBytes_map_drop {Value : Type} {value : Bytes → Value} {data : Bytes}
    {pos count : ℕ} (hpos : pos ≤ data.length) {result : Value × Bytes} :
    (takeBytes count (data.drop pos)).map (Prod.map value id) = some result ↔
      pos + count ≤ data.length ∧
        result = (value ((data.drop pos).take count), data.drop (pos + count)) := by
  rw [takeBytes_drop hpos]
  split
  case isTrue hle =>
    rw [Option.map_some, Option.some.injEq, and_iff_right hle]
    exact eq_comm
  case isFalse hlt => exact iff_of_false nofun fun h ↦ hlt h.1

theorem checkedPayload_isSome_iff (plain : Bytes) :
    (checkedPayload plain).isSome ↔ 32 + msgDataLen plain ≤ plain.length := by
  have hui64 {pos : ℕ} {result : UInt64 × Bytes} (hpos : pos ≤ plain.length) :
      parseUi64 (plain.drop pos) = some result ↔ _ := takeBytes_map_drop hpos
  have hui32 {pos : ℕ} {result : UInt32 × Bytes} (hpos : pos ≤ plain.length) :
      parseUi32 (plain.drop pos) = some result ↔ _ := takeBytes_map_drop hpos
  have hstart : parseUi64 plain = parseUi64 (plain.drop 0) := by rw [List.drop_zero]
  rw [Option.isSome_iff_exists, checkedPayload]
  simp only [Option.bind_eq_bind, Option.bind_eq_some_iff]
  constructor
  · rintro ⟨payload, salt, hsalt, ssid, hssid, msgId, hmsgId, seqno, hseqno, len, hlen, hpayload⟩
    rw [hstart] at hsalt
    obtain ⟨hle, rfl⟩ := (hui64 (Nat.zero_le _)).mp hsalt
    obtain ⟨hle, rfl⟩ := (hui64 hle).mp hssid
    obtain ⟨hle, rfl⟩ := (hui64 hle).mp hmsgId
    obtain ⟨hle, rfl⟩ := (hui32 hle).mp hseqno
    obtain ⟨hle, rfl⟩ := (hui32 hle).mp hlen
    rw [takeBytes_drop hle] at hpayload
    split at hpayload
    case isTrue hle => exact hle
    case isFalse => cases hpayload
  · intro hle
    refine ⟨((plain.drop 32).take (msgDataLen plain), plain.drop (32 + msgDataLen plain)), _,
      hstart.trans ((hui64 (Nat.zero_le _)).mpr ⟨by omega, rfl⟩), _,
      (hui64 (by omega)).mpr ⟨by omega, rfl⟩, _, (hui64 (by omega)).mpr ⟨by omega, rfl⟩, _,
      (hui32 (by omega)).mpr ⟨by omega, rfl⟩, _, (hui32 (by omega)).mpr ⟨by omega, rfl⟩, ?_⟩
    exact (takeBytes_drop (by omega)).trans (if_pos hle)

variable {moves : ℕ → Bool} {model : DataModel} {tg : Session} {packet : Buf}

/-- `tg_deheader` follows the parser of a plaintext, and returns its payload. -/
theorem follows_tgDeheader (hne : packet.size ≠ 0) (hsize : packet.size + 1 < 2 ^ 32) :
    Follows (Access.Inside packet.bytes.length) (fun returned payload ↦
        returned.1.bytes = payload.1)
      (accessesDeheader model packet) (tgDeheader moves model tg packet true)
      (checkedPayload packet.bytes) := by
  obtain ⟨slack, hcursor⟩ := bufCursor_eq packet
  have hlength := length_bytes packet
  have hfits : packet.bytes.length + 1 < 2 ^ 32 := by rw [hlength]; exact hsize
  have hstart : parseUi64 packet.bytes = parseUi64 (packet.bytes.drop 0) := by rw [List.drop_zero]
  rw [accessesDeheader, if_neg hne, tgDeheader, if_neg hne, if_pos rfl, hcursor, checkedPayload,
    hstart]
  apply Follows.bind (@follows_ui64 _ _ slack 0 0 hfits (Nat.zero_le _) le_rfl)
  rintro ⟨salt, _⟩ ⟨_, _⟩ ⟨rfl, next, hnext, hle, rfl, rfl⟩
  apply Follows.bind (follows_ui64 hfits hle hnext)
  rintro ⟨ssid, _⟩ ⟨_, _⟩ ⟨rfl, next, hnext, hle, rfl, rfl⟩
  apply Follows.bind (follows_ui64 hfits hle hnext)
  rintro ⟨msgId, _⟩ ⟨_, _⟩ ⟨rfl, next, hnext, hle, rfl, rfl⟩
  apply Follows.bind (@follows_ui32 _ _ _ 0 _ hfits hle (Nat.zero_le _))
  rintro ⟨seqno, _⟩ ⟨_, _⟩ ⟨rfl, next, hnext, hle, rfl, rfl⟩
  apply Follows.bind (@follows_ui32 _ _ _ 0 _ hfits hle (Nat.zero_le _))
  rintro ⟨len, _⟩ ⟨_, _⟩ ⟨rfl, next, hnext, hle, rfl, rfl⟩
  dsimp only
  rw [takeBytes_drop hle]
  apply Follows.access
  · rw [accessCopy, inside_copy_iff hfits]
    split <;> simp_all
  · intro payload hpayload
    split at hpayload
    case isTrue hpart =>
      cases hpayload
      have hcopied := length_take_drop hpart
      obtain ⟨d, hcopy, hholds, -⟩ := bufCat_spec moves holds_bufNew
        ((packet.bytes.drop next).take len.toNat) (by rw [hcopied, List.length_nil]; omega)
      rw [read_at hpart]
      refine ⟨(d, tgAddMsgid { tg with salt := le64 salt } msgId), ?_, hholds.bytes_eq⟩
      simp only [Option.bind_eq_bind, Option.bind_some, hcopy]
    case isFalse => cases hpayload

/-- `tg_deheader` stays inside a plaintext that has all that it claims. -/
theorem accessesDeheader_inside_iff (hne : packet.size ≠ 0) (hsize : packet.size + 1 < 2 ^ 32) :
    (∀ access ∈ accessesDeheader model packet, access.Inside packet.size) ↔
      32 + msgDataLen packet.bytes ≤ packet.size := by
  have hfollows := @follows_tgDeheader (fun _ ↦ false) model waitingSession packet hne hsize
  have hinside := hfollows.permitted_iff
  rwa [checkedPayload_isSome_iff, length_bytes] at hinside

end Deheader

/-! ## The packets that are framed safely -/

section Safe

variable {moves : ℕ → Bool} {crypto : Crypto} {key : Bytes} {model : DataModel} {tg : Session}
  {packet : Buf}

/-- An unreadable packet is rejected. -/
theorem receiveMessage_of_unreadable (hasize : packet.asize + 1 < 2 ^ 32)
    (hunreadable : Unreadable crypto key packet) {result : Option (Buf × Session)}
    (h : receiveMessage moves crypto key model tg packet = some result) : result = none := by
  unfold receiveMessage at h
  split at h
  case isTrue => exact (Option.some.inj h).symm
  case isFalse =>
    obtain ⟨d, hd, hresult⟩ := Option.bind_eq_some_iff.mp h
    rw [if_pos (tgDecrypt_of_unreadable hasize hunreadable hd)] at hresult
    exact (Option.some.inj hresult).symm

/-- An unreadable packet is framed safely if `tg_decrypt` finds this out inside the packet. -/
theorem framesSafely_of_unreadable (hasize : packet.asize + 1 < 2 ^ 32)
    (hunreadable : Unreadable crypto key packet)
    (hcases : packet.size = 0 ∨ (8 ≤ packet.size ∧ packet.bytes.take 8 ≠ authKeyId crypto key) ∨
      24 ≤ packet.size) : FramesSafely moves crypto key model tg packet where
  packet_inside _ := by
    have hle := packet.size_le
    exact (accessesDecrypt_inside_iff (by omega)).mpr hcases
  plaintext_inside _ _ hd hne := absurd (tgDecrypt_of_unreadable hasize hunreadable hd) hne
  rejected _ _ hresult := receiveMessage_of_unreadable hasize hunreadable hresult

theorem framesSafely_of_isNotFound (hfound : isNotFound packet = true) :
    FramesSafely moves crypto key model tg packet where
  packet_inside hnot := by
    rw [hfound] at hnot
    cases hnot
  plaintext_inside hnot := by
    rw [hfound] at hnot
    cases hnot
  rejected _ result hresult := by
    rw [receiveMessage, if_pos hfound] at hresult
    exact (Option.some.inj hresult).symm

/-- For a readable packet, the accesses to the plaintext are inside if there is no room for it, or
if it has all that it claims. -/
theorem plaintext_inside_iff (hasize : packet.asize + 1 < 2 ^ 32)
    (hreadable : ¬ Unreadable crypto key packet) :
    (∀ d, tgDecrypt moves crypto key model packet true = some d → d.size ≠ 0 →
        ∀ access ∈ accessesDeheader model d, access.Inside d.size) ↔
      ¬ CipherRoom (packet.size - 24) ∨
        32 + msgDataLen (plaintext crypto key packet) ≤ packet.size - 24 := by
  have hle := packet.size_le
  have hlength : 40 ≤ packet.size := by
    by_contra hshort
    exact hreadable (.inl (not_le.mp hshort))
  by_cases hroom : CipherRoom (packet.size - 24)
  · obtain ⟨d, hopened, hsize, hbytes⟩ :=
      @exists_opened moves crypto key model packet hasize hreadable hroom
    have hne : d.size ≠ 0 := by omega
    have hinside : _ ↔ _ := @accessesDeheader_inside_iff model d hne (by omega)
    rw [or_iff_right (not_not_intro hroom), ← hsize, plaintext, ← hbytes, ← hinside]
    constructor
    · intro hall
      exact hall d hopened hne
    · intro hinside other hother _
      rw [hopened, Option.some.injEq] at hother
      rwa [← hother]
  · apply iff_of_true _ (.inl hroom)
    intro d hd
    have hdrop : (packet.bytes.drop 24).length = packet.size - 24 := by
      rw [List.length_drop, length_bytes]
    rw [tgDecrypt_of_readable hasize hreadable, tgCryAesD,
      tgCryAes_of_no_room (hdrop.symm ▸ hroom)] at hd
    cases hd

/-- Exactly the packets of `SafelyFramed` are framed safely. -/
theorem framesSafely_iff (hasize : packet.asize + 1 < 2 ^ 32) :
    FramesSafely moves crypto key model tg packet ↔ SafelyFramed crypto key packet := by
  have hle := packet.size_le
  have hpacket := @accessesDecrypt_inside_iff crypto key model packet (by omega)
  have hplain (hreadable : ¬ Unreadable crypto key packet) : _ ↔ _ :=
    @plaintext_inside_iff moves crypto key model packet hasize hreadable
  constructor
  · intro hsafe
    unfold SafelyFramed
    by_cases hfound : isNotFound packet = true
    · exact .inl hfound
    rw [Bool.not_eq_true] at hfound
    rcases hpacket.mp (hsafe.packet_inside hfound) with hempty | hother | hheader
    · exact .inr (.inl hempty)
    · exact .inr (.inr (.inl hother))
    by_cases hunreadable : Unreadable crypto key packet
    · rcases hunreadable with hshort | hother | hmod
      · omega
      · exact .inr (.inr (.inl ⟨by omega, hother⟩))
      · omega
    · have hwhole := (hplain hunreadable).mp (hsafe.plaintext_inside hfound)
      refine .inr (.inr (.inr (.inr (.inr ?_))))
      rcases hwhole with hroom | hpayload
      · have hlarge : ¬ packet.size - 24 ≤ 1024 := fun hsmall ↦
          hroom (hsmall.trans (le_max_left bufsiz _))
        exact ⟨by omega, .inl hroom⟩
      · exact ⟨by omega, .inr (by omega)⟩
  · rintro (hfound | hempty | hother | hblocks | hheader | ⟨hlong, hpayload⟩)
    · exact framesSafely_of_isNotFound hfound
    · exact framesSafely_of_unreadable hasize (.inl (by omega)) (.inl hempty)
    · exact framesSafely_of_unreadable hasize (.inr (.inl hother.2)) (.inr (.inl hother))
    · exact framesSafely_of_unreadable hasize (.inr (.inr (by omega))) (.inr (.inr hblocks.1))
    · exact framesSafely_of_unreadable hasize (.inl (by omega)) (.inr (.inr (by omega)))
    · have hinside : packet.size = 0 ∨
          (8 ≤ packet.size ∧ packet.bytes.take 8 ≠ authKeyId crypto key) ∨ 24 ≤ packet.size :=
        .inr (.inr (by omega))
      by_cases hunreadable : Unreadable crypto key packet
      · exact framesSafely_of_unreadable hasize hunreadable hinside
      · refine ⟨fun _ ↦ hpacket.mpr hinside, fun _ ↦ (hplain hunreadable).mpr ?_, fun hshort ↦ ?_⟩
        · exact hpayload.imp_right fun hclaimed ↦ by omega
        · omega

end Safe

/-! ## A whole packet, and a packet of five bytes -/

theorem recordedPacket_framesSafely :
    ∃ packet : Buf, packet.bytes = recordedPacket recordedData ∧
      FramesSafely (fun _ ↦ false) recordedCrypto recordedKey .lp64 waitingSession packet := by
  obtain ⟨packet, hbytes, hasize⟩ := exists_recordedPacket recordedData rfl
  have hsize : packet.size = 72 := by
    rw [← length_bytes, hbytes]
    decide +kernel
  have hclaimed : msgDataLen (plaintext recordedCrypto recordedKey packet) = 4 := by
    rw [plaintext, hbytes]
    decide +kernel
  refine ⟨packet, hbytes, (framesSafely_iff (by rw [hasize]; decide)).mpr ?_⟩
  refine .inr (.inr (.inr (.inr (.inr ⟨by omega, .inr ?_⟩))))
  rw [hclaimed, hsize]
  decide

/-- The key id of a packet of five bytes is read past its end. -/
theorem fiveBytes_not_framesSafely :
    ∃ packet : Buf, packet.bytes = [1, 2, 3, 4, 5] ∧
      ¬ FramesSafely (fun _ ↦ false) recordedCrypto recordedKey .lp64 waitingSession packet := by
  obtain ⟨packet, -, hholds, -⟩ := bufCat_spec (fun _ ↦ false) holds_bufNew [1, 2, 3, 4, 5]
    (by decide)
  have hsize : packet.size = 5 := hholds.size_eq
  refine ⟨packet, hholds.bytes_eq, fun hsafe ↦ ?_⟩
  have hfound : isNotFound packet = false := by simp [isNotFound, hsize]
  have hinside := (accessesDecrypt_inside_iff (by omega)).mp (hsafe.packet_inside hfound)
  omega

end LibTg.Tg
