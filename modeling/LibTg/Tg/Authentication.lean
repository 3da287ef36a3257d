import LibTg.Tg.Encrypt
import LibTg.Tg.Rejection
import Mathlib.Logic.Equiv.Basic

/-!
# Which packets `tg_decrypt` opens

A plaintext comes from the server if its hash under the auth key is the message key of its packet.
`tg_decrypt` compares the key id and looks at the length, and then opens whatever the packet holds.
-/

namespace LibTg.Tg

open LibTg.Tl

section Authentication

variable (moves : ℕ → Bool) (crypto : Crypto) (key : Bytes) (model : DataModel) (m : Buf)

/-- What `tg_decrypt` opens has the id of the auth key and the message key of its plaintext, by the
rule for packets from the server. -/
def Authenticated : Prop :=
  ∀ d, tgDecrypt moves crypto key model m true = some d → d.size ≠ 0 →
    m.bytes.take 8 = authKeyId crypto key ∧ substr m.bytes 8 16 = msgKey crypto key 8 d.bytes

/-- A packet that is too short, has another key id or does not end with whole blocks. -/
def Unreadable : Prop :=
  m.size < 40 ∨ m.bytes.take 8 ≠ authKeyId crypto key ∨ m.size % 16 ≠ 8

/-- A packet that the server has made of some plaintext. -/
def SealedByServer : Prop :=
  ∃ plain, plain.length % 16 = 0 ∧ m.bytes = sealPacket crypto key 8 plain

variable {moves crypto key model m}

/-- Nothing is returned for an unreadable packet. -/
theorem tgDecrypt_of_unreadable {d : Buf} (hasize : m.asize + 1 < 2 ^ 32)
    (hunreadable : Unreadable crypto key m)
    (h : tgDecrypt moves crypto key model m true = some d) : d.size = 0 := by
  have hle := m.size_le
  by_cases hshort : m.size < 24
  · exact tgDecrypt_short hasize hshort h
  · rw [tgDecrypt_of_header (by omega) (by omega)] at h
    split at h
    case isTrue =>
      cases h
      rfl
    case isFalse hreadable =>
      obtain ⟨hid, hblocks⟩ := not_or.mp hreadable
      have hempty : m.size = 24 := by
        rcases hunreadable with hlength | hother | hmod
        · omega
        · exact absurd hother hid
        · omega
      have hdrop : m.bytes.drop 24 = [] := by
        rw [List.drop_eq_nil_iff, length_bytes, hempty]
      obtain ⟨nothing, hcipher, hsize, -⟩ := tgCryAes_of_room moves
        (crypto.igeDecrypt (aesKey crypto key 8 (substr m.bytes 8 16))
          (aesIv crypto key 8 (substr m.bytes 8 16))) (crypto.length_igeDecrypt _ _)
        (show ([] : Bytes).length % 16 = 0 from rfl) (Nat.zero_le _)
      rw [hdrop, tgCryAesD, hcipher, Option.some.injEq] at h
      rw [← h, hsize, List.length_nil]

/-- Any other packet is opened if there is room for its plaintext. -/
theorem tgDecrypt_of_readable (hasize : m.asize + 1 < 2 ^ 32)
    (hreadable : ¬ Unreadable crypto key m) :
    tgDecrypt moves crypto key model m true =
      tgCryAesD moves crypto (m.bytes.drop 24) (aesKey crypto key 8 (substr m.bytes 8 16))
        (aesIv crypto key 8 (substr m.bytes 8 16)) := by
  have hle := m.size_le
  simp only [Unreadable, not_or, not_lt, ne_eq, not_not] at hreadable
  obtain ⟨hlength, hid, hmod⟩ := hreadable
  rw [tgDecrypt_of_header (by omega) (by omega), if_neg]
  rintro (hother | hblocks)
  · exact hother hid
  · omega

theorem exists_opened (hasize : m.asize + 1 < 2 ^ 32) (hreadable : ¬ Unreadable crypto key m)
    (hroom : CipherRoom (m.size - 24)) :
    ∃ d, tgDecrypt moves crypto key model m true = some d ∧ d.size = m.size - 24 ∧
      d.bytes = decryptedData crypto key 8 (substr m.bytes 8 16) (m.bytes.drop 24) := by
  have hlength : (m.bytes.drop 24).length = m.size - 24 := by rw [List.length_drop, length_bytes]
  have hmod : (m.size - 24) % 16 = 0 := by
    simp only [Unreadable, not_or, not_lt, ne_eq, not_not] at hreadable
    omega
  rw [tgDecrypt_of_readable hasize hreadable]
  obtain ⟨d, hcipher, hsize, hbytes⟩ := tgCryAes_of_room moves
    (crypto.igeDecrypt (aesKey crypto key 8 (substr m.bytes 8 16))
      (aesIv crypto key 8 (substr m.bytes 8 16))) (crypto.length_igeDecrypt _ _)
    (hlength.symm ▸ hmod) (hlength.symm ▸ hroom)
  exact ⟨d, hcipher, hsize.trans hlength, hbytes⟩

/-- The three parts of a packet. -/
theorem packet_eq_append (packet : Bytes) :
    packet = packet.take 8 ++ substr packet 8 16 ++ packet.drop 24 := by
  have hrest : packet.drop 8 = substr packet 8 16 ++ packet.drop 24 :=
    drop_eq_take_append packet 8 16
  rw [List.append_assoc, ← hrest, List.take_append_drop]

theorem take_sealPacket (x : ℕ) (plain : Bytes) :
    (sealPacket crypto key x plain).take 8 = authKeyId crypto key := by
  rw [sealPacket, List.append_assoc]
  exact List.take_left' (length_authKeyId crypto key)

theorem substr_sealPacket (x : ℕ) (plain : Bytes) :
    substr (sealPacket crypto key x plain) 8 16 = msgKey crypto key x plain := by
  rw [sealPacket, List.append_assoc, substr, List.drop_left' (length_authKeyId crypto key)]
  exact List.take_left' (length_msgKey crypto key x plain)

theorem drop_sealPacket (x : ℕ) (plain : Bytes) :
    (sealPacket crypto key x plain).drop 24 =
      encryptedData crypto key x (msgKey crypto key x plain) plain := by
  refine List.drop_left' ?_
  rw [List.length_append, length_authKeyId, length_msgKey]

/-- A packet whose plaintext has its message key was made from this plaintext. -/
theorem eq_sealPacket {plain : Bytes} (hmod : (m.bytes.drop 24).length % 16 = 0)
    (hid : m.bytes.take 8 = authKeyId crypto key)
    (hplain : plain = decryptedData crypto key 8 (substr m.bytes 8 16) (m.bytes.drop 24))
    (hmsgKey : substr m.bytes 8 16 = msgKey crypto key 8 plain) :
    m.bytes = sealPacket crypto key 8 plain := by
  have hdata : encryptedData crypto key 8 (substr m.bytes 8 16) plain = m.bytes.drop 24 := by
    rw [hplain]
    exact crypto.igeEncrypt_igeDecrypt _ _ _ hmod
  calc m.bytes = m.bytes.take 8 ++ substr m.bytes 8 16 ++ m.bytes.drop 24 :=
        packet_eq_append m.bytes
    _ = authKeyId crypto key ++ msgKey crypto key 8 plain ++
          encryptedData crypto key 8 (msgKey crypto key 8 plain) plain := by
        rw [← hdata, hid, hmsgKey]

/-- Exactly the packets of the server are authenticated, beside those for which nothing is returned:
the unreadable ones, and those whose plaintext leaves the block of `tg_cry_aes_d`. -/
theorem authenticated_iff (hasize : m.asize + 1 < 2 ^ 32) :
    Authenticated moves crypto key model m ↔
      Unreadable crypto key m ∨ SealedByServer crypto key m ∨ ¬ CipherRoom (m.size - 24) := by
  have hlength : (m.bytes.drop 24).length = m.size - 24 := by rw [List.length_drop, length_bytes]
  constructor
  · intro hauthenticated
    by_contra hneither
    obtain ⟨hreadable, hforged, hroom⟩ := by simpa only [not_or, not_not] using hneither
    obtain ⟨d, hopened, hsize, hbytes⟩ := exists_opened hasize hreadable hroom
    simp only [Unreadable, not_or, not_lt, ne_eq, not_not] at hreadable
    obtain ⟨hid, hmsgKey⟩ := hauthenticated d hopened (by omega)
    refine hforged ⟨d.bytes, ?_, eq_sealPacket (by omega) hid hbytes hmsgKey⟩
    rw [length_bytes]
    omega
  · intro hcases d hopened hne
    by_cases hunreadable : Unreadable crypto key m
    · exact absurd (tgDecrypt_of_unreadable hasize hunreadable hopened) hne
    by_cases hroom : CipherRoom (m.size - 24)
    · obtain ⟨plain, hmod, hpacket⟩ :=
        (hcases.resolve_left hunreadable).resolve_right (not_not_intro hroom)
      obtain ⟨other, hother, -, hbytes⟩ := exists_opened hasize hunreadable hroom
      rw [hopened, Option.some.injEq] at hother
      have hplain : d.bytes = plain := by
        rw [hother, hbytes, hpacket, substr_sealPacket, drop_sealPacket]
        exact crypto.igeDecrypt_igeEncrypt _ _ _ hmod
      rw [hplain, hpacket]
      exact ⟨take_sealPacket 8 plain, substr_sealPacket 8 plain⟩
    · rw [tgDecrypt_of_readable hasize hunreadable, tgCryAesD,
        tgCryAes_of_no_room (hlength.symm ▸ hroom)] at hopened
      cases hopened

end Authentication

/-! ## A packet of the server, and the packet with one bit flipped -/

section Recorded

/-- An auth key of 256 bytes. -/
def recordedKey : Bytes := (List.range 256).map UInt8.ofNat

/-- The message key of `pongPlain 9` under `recordedKey`. -/
def recordedMsgKey : Bytes := leBytes 16 0x743719f6ffc5e8c766837029a4cb9b4d

/-- `pongPlain 9` under AES. -/
def recordedData : Bytes :=
  leBytes 24 0xd29c1ed7d937b112eb854be502f41654fa0eced89f1968aa ++
    leBytes 24 0x2e492fffe9519947a8ef99c769dd288313d46615e76496dd

/-- `recordedData` with one bit of its last byte flipped. -/
def flippedData : Bytes :=
  leBytes 24 0xd29c1ed7d937b112eb854be502f41654fa0eced89f1968aa ++
    leBytes 24 0x2f492fffe9519947a8ef99c769dd288313d46615e76496dd

/-- What `flippedData` decrypts to. -/
def flippedPlain : Bytes :=
  leBytes 24 0x6553f100000000010000000000000009000000000000004d ++
    leBytes 24 0xd5a312a1e1a97aacd5b3adcb3f81641b0000000400000001

/-- What SHA-256 gives for the four strings that the two packets need. -/
def recordedSha256 (data : Bytes) : Bytes :=
  if data = recordedMsgKey ++ substr recordedKey 8 36 then
    leBytes 32 0x50b73c596f81e54c9450d48f6793a7e7192965ed2aeac962ce7d5de6d08bd80d
  else if data = substr recordedKey 48 36 ++ recordedMsgKey then
    leBytes 32 0xd21504b803d632dd94bc656b66949d8f1783304fdae20aa1a475569191a2ac0e
  else if data = substr recordedKey 96 32 ++ pongPlain 9 then
    leBytes 32 0x355fe4e6ac942b0e743719f6ffc5e8c766837029a4cb9b4de1bbdd61aa566478
  else leBytes 32 0x7680c859135b54eaeddb16da8c15c6cc0473d06a6f8d766229ec6a74d5173828

/-- What AES does to the two plaintexts, under the parameters for `recordedMsgKey`. -/
def recordedIge : Bytes ≃ Bytes :=
  (Equiv.swap (pongPlain 9) recordedData).trans (Equiv.swap flippedPlain flippedData)

theorem length_swap {first second : Bytes} (h : first.length = second.length) (data : Bytes) :
    (Equiv.swap first second data).length = data.length := by
  rw [Equiv.swap_apply_def]
  split
  case isTrue heq => rw [heq, h]
  case isFalse =>
    split
    case isTrue heq => rw [heq, h]
    case isFalse => rfl

theorem length_recordedIge (data : Bytes) : (recordedIge data).length = data.length := by
  rw [recordedIge, Equiv.trans_apply, length_swap (by decide), length_swap (by decide)]

/-- The functions of OpenSSL as far as the two packets need them. -/
def recordedCrypto : Crypto where
  sha1 := fun _ ↦ leBytes 20 0xc8df57a46e58d132ab8c6903688ef7b7bdd61649
  sha256 := recordedSha256
  igeEncrypt := fun _ _ data ↦ recordedIge data
  igeDecrypt := fun _ _ data ↦ recordedIge.symm data
  length_sha1 := fun _ ↦ length_leBytes 20 _
  length_sha256 := fun data ↦ by
    unfold recordedSha256
    split_ifs <;> exact length_leBytes 32 _
  length_igeEncrypt := fun _ _ data _ ↦ length_recordedIge data
  length_igeDecrypt := fun _ _ data _ ↦ by
    rw [← length_recordedIge, Equiv.apply_symm_apply]
  igeDecrypt_igeEncrypt := fun _ _ data _ ↦ Equiv.symm_apply_apply recordedIge data
  igeEncrypt_igeDecrypt := fun _ _ data _ ↦ Equiv.apply_symm_apply recordedIge data

/-- The packet with the id of `recordedKey`, the message key of `pongPlain 9` and the given data. -/
def recordedPacket (data : Bytes) : Bytes :=
  authKeyId recordedCrypto recordedKey ++ recordedMsgKey ++ data

theorem exists_recordedPacket (data : Bytes) (hlength : data.length = 48) :
    ∃ m : Buf, m.bytes = recordedPacket data ∧ m.asize = bufsiz := by
  have hpacket : (recordedPacket data).length = 72 := by
    rw [recordedPacket, List.length_append, List.length_append, length_authKeyId, recordedMsgKey,
      length_leBytes, hlength]
  obtain ⟨m, -, hholds, -⟩ := bufCat_spec (fun _ ↦ false) holds_bufNew (recordedPacket data)
    (by rw [hpacket]; decide)
  exact ⟨m, hholds.bytes_eq, by rw [hholds.asize_eq, List.nil_append, hpacket]; rfl⟩

theorem recordedPacket_authenticated :
    ∃ m : Buf, m.bytes = recordedPacket recordedData ∧
      Authenticated (fun _ ↦ false) recordedCrypto recordedKey .lp64 m := by
  obtain ⟨m, hbytes, hasize⟩ := exists_recordedPacket recordedData rfl
  have hsealed : recordedPacket recordedData =
      sealPacket recordedCrypto recordedKey 8 (pongPlain 9) := by decide +kernel
  exact ⟨m, hbytes, (authenticated_iff (by rw [hasize]; decide)).mpr
    (.inr (.inl ⟨pongPlain 9, by decide, hbytes.trans hsealed⟩))⟩

/-- The packet with a flipped bit is opened. -/
theorem flippedPacket_not_authenticated :
    ∃ m : Buf, m.bytes = recordedPacket flippedData ∧
      ¬ Authenticated (fun _ ↦ false) recordedCrypto recordedKey .lp64 m := by
  obtain ⟨m, hbytes, hasize⟩ := exists_recordedPacket flippedData rfl
  have hsize : m.size = 72 := by
    rw [← length_bytes, hbytes]
    decide +kernel
  have hreadable : ¬ Unreadable recordedCrypto recordedKey m := by
    rw [Unreadable, hbytes, hsize]
    decide +kernel
  have hroom : CipherRoom (m.size - 24) := by
    rw [hsize, CipherRoom]
    decide
  obtain ⟨d, hopened, hdSize, hplain⟩ := @exists_opened (fun _ ↦ false) recordedCrypto
    recordedKey .lp64 m (by rw [hasize]; decide) hreadable hroom
  refine ⟨m, hbytes, fun hauthenticated ↦ ?_⟩
  have hmsgKey := (hauthenticated d hopened (by rw [hdSize, hsize]; decide)).2
  rw [hplain, hbytes] at hmsgKey
  exact absurd hmsgKey (by decide +kernel)

end Recorded

end LibTg.Tg
