import LibTg.Tg.Authentication

/-!
# The keys of a packet on both sides (`tg/encrypt.c`)

`tg_encrypt` and `tg_decrypt` are written out separately and splice the parameters of the cipher from
their own offsets. Here they stand statement by statement, with the offsets of the source; they
compute what the rule for `x = 0` and `x = 8` says. A receiver that follows the rule opens what
`tg_encrypt` makes, and `tg_decrypt` opens what a sender makes that follows it, unless the block of
the cipher is too small.
-/

namespace LibTg.Tg

open LibTg.Tl

/-! ## Splicing -/

section Splice

variable (moves : ℕ → Bool)

/-- `buf_add` and one `buf_cat_data`. -/
def splice2 (first second : Bytes) : Option Buf := do
  let buf ← bufAdd moves first
  bufCat moves buf second

/-- `buf_add` and two `buf_cat_data`. -/
def splice3 (first second third : Bytes) : Option Buf := do
  let buf ← splice2 moves first second
  bufCat moves buf third

theorem splice2_spec (first second : Bytes) (hfits : first.length + second.length + 1 < 2 ^ 32) :
    ∃ buf, splice2 moves first second = some buf ∧ Holds buf (first ++ second) := by
  obtain ⟨start, hstart, hholds⟩ := bufAdd_spec moves first (by omega)
  obtain ⟨buf, hbuf, hholds, -⟩ := bufCat_spec moves hholds second hfits
  exact ⟨buf, by rw [splice2, hstart, Option.bind_eq_bind, Option.bind_some, hbuf], hholds⟩

theorem splice3_spec (first second third : Bytes)
    (hfits : first.length + second.length + third.length + 1 < 2 ^ 32) :
    ∃ buf, splice3 moves first second third = some buf ∧ Holds buf (first ++ second ++ third) := by
  obtain ⟨start, hstart, hholds⟩ := splice2_spec moves first second (by omega)
  obtain ⟨buf, hbuf, hholds, -⟩ := bufCat_spec moves hholds third (by
    rw [List.length_append]
    exact hfits)
  exact ⟨buf, by rw [splice3, hstart, Option.bind_eq_bind, Option.bind_some, hbuf], hholds⟩

theorem length_substr_le (bytes : Bytes) (off count : ℕ) : (substr bytes off count).length ≤ count :=
  List.length_take_le _ _

end Splice

/-! ## The two functions, statement by statement -/

section Statements

variable (moves : ℕ → Bool) (crypto : Crypto) (key : Bytes)

/-- The statements of `tg_encrypt` for `enc`. -/
def tgEncryptStatements (b : Buf) : Option Buf := do
  let keyHash := crypto.sha1 key
  let authKeyId ← bufAdd moves (substr keyHash 12 8)
  let msgKeyLarge ← splice2 moves (substr key 88 32) b.bytes
  let msgKeyLarge := crypto.sha256 msgKeyLarge.bytes
  let msgKey ← bufAdd moves (substr msgKeyLarge 8 16)
  let sha256A ← splice2 moves msgKey.bytes (substr key 0 36)
  let sha256A := crypto.sha256 sha256A.bytes
  let sha256B ← splice2 moves (substr key 40 36) msgKey.bytes
  let sha256B := crypto.sha256 sha256B.bytes
  let aesKey ← splice3 moves (substr sha256A 0 8) (substr sha256B 8 16) (substr sha256A 24 8)
  let aesIv ← splice3 moves (substr sha256B 0 8) (substr sha256A 8 16) (substr sha256B 24 8)
  let enc ← tgCryAesE moves crypto b.bytes aesKey.bytes aesIv.bytes
  let e ← bufCat moves bufNew authKeyId.bytes
  let e ← bufCat moves e msgKey.bytes
  bufCat moves e enc.bytes

/-- The statements of `tg_decrypt` for `enc`. -/
def tgDecryptStatements (model : DataModel) (m : Buf) : Option Buf :=
  if m.size = 0 then some bufNew
  else do
    let authKeyId ← (bufCursor m).read 8
    let keyHash := crypto.sha1 key
    let authKeyId' ← bufAdd moves (substr keyHash 12 8)
    if getUi64 authKeyId ≠ getUi64 authKeyId'.bytes then some bufNew
    else
      let (_, cursor) ← deserializeUi64 model (bufCursor m)
      let (msgKey, cursor) ← deserializeBuf model cursor 16
      if cursor.size.toNat % 16 ≠ 0 then some bufNew
      else
        let sha256A ← splice2 moves msgKey (substr key 8 36)
        let sha256A := crypto.sha256 sha256A.bytes
        let sha256B ← splice2 moves (substr key (40 + 8) 36) msgKey
        let sha256B := crypto.sha256 sha256B.bytes
        let aesKey ← splice3 moves (substr sha256A 0 8) (substr sha256B 8 16) (substr sha256A 24 8)
        let aesIv ← splice3 moves (substr sha256B 0 8) (substr sha256A 8 16) (substr sha256B 24 8)
        let data ← cursor.read cursor.size.toNat
        tgCryAesD moves crypto data aesKey.bytes aesIv.bytes

/-! ## They follow the rule -/

theorem bufAdd_substr (bytes : Bytes) (off : ℕ) {count : ℕ} (hcount : count + 1 < 2 ^ 32) :
    ∃ buf, bufAdd moves (substr bytes off count) = some buf ∧ buf.bytes = substr bytes off count := by
  have hle := length_substr_le bytes off count
  obtain ⟨buf, hbuf, hholds⟩ := bufAdd_spec moves (substr bytes off count) (by omega)
  exact ⟨buf, hbuf, hholds.bytes_eq⟩

/-- The splicing of a key or an initialisation vector. -/
theorem splice3_hashes (outer inner : Bytes) :
    ∃ buf, splice3 moves (substr outer 0 8) (substr inner 8 16) (substr outer 24 8) = some buf ∧
      buf.bytes = substr outer 0 8 ++ substr inner 8 16 ++ substr outer 24 8 := by
  have hfirst := length_substr_le outer 0 8
  have hsecond := length_substr_le inner 8 16
  have hthird := length_substr_le outer 24 8
  obtain ⟨buf, hbuf, hholds⟩ :=
    splice3_spec moves (substr outer 0 8) (substr inner 8 16) (substr outer 24 8) (by omega)
  exact ⟨buf, hbuf, hholds.bytes_eq⟩

/-- Spliced at `x` and `40 + x`, the parameters of the cipher are those of the rule for `x`. -/
theorem splice_parameters (x : ℕ) {msgKey : Bytes} (hlength : msgKey.length ≤ 16) :
    ∃ a b aes iv, splice2 moves msgKey (substr key x 36) = some a ∧
      splice2 moves (substr key (40 + x) 36) msgKey = some b ∧
      splice3 moves (substr (crypto.sha256 a.bytes) 0 8) (substr (crypto.sha256 b.bytes) 8 16)
        (substr (crypto.sha256 a.bytes) 24 8) = some aes ∧
      splice3 moves (substr (crypto.sha256 b.bytes) 0 8) (substr (crypto.sha256 a.bytes) 8 16)
        (substr (crypto.sha256 b.bytes) 24 8) = some iv ∧
      aes.bytes = aesKey crypto key x msgKey ∧ iv.bytes = aesIv crypto key x msgKey := by
  have hleA := length_substr_le key x 36
  have hleB := length_substr_le key (40 + x) 36
  obtain ⟨a, ha, haHolds⟩ := splice2_spec moves msgKey (substr key x 36) (by omega)
  obtain ⟨b, hb, hbHolds⟩ := splice2_spec moves (substr key (40 + x) 36) msgKey (by omega)
  obtain ⟨aes, haes, haesBytes⟩ :=
    splice3_hashes moves (crypto.sha256 a.bytes) (crypto.sha256 b.bytes)
  obtain ⟨iv, hiv, hivBytes⟩ :=
    splice3_hashes moves (crypto.sha256 b.bytes) (crypto.sha256 a.bytes)
  refine ⟨a, b, aes, iv, ha, hb, haes, hiv, ?_, ?_⟩
  · rw [haesBytes, haHolds.bytes_eq, hbHolds.bytes_eq, aesKey, sha256A, sha256B]
  · rw [hivBytes, haHolds.bytes_eq, hbHolds.bytes_eq, aesIv, sha256A, sha256B]

/-- The offsets of `tg_encrypt` are those for `x = 0`. -/
theorem tgEncryptStatements_eq (b : Buf) :
    tgEncryptStatements moves crypto key b = tgEncrypt moves crypto key b true := by
  obtain ⟨keyId, hkeyId, hkeyIdBytes⟩ :=
    bufAdd_substr moves (crypto.sha1 key) 12 (show 8 + 1 < 2 ^ 32 by decide)
  have hrule : tgEncrypt moves crypto key b true =
      (splice2 moves (substr key 88 32) b.bytes).bind (fun large ↦ do
        let msgKey := substr (crypto.sha256 large.bytes) 8 16
        let enc ← tgCryAesE moves crypto b.bytes (aesKey crypto key 0 msgKey)
          (aesIv crypto key 0 msgKey)
        let e ← bufCat moves bufNew (authKeyId crypto key)
        let e ← bufCat moves e msgKey
        bufCat moves e enc.bytes) := by
    rw [tgEncrypt, if_pos rfl, splice2, Option.bind_eq_bind, Option.bind_assoc]
  rw [hrule, tgEncryptStatements, hkeyId, Option.bind_eq_bind, Option.bind_some]
  cases splice2 moves (substr key 88 32) b.bytes with
  | none => rfl
  | some large =>
    obtain ⟨msgKey, hmsgKey, hmsgKeyBytes⟩ :=
      bufAdd_substr moves (crypto.sha256 large.bytes) 8 (show 16 + 1 < 2 ^ 32 by decide)
    obtain ⟨shaA, shaB, aes, iv, hshaA, hshaB, haes, hiv, haesBytes, hivBytes⟩ :=
      splice_parameters moves crypto key 0 (hmsgKeyBytes ▸ length_substr_le _ _ _ :
        msgKey.bytes.length ≤ 16)
    rw [Nat.add_zero] at hshaB
    simp only [Option.bind_some, hmsgKey, hshaA, hshaB, haes, hiv, haesBytes, hivBytes]
    rw [hkeyIdBytes, hmsgKeyBytes]
    rfl

theorem length_deserializeBuf_le {model : DataModel} {cursor next : Cursor} {bytes : Bytes}
    (h : deserializeBuf model cursor 16 = some (bytes, next)) : bytes.length ≤ 16 := by
  rw [deserializeBuf, Cursor.addBuf, Option.bind_eq_bind, Option.bind_eq_some_iff] at h
  obtain ⟨copy, hcopy, h⟩ := h
  obtain ⟨data, hdata, hadd⟩ := Option.bind_eq_some_iff.mp hcopy
  obtain ⟨buf, hbuf, hbytes⟩ := Option.bind_eq_some_iff.mp hadd
  have hsame : bytes = data := by
    rw [← (Prod.mk.inj (Option.some.inj h)).1, ← Option.some.inj hbytes]
    exact (bufAdd_inv _ hbuf).2.bytes_eq
  rw [Cursor.read] at hdata
  split at hdata
  case isTrue =>
    rw [hsame, ← Option.some.inj hdata]
    exact List.length_take_le _ _
  case isFalse => cases hdata

/-- The offsets of `tg_decrypt` are those for `x = 8`. -/
theorem tgDecryptStatements_eq (model : DataModel) (m : Buf) :
    tgDecryptStatements moves crypto key model m = tgDecrypt moves crypto key model m true := by
  obtain ⟨keyId, hkeyId, hkeyIdBytes⟩ :=
    bufAdd_substr moves (crypto.sha1 key) 12 (show 8 + 1 < 2 ^ 32 by decide)
  rw [tgDecryptStatements, tgDecrypt]
  split
  case isTrue => rfl
  case isFalse =>
    rw [if_pos rfl]
    apply Option.bind_congr
    intro bytes _
    dsimp only
    rw [hkeyId, Option.bind_eq_bind, Option.bind_some, hkeyIdBytes]
    apply if_congr Iff.rfl rfl
    apply Option.bind_congr
    intro first _
    apply Option.bind_congr
    rintro ⟨msgKey, cursor⟩ hmsgKey
    have hlength : msgKey.length ≤ 16 := length_deserializeBuf_le hmsgKey
    apply if_congr Iff.rfl rfl
    obtain ⟨shaA, shaB, aes, iv, hshaA, hshaB, haes, hiv, haesBytes, hivBytes⟩ :=
      splice_parameters moves crypto key 8 hlength
    simp only [Option.bind_some, hshaA, hshaB, haes, hiv, haesBytes, hivBytes]

end Statements

/-! ## Both sides agree -/

section Agreement

variable (moves : ℕ → Bool) (crypto : Crypto) (key : Bytes) (model : DataModel)

/-- A receiver that follows the rule for `x`: the plaintext, if the key id and the message key are
those of the packet. -/
def openPacket (x : ℕ) (packet : Bytes) : Option Bytes :=
  let plain := decryptedData crypto key x (substr packet 8 16) (packet.drop 24)
  if packet.take 8 = authKeyId crypto key ∧ substr packet 8 16 = msgKey crypto key x plain then
    some plain
  else none

/-- The server opens what `tg_encrypt` makes of a plaintext, and `tg_decrypt` opens what the server
makes of it. -/
def KeysAgree (plain : Buf) : Prop :=
  (∃ e, tgEncryptStatements moves crypto key plain = some e ∧
    e.bytes = authKeyId crypto key ++ msgKey crypto key 0 plain.bytes ++
      encryptedData crypto key 0 (msgKey crypto key 0 plain.bytes) plain.bytes ∧
    openPacket crypto key 0 e.bytes = some plain.bytes) ∧
  (plain.size ≠ 0 → ∀ m : Buf, m.asize + 1 < 2 ^ 32 →
    m.bytes = sealPacket crypto key 8 plain.bytes →
      ∃ d, tgDecryptStatements moves crypto key model m = some d ∧ d.bytes = plain.bytes)

variable {crypto key}

/-- The rule opens what the rule has sealed. -/
theorem openPacket_sealPacket (x : ℕ) {plain : Bytes} (hblocks : plain.length % 16 = 0) :
    openPacket crypto key x (sealPacket crypto key x plain) = some plain := by
  have hplain : decryptedData crypto key x (substr (sealPacket crypto key x plain) 8 16)
      ((sealPacket crypto key x plain).drop 24) = plain := by
    rw [substr_sealPacket, drop_sealPacket]
    exact crypto.igeDecrypt_igeEncrypt _ _ _ hblocks
  rw [openPacket, hplain, if_pos ⟨take_sealPacket x plain, substr_sealPacket x plain⟩]

theorem length_sealPacket (x : ℕ) {plain : Bytes} (hblocks : plain.length % 16 = 0) :
    (sealPacket crypto key x plain).length = 24 + plain.length := by
  rw [sealPacket, List.length_append, List.length_append, length_authKeyId, length_msgKey,
    encryptedData, crypto.length_igeEncrypt _ _ _ hblocks]

variable {moves model}

/-- A plaintext with room for its cipher is also short enough for the packet around it. -/
theorem keysAgree_of_room {plain : Buf} (hkey : 128 ≤ key.length) (hblocks : plain.size % 16 = 0)
    (hroom : CipherRoom plain.size) : KeysAgree moves crypto key model plain := by
  have hlength := length_bytes plain
  have hmod : plain.bytes.length % 16 = 0 := by rw [hlength, hblocks]
  have hsize : plain.size + 33 < 2 ^ 32 := by
    unfold CipherRoom bufsiz at hroom
    have hlt : plain.size < 2 ^ 32 := by omega
    by_contra hlarge
    have hvalues : plain.size = 2 ^ 32 - 32 ∨ plain.size = 2 ^ 32 - 16 := by omega
    rcases hvalues with heq | heq <;> rw [heq] at hroom <;> exact absurd hroom (by decide)
  constructor
  · obtain ⟨e, he, hbytes⟩ : ∃ e, tgEncrypt moves crypto key plain true = some e ∧ _ :=
      tgEncrypt_spec hblocks hroom (by omega) hsize
    refine ⟨e, (tgEncryptStatements_eq moves crypto key plain).trans he, hbytes, ?_⟩
    rw [hbytes, openPacket_sealPacket 0 hmod]
  · intro hne m hasize hm
    have hmsize : m.size = 24 + plain.size := by
      rw [← length_bytes, hm, length_sealPacket 8 hmod, hlength]
    have hrest : m.size - 24 = plain.size := by omega
    have hreadable : ¬ Unreadable crypto key m := by
      rintro (hshort | hid | hblock)
      · omega
      · rw [hm] at hid
        exact hid (take_sealPacket 8 plain.bytes)
      · omega
    obtain ⟨d, hopened, -, hbytes⟩ : ∃ d, tgDecrypt moves crypto key model m true = some d ∧ _ ∧ _ :=
      exists_opened hasize hreadable (hrest.symm ▸ hroom)
    refine ⟨d, (tgDecryptStatements_eq moves crypto key model m).trans hopened, ?_⟩
    rw [hbytes, hm, substr_sealPacket, drop_sealPacket]
    exact crypto.igeDecrypt_igeEncrypt _ _ _ hmod

/-- Without room `tg_cry_aes_e` writes past its block. -/
theorem tgEncrypt_of_no_room {plain : Buf} (hroom : ¬ CipherRoom plain.size) :
    tgEncrypt moves crypto key plain true = none := by
  have hcipher (aes iv : Bytes) : tgCryAesE moves crypto plain.bytes aes iv = none := by
    apply tgCryAes_of_no_room
    rwa [length_bytes]
  rw [tgEncrypt, if_pos rfl]
  cases bufAdd moves (substr key 88 32) with
  | none => rfl
  | some first =>
    rw [Option.bind_eq_bind, Option.bind_some]
    cases bufCat moves first plain.bytes with
    | none => rfl
    | some large =>
      rw [Option.bind_some]
      dsimp only
      rw [hcipher]
      rfl

/-- The two sides agree on exactly the plaintexts that the cipher's block has room for. -/
theorem keysAgree_iff {plain : Buf} (hkey : 128 ≤ key.length) (hblocks : plain.size % 16 = 0) :
    KeysAgree moves crypto key model plain ↔ CipherRoom plain.size := by
  constructor
  · rintro ⟨⟨e, he, -⟩, -⟩
    by_contra hroom
    rw [tgEncryptStatements_eq, tgEncrypt_of_no_room hroom] at he
    cases he
  · exact keysAgree_of_room hkey hblocks

end Agreement

/-- A buffer that is full of zeros. -/
def zeroBuf (count : ℕ) : Buf where
  block := 0
  mem := List.replicate (count + 1) 0
  size := count
  asize := count
  mem_length := List.length_replicate
  size_le := le_rfl

/-- The message key of `pongPlain 9` from the client. -/
def clientMsgKey : Bytes := leBytes 16 0x394c9939c1ab6bc5fb409d00e5292e95

/-- The key of the cipher for `clientMsgKey`. -/
def clientAesKey : Bytes :=
  leBytes 32 0x80ee33e588421dadc5ec95f2f389ea4ddcd05f93f7642b1f344274d61b4266c1

/-- `pongPlain 9` under AES from the client. -/
def clientData : Bytes :=
  leBytes 24 0xbf3d13d7274f251347fb5c23b520218c9e887c220ad77086 ++
    leBytes 24 0x969a1d35751945fdc27f2c3d58aa14ba4b5d6e3d6b59b9f4

/-- What SHA-256 gives for the strings of both directions. -/
def pairSha256 (data : Bytes) : Bytes :=
  if data = clientMsgKey ++ substr recordedKey 0 36 then
    leBytes 32 0x80ee33e588421dad28300fa33b5c770e57746b3708bc1d37344274d61b4266c1
  else if data = substr recordedKey 40 36 ++ clientMsgKey then
    leBytes 32 0x36e7a91017591fa7c5ec95f2f389ea4ddcd05f93f7642b1f42d6a65e22748405
  else if data = substr recordedKey 88 32 ++ pongPlain 9 then
    leBytes 32 0x9ba4a0b56902a790394c9939c1ab6bc5fb409d00e5292e9565e36ade822a576b
  else recordedSha256 data

/-- What AES does to `pongPlain 9` under the key of either direction. -/
def pairIge (aesKey : Bytes) : Bytes ≃ Bytes :=
  if aesKey = clientAesKey then Equiv.swap (pongPlain 9) clientData else recordedIge

theorem length_pairIge (aesKey data : Bytes) : (pairIge aesKey data).length = data.length := by
  unfold pairIge
  split
  · exact length_swap (by decide) data
  · exact length_recordedIge data

/-- The functions of OpenSSL as far as `pongPlain 9` needs them in both directions. -/
def pairCrypto : Crypto where
  sha1 := recordedCrypto.sha1
  sha256 := pairSha256
  igeEncrypt := fun aesKey _ data ↦ pairIge aesKey data
  igeDecrypt := fun aesKey _ data ↦ (pairIge aesKey).symm data
  length_sha1 := recordedCrypto.length_sha1
  length_sha256 := fun data ↦ by
    unfold pairSha256
    split_ifs
    · exact length_leBytes 32 _
    · exact length_leBytes 32 _
    · exact length_leBytes 32 _
    · exact recordedCrypto.length_sha256 data
  length_igeEncrypt := fun aesKey _ data _ ↦ length_pairIge aesKey data
  length_igeDecrypt := fun aesKey _ data _ ↦ by
    rw [← length_pairIge aesKey, Equiv.apply_symm_apply]
  igeDecrypt_igeEncrypt := fun aesKey _ data _ ↦ Equiv.symm_apply_apply (pairIge aesKey) data
  igeEncrypt_igeDecrypt := fun aesKey _ data _ ↦ Equiv.apply_symm_apply (pairIge aesKey) data

example : sealPacket pairCrypto recordedKey 0 (pongPlain 9) =
      authKeyId pairCrypto recordedKey ++ clientMsgKey ++ clientData ∧
    sealPacket pairCrypto recordedKey 8 (pongPlain 9) =
      authKeyId pairCrypto recordedKey ++ recordedMsgKey ++ recordedData := by
  decide +kernel

/-- Both directions agree about a packet of 48 bytes. -/
theorem keysAgree_pong :
    ∃ plain : Buf, plain.bytes = pongPlain 9 ∧
      KeysAgree (fun _ ↦ false) pairCrypto recordedKey .lp64 plain := by
  obtain ⟨plain, hbytes, hsize⟩ := exists_pongPacket 9
  have hroom : CipherRoom plain.size := by
    rw [hsize, CipherRoom]
    decide
  exact ⟨plain, hbytes, (keysAgree_iff (by decide +kernel) (by rw [hsize])).mpr hroom⟩

/-- Three times `1431655776` is 32 in 32-bit arithmetic. -/
theorem not_keysAgree_large :
    ¬ KeysAgree (fun _ ↦ false) recordedCrypto recordedKey .lp64 (zeroBuf 1431655776) := by
  have hblocks : (zeroBuf 1431655776).size % 16 = 0 := by
    unfold zeroBuf
    decide
  rw [keysAgree_iff (by decide +kernel) hblocks]
  unfold CipherRoom zeroBuf bufsiz
  decide

end LibTg.Tg
