import LibTg.Tg.Header

/-!
# Sealed packets (`tg/encrypt.c`, `crypto/aes.c`, `crypto/hsh.c`)

A plaintext is sent as the id of the auth key, a message key and the plaintext under AES in IGE mode.
The message key is a hash of the auth key and the plaintext, and the parameters of the cipher are
hashes of the auth key and the message key. The two directions read the auth key from different
offsets `x`. The functions of OpenSSL are parameters.
-/

namespace LibTg.Tg

open LibTg.Tl

/-- `SHA1`, `SHA256` and `AES_ige_encrypt` for both directions, with a key of 256 bits. The cipher
works on whole blocks of 16 bytes, keeps the length, and each direction undoes the other. -/
structure Crypto where
  sha1 : Bytes → Bytes
  sha256 : Bytes → Bytes
  igeEncrypt : Bytes → Bytes → Bytes → Bytes
  igeDecrypt : Bytes → Bytes → Bytes → Bytes
  length_sha1 : ∀ data, (sha1 data).length = 20
  length_sha256 : ∀ data, (sha256 data).length = 32
  length_igeEncrypt : ∀ key iv data, data.length % 16 = 0 →
    (igeEncrypt key iv data).length = data.length
  length_igeDecrypt : ∀ key iv data, data.length % 16 = 0 →
    (igeDecrypt key iv data).length = data.length
  igeDecrypt_igeEncrypt : ∀ key iv data, data.length % 16 = 0 →
    igeDecrypt key iv (igeEncrypt key iv data) = data
  igeEncrypt_igeDecrypt : ∀ key iv data, data.length % 16 = 0 →
    igeEncrypt key iv (igeDecrypt key iv data) = data

/-- `substr`, as the comments of `tg_encrypt` call it. -/
def substr (bytes : Bytes) (off count : ℕ) : Bytes := (bytes.drop off).take count

section Keys

variable (crypto : Crypto) (key : Bytes)

def authKeyId : Bytes := substr (crypto.sha1 key) 12 8

/-- `msg_key` for a plaintext with its padding. -/
def msgKey (x : ℕ) (plain : Bytes) : Bytes :=
  substr (crypto.sha256 (substr key (88 + x) 32 ++ plain)) 8 16

def sha256A (x : ℕ) (msgKey : Bytes) : Bytes := crypto.sha256 (msgKey ++ substr key x 36)

def sha256B (x : ℕ) (msgKey : Bytes) : Bytes := crypto.sha256 (substr key (40 + x) 36 ++ msgKey)

def aesKey (x : ℕ) (msgKey : Bytes) : Bytes :=
  substr (sha256A crypto key x msgKey) 0 8 ++ substr (sha256B crypto key x msgKey) 8 16 ++
    substr (sha256A crypto key x msgKey) 24 8

def aesIv (x : ℕ) (msgKey : Bytes) : Bytes :=
  substr (sha256B crypto key x msgKey) 0 8 ++ substr (sha256A crypto key x msgKey) 8 16 ++
    substr (sha256B crypto key x msgKey) 24 8

/-- `encrypted_data` under the parameters for a message key. -/
def encryptedData (x : ℕ) (msgKey plain : Bytes) : Bytes :=
  crypto.igeEncrypt (aesKey crypto key x msgKey) (aesIv crypto key x msgKey) plain

/-- The inverse of `encryptedData`. -/
def decryptedData (x : ℕ) (msgKey data : Bytes) : Bytes :=
  crypto.igeDecrypt (aesKey crypto key x msgKey) (aesIv crypto key x msgKey) data

/-- The packet that a plaintext is sealed into: by the client for `x = 0`, by the server for
`x = 8`. -/
def sealPacket (x : ℕ) (plain : Bytes) : Bytes :=
  authKeyId crypto key ++ msgKey crypto key x plain ++
    encryptedData crypto key x (msgKey crypto key x plain) plain

end Keys

section Encrypt

variable (moves : ℕ → Bool)

/-- The block that the cipher writes `count` bytes to: three times as large, in 32-bit arithmetic. -/
def cipherBlock (count : ℕ) : Option Buf :=
  if 0 < count then bufRealloc moves bufNew (count * 3 % 2 ^ 32) else some bufNew

/-- `tg_cry_aes_e` and `tg_cry_aes_d` for a given direction of the cipher. OpenSSL stops the program
for a length that is not a multiple of 16, so a result never fills the final byte of its block. -/
def tgCryAes (cipher : Bytes → Bytes)
    (hlength : ∀ data, data.length % 16 = 0 → (cipher data).length = data.length)
    (data : Bytes) : Option Buf :=
  if hblocks : data.length % 16 = 0 then do
    let r ← cipherBlock moves data.length
    if hfits : data.length ≤ r.asize then
      some
        { r with
          mem := overwrite r.mem 0 (cipher data)
          size := data.length
          mem_length := by
            rw [length_overwrite (by rw [hlength data hblocks, r.mem_length]; omega)]
            exact r.mem_length
          size_le := hfits }
    else none
  else none

variable (crypto : Crypto)

def tgCryAesE (data key iv : Bytes) : Option Buf :=
  tgCryAes moves (crypto.igeEncrypt key iv) (crypto.length_igeEncrypt key iv) data

def tgCryAesD (data key iv : Bytes) : Option Buf :=
  tgCryAes moves (crypto.igeDecrypt key iv) (crypto.length_igeDecrypt key iv) data

variable (key : Bytes)

/-- `tg_encrypt`, for an auth key `tg->key` of at least 120 bytes. -/
def tgEncrypt (b : Buf) (enc : Bool) : Option Buf :=
  if enc then do
    let large ← bufAdd moves (substr key 88 32)
    let large ← bufCat moves large b.bytes
    let msgKey := substr (crypto.sha256 large.bytes) 8 16
    let enc ← tgCryAesE moves crypto b.bytes (aesKey crypto key 0 msgKey)
      (aesIv crypto key 0 msgKey)
    let e ← bufCat moves bufNew (authKeyId crypto key)
    let e ← bufCat moves e msgKey
    bufCat moves e enc.bytes
  else bufCat moves bufNew b.bytes

variable (model : DataModel)

/-- `tg_decrypt`, for an auth key `tg->key` of at least 128 bytes. -/
def tgDecrypt (m : Buf) (enc : Bool) : Option Buf :=
  if m.size = 0 then some bufNew
  else if enc then do
    let keyId ← (bufCursor m).read 8
    if getUi64 keyId ≠ getUi64 (authKeyId crypto key) then some bufNew
    else
      let (_, cursor) ← deserializeUi64 model (bufCursor m)
      let (msgKey, cursor) ← deserializeBuf model cursor 16
      if cursor.size.toNat % 16 ≠ 0 then some bufNew
      else
        let data ← cursor.read cursor.size.toNat
        tgCryAesD moves crypto data (aesKey crypto key 8 msgKey) (aesIv crypto key 8 msgKey)
  else bufCat moves bufNew m.bytes

end Encrypt

/-! ## Lengths -/

theorem length_substr {bytes : Bytes} {off count : ℕ} (hle : off + count ≤ bytes.length) :
    (substr bytes off count).length = count := length_take_drop hle

section Lengths

variable (crypto : Crypto) (key : Bytes) (x : ℕ) (plain : Bytes)

theorem length_authKeyId : (authKeyId crypto key).length = 8 := by
  apply length_substr
  rw [crypto.length_sha1]

theorem length_msgKey : (msgKey crypto key x plain).length = 16 := by
  apply length_substr
  rw [crypto.length_sha256]
  decide

end Lengths

/-! ## The cipher -/

/-- The allocation of `tg_cry_aes_e` and `tg_cry_aes_d` is large enough for `count` bytes. -/
def CipherRoom (count : ℕ) : Prop := count ≤ max bufsiz (count * 3 % 2 ^ 32)

section Cipher

variable {moves : ℕ → Bool} {cipher : Bytes → Bytes}
  {hlength : ∀ data, data.length % 16 = 0 → (cipher data).length = data.length} {data : Bytes}

variable (moves) in
theorem cipherBlock_spec (hblocks : data.length % 16 = 0) :
    ∃ r, cipherBlock moves data.length = some r ∧
      r.asize = max bufsiz (data.length * 3 % 2 ^ 32) := by
  unfold cipherBlock
  split
  case isTrue =>
    obtain ⟨r, hrealloc, -, -, hasize, -⟩ :=
      bufRealloc_spec moves holds_bufNew (data.length * 3 % 2 ^ 32) (by omega)
    exact ⟨r, hrealloc, hasize⟩
  case isFalse hzero =>
    rw [Nat.eq_zero_of_not_pos hzero]
    exact ⟨bufNew, rfl, rfl⟩

variable (moves cipher hlength) in
theorem tgCryAes_of_room (hblocks : data.length % 16 = 0) (hroom : CipherRoom data.length) :
    ∃ r, tgCryAes moves cipher hlength data = some r ∧ r.size = data.length ∧
      r.bytes = cipher data := by
  obtain ⟨r, hblock, hasize⟩ := cipherBlock_spec moves hblocks
  have hfits : data.length ≤ r.asize := hasize ▸ hroom
  rw [tgCryAes, dif_pos hblocks, hblock, Option.bind_eq_bind, Option.bind_some, dif_pos hfits]
  refine ⟨_, rfl, rfl, ?_⟩
  change (overwrite r.mem 0 (cipher data)).take data.length = cipher data
  rw [overwrite, List.take_zero, List.nil_append, ← hlength data hblocks, List.take_left]

theorem tgCryAes_of_no_room (hroom : ¬ CipherRoom data.length) :
    tgCryAes moves cipher hlength data = none := by
  by_cases hblocks : data.length % 16 = 0
  · obtain ⟨r, hblock, hasize⟩ := cipherBlock_spec moves hblocks
    have hsmall : ¬ data.length ≤ r.asize := hasize ▸ hroom
    rw [tgCryAes, dif_pos hblocks, hblock, Option.bind_eq_bind, Option.bind_some, dif_neg hsmall]
  · rw [tgCryAes, dif_neg hblocks]

end Cipher

/-! ## What `tg_encrypt` and `tg_decrypt` return -/

section Spec

variable {moves : ℕ → Bool} {crypto : Crypto} {key : Bytes} {model : DataModel} {m : Buf}

/-- `tg_encrypt` seals whole blocks of plaintext as a client. -/
theorem tgEncrypt_spec {b : Buf} (hblocks : b.size % 16 = 0) (hroom : CipherRoom b.size)
    (hkey : 120 ≤ key.length) (hsize : b.size + 33 < 2 ^ 32) :
    ∃ e, tgEncrypt moves crypto key b true = some e ∧
      e.bytes = sealPacket crypto key 0 b.bytes := by
  have hlength := length_bytes b
  have hpart : (substr key 88 32).length = 32 := length_substr (by omega)
  obtain ⟨first, hfirst, hholds⟩ := bufAdd_spec moves (substr key 88 32) (by rw [hpart]; decide)
  obtain ⟨large, hlarge, hholds, -⟩ := bufCat_spec moves hholds b.bytes (by
    rw [hpart, hlength]
    omega)
  have hmsgKey : substr (crypto.sha256 large.bytes) 8 16 = msgKey crypto key 0 b.bytes := by
    rw [hholds.bytes_eq, msgKey]
  obtain ⟨enc, henc, hencSize, hencBytes⟩ : ∃ enc, tgCryAesE moves crypto b.bytes
      (aesKey crypto key 0 (msgKey crypto key 0 b.bytes))
      (aesIv crypto key 0 (msgKey crypto key 0 b.bytes)) = some enc ∧ _ ∧ _ :=
    tgCryAes_of_room moves _ _ (by rw [hlength, hblocks]) (by rw [hlength]; exact hroom)
  obtain ⟨withId, hwithId, hwithIdHolds, -⟩ :=
    bufCat_spec moves holds_bufNew (authKeyId crypto key) (by
      rw [length_authKeyId]
      decide)
  obtain ⟨withKey, hwithKey, hwithKeyHolds, -⟩ :=
    bufCat_spec moves hwithIdHolds (msgKey crypto key 0 b.bytes) (by
      rw [List.nil_append, length_authKeyId, length_msgKey]
      decide)
  obtain ⟨e, he, heHolds, -⟩ := bufCat_spec moves hwithKeyHolds enc.bytes (by
    rw [List.nil_append, List.length_append, length_authKeyId, length_msgKey, length_bytes,
      hencSize, hlength]
    omega)
  refine ⟨e, ?_, ?_⟩
  · simp only [tgEncrypt, if_true, Option.bind_eq_bind, hfirst, Option.bind_some, hlarge, hmsgKey,
      henc, hwithId, hwithKey, he]
  · rw [heHolds.bytes_eq, List.nil_append, hencBytes, sealPacket, encryptedData]

/-- `tg_decrypt` of a packet with a whole key id and message key. -/
theorem tgDecrypt_of_header (hsize : m.size + 1 < 2 ^ 32) (hheader : 24 ≤ m.size) :
    tgDecrypt moves crypto key model m true =
      if m.bytes.take 8 ≠ authKeyId crypto key ∨ (m.size - 24) % 16 ≠ 0 then some bufNew
      else tgCryAesD moves crypto (m.bytes.drop 24) (aesKey crypto key 8 (substr m.bytes 8 16))
        (aesIv crypto key 8 (substr m.bytes 8 16)) := by
  obtain ⟨slack, hcursor⟩ := bufCursor_eq m
  have hlength := length_bytes m
  have hfits : m.bytes.length + 1 < 2 ^ 32 := by rw [hlength]; exact hsize
  have hpeek : (cursorAt m.bytes slack 0).read 8 = some (m.bytes.take 8) := read_at (by omega)
  have hkeyId : deserializeUi64 model (cursorAt m.bytes slack 0) = _ :=
    deserializeUi64_at (by omega) hfits
  have hmsgKey : deserializeBuf model (cursorAt m.bytes slack (0 + 8)) (16 : ℕ) = _ :=
    deserializeBuf_at (by omega) hfits (by omega)
  have hrest : (cursorAt m.bytes slack (0 + 8 + 16)).size.toNat = m.size - 24 := by
    rw [toNat_size_cursorAt hfits, hlength]
  have hdata : (cursorAt m.bytes slack (0 + 8 + 16)).read (m.size - 24) =
      some (m.bytes.drop 24) := by
    rw [read_at (by omega), List.take_of_length_le (by rw [List.length_drop]; omega)]
  have hsame : getUi64 (m.bytes.take 8) = getUi64 (authKeyId crypto key) ↔
      m.bytes.take 8 = authKeyId crypto key :=
    getUi64_inj (List.length_take_of_le (by omega)) (length_authKeyId crypto key)
  rw [tgDecrypt, if_neg (by omega), if_pos rfl, hcursor, hpeek]
  simp only [Option.bind_eq_bind, Option.bind_some, hkeyId]
  rw [Nat.cast_ofNat] at hmsgKey
  simp only [hmsgKey, Option.bind_some, hrest, hdata, ne_eq, hsame, substr]
  by_cases hid : m.bytes.take 8 = authKeyId crypto key
  · rw [if_neg (not_not_intro hid)]
    exact if_congr (by simp [hid]) rfl rfl
  · rw [if_pos hid, if_pos (.inl hid)]

/-- `tg_decrypt` of a shorter packet returns nothing, if it returns. The size has wrapped when it is
tested, so that the cipher would read more bytes than any block has. -/
theorem tgDecrypt_short {d : Buf} (hasize : m.asize + 1 < 2 ^ 32) (hshort : m.size < 24)
    (h : tgDecrypt moves crypto key model m true = some d) : d.size = 0 := by
  rw [tgDecrypt] at h
  split at h
  case isTrue =>
    cases h
    rfl
  case isFalse hne =>
    rw [if_pos rfl, Option.bind_eq_bind, Option.bind_eq_some_iff] at h
    obtain ⟨keyId, -, h⟩ := h
    split at h
    case isTrue =>
      cases h
      rfl
    case isFalse =>
      obtain ⟨⟨_, first⟩, hfirst, h⟩ := Option.bind_eq_some_iff.mp h
      obtain ⟨⟨_, second⟩, hsecond, h⟩ := Option.bind_eq_some_iff.mp h
      dsimp only at h
      split at h
      case isTrue =>
        cases h
        rfl
      case isFalse =>
        obtain ⟨data, hdata, -⟩ := Option.bind_eq_some_iff.mp h
        have hcursor : second = ((bufCursor m).advance model 8).advance model 16 := by
          rw [deserializeBuf_advance hsecond, deserializeUi64_advance hfirst]
        have hoff : second.off = 24 := by
          rw [hcursor]
          cases model <;> rfl
        have hblock : second.block.length = m.asize + 1 := by
          rw [hcursor, ← m.mem_length]
          rfl
        have hwrapped : second.size.toNat = 2 ^ 32 + m.size - 24 := by
          rw [hcursor]
          simp only [Cursor.advance, bufCursor, UInt32.toNat_sub, UInt32.toNat_ofNat']
          have height : (UInt32.ofInt 8).toNat = 8 := rfl
          have hsixteen : (UInt32.ofInt 16).toNat = 16 := rfl
          omega
        rw [Cursor.read, if_neg (by omega)] at hdata
        cases hdata

end Spec

end LibTg.Tg
