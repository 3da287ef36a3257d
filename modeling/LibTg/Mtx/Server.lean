import LibTg.Mtx.Eavesdrop
import LibTg.Tl.Parser

/-!
# The server of the handshake

What the protocol lets the server do: it answers a request only if every field of it is right, reads
the new nonce with its private key and the number `g_b` with the temporary key, and computes the auth
key and the salt. Its packets are those of an honest server; `mtx` has no code for it.
-/

namespace LibTg.Mtx

open LibTg.Tl (tlBytes tlBytesHeader tlPadding takeBytes parseUi32 parseUi64 parsePadded parseBytes)

/-! ## Reading requests -/

/-- What follows the bytes that must come first. -/
def expect (first data : Bytes) : Option Bytes :=
  if data.take first.length = first then some (data.drop first.length) else none

/-- The message in a packet without a key. -/
def openFrame (packet : Bytes) : Option Bytes := do
  let (size, rest) ← parseUi32 packet
  let sealed := rest
  let rest ← expect (List.replicate 8 0) rest
  let (_, rest) ← parseUi64 rest
  let (len, data) ← parseUi32 rest
  if size.toNat = sealed.length ∧ len.toNat = data.length then some data else none

/-- What is read of bytes behind their hash, whatever pads them. -/
def openHashed {Value : Type} (read : Bytes → Option (Value × Bytes)) (plain : Bytes) :
    Option Value := do
  let (hash, data) ← takeBytes 20 plain
  let (value, padding) ← read data
  if SecureHash.sha1 (data.take (data.length - padding.length)) = hash then some value else none

/-- The parameters of a server, and what it draws for a handshake. -/
structure Server where
  rsaDecrypt : ℕ → ℕ
  serverNonce : Bytes
  p : UInt32
  q : UInt32
  fingerprint : UInt64
  otherFingerprints : List UInt64
  g : UInt32
  dhPrime : ℕ
  a : ℕ
  serverTime : UInt32
  padding : Bytes
  resPQId : UInt64
  dhParamsId : UInt64
  dhGenId : UInt64
  length_serverNonce : serverNonce.length = 16
  p_lt_q : p < q
  length_fingerprints : otherFingerprints.length < maxParamSize
  dhPrime_ge : 256 ^ 255 ≤ dhPrime
  dhPrime_lt : dhPrime < 256 ^ 256
  gA_ge : 256 ^ 253 ≤ g.toNat ^ a % dhPrime
  length_padding : padding.length = 8

namespace Server

variable (server : Server) (crypto : Tg.Crypto)

/-- The product that the client has to factor, in eight bytes. -/
def pq : Bytes := beBytes 8 (server.p.toNat * server.q.toNat)

def gA : ℕ := server.g.toNat ^ server.a % server.dhPrime

/-! ### The first request -/

/-- The nonce of `req_pq`. -/
def reqPq (packet : Bytes) : Option Bytes := do
  let data ← expect (le32 0x60469778) (← openFrame packet)
  let (nonce, rest) ← takeBytes 16 data
  if rest = [] then some nonce else none

def resPQ (nonce : Bytes) : Bytes :=
  frame server.resPQId (le32 idResPQ ++ (nonce ++ (server.serverNonce ++ (tlBytes server.pq ++
    (le32 idVector ++ (le32 (UInt32.ofNat (server.otherFingerprints.length + 1)) ++
      (le64 server.fingerprint ++ server.otherFingerprints.flatMap le64)))))))

/-! ### The second request -/

/-- `p_q_inner_data` in front of the new nonce. -/
def pqInner (nonce p q : Bytes) : Bytes :=
  le32 0x83c95aec ++ tlBytes server.pq ++ tlBytes p ++ tlBytes q ++ nonce ++ server.serverNonce

/-- The new nonce of `p_q_inner_data`. -/
def readNewNonce (nonce p q data : Bytes) : Option (Bytes × Bytes) := do
  let data ← expect (server.pqInner nonce p q) data
  takeBytes 32 data

/-- The new nonce of `req_DH_params`, if everything else in the request is right. -/
def reqDHParams (nonce packet : Bytes) : Option Bytes := do
  let data ← expect (le32 0xd712e4be) (← openFrame packet)
  let data ← expect nonce data
  let data ← expect server.serverNonce data
  let (p, data) ← parseBytes data
  let (q, data) ← parseBytes data
  let data ← expect (le64 server.fingerprint) data
  let (encryptedData, rest) ← parseBytes data
  if rest = [] ∧ beNat p = server.p.toNat ∧ beNat q = server.q.toNat then
    openHashed (server.readNewNonce nonce p q)
      (beBytes 255 (server.rsaDecrypt (beNat encryptedData)))
  else none

/-- `server_DH_inner_data`. -/
def dhInner (nonce : Bytes) : Bytes :=
  le32 idServerDHInnerData ++ (nonce ++ (server.serverNonce ++ (le32 server.g ++
    (tlBytes (beBytes 256 server.dhPrime) ++ (tlBytes (beBytes (byteLength server.gA) server.gA) ++
      le32 server.serverTime)))))

def encryptedAnswer (nonce newNonce : Bytes) : Bytes :=
  crypto.igeEncrypt (tmpAesKey newNonce server.serverNonce) (tmpAesIv newNonce server.serverNonce)
    (SecureHash.sha1 (server.dhInner nonce) ++ (server.dhInner nonce ++ server.padding))

/-- `server_DH_params_ok`. -/
def dhParamsOk (nonce newNonce : Bytes) : Bytes :=
  frame server.dhParamsId (le32 idServerDHParamsOk ++ (nonce ++ (server.serverNonce ++
    tlBytes (server.encryptedAnswer crypto nonce newNonce))))

/-! ### The third request -/

/-- The number `g_b` of `client_DH_inner_data`. -/
def readGB (nonce data : Bytes) : Option (ℕ × Bytes) := do
  let data ← expect (le32 0x6643b654 ++ nonce ++ server.serverNonce ++ le64 0) data
  let (gB, rest) ← parseBytes data
  some (beNat gB, rest)

/-- The number `g_b` of `set_client_DH_params`, if everything else in the request is right. -/
def setClientDHParams (nonce newNonce packet : Bytes) : Option ℕ := do
  let data ← expect (le32 0xf5045f1f) (← openFrame packet)
  let data ← expect nonce data
  let data ← expect server.serverNonce data
  let (encryptedData, rest) ← parseBytes data
  if rest = [] ∧ encryptedData.length % 16 = 0 then
    openHashed (server.readGB nonce) (crypto.igeDecrypt (tmpAesKey newNonce server.serverNonce)
      (tmpAesIv newNonce server.serverNonce) encryptedData)
  else none

/-- The auth key: 256 bytes. -/
def authKey (gB : ℕ) : Bytes := beBytes 256 (gB ^ server.a % server.dhPrime)

/-- `server_salt`. -/
def salt (newNonce : Bytes) : Bytes :=
  List.zipWith (· ^^^ ·) (newNonce.take 8) (server.serverNonce.take 8)

/-- `dh_gen_ok`, with the hash of the new nonce and the auth key. -/
def dhGenOk (nonce newNonce authKey : Bytes) : Bytes :=
  let hash := SecureHash.sha1 (newNonce ++ [1] ++ (SecureHash.sha1 authKey).take 8)
  frame server.dhGenId (le32 idDhGenOk ++ (nonce ++ (server.serverNonce ++ hash.drop 4)))

/-! ### A connection -/

/-- The auth key and the salt of a connection. -/
def secrets (sent : List Buf) : Option (Bytes × Bytes) :=
  match sent with
  | [first, second, third] => do
    let nonce ← reqPq first.bytes
    let newNonce ← server.reqDHParams nonce second.bytes
    let gB ← server.setClientDHParams crypto nonce newNonce third.bytes
    some (server.authKey gB, server.salt newNonce)
  | _ => none

/-- The answer to the last of the packets of a connection, if they are in order. -/
def answer (sent : List Buf) : Option Bytes :=
  match sent with
  | [first] => do
    let nonce ← reqPq first.bytes
    some (server.resPQ nonce)
  | [first, second] => do
    let nonce ← reqPq first.bytes
    let newNonce ← server.reqDHParams nonce second.bytes
    some (server.dhParamsOk crypto nonce newNonce)
  | [first, second, third] => do
    let nonce ← reqPq first.bytes
    let newNonce ← server.reqDHParams nonce second.bytes
    let gB ← server.setClientDHParams crypto nonce newNonce third.bytes
    some (server.dhGenOk nonce newNonce (server.authKey gB))
  | _ => none

/-- The server as the peer of a connection. A packet arrives whole. -/
def peer : Peer := fun sent ↦ (server.answer crypto sent >>= bufAdd).getD .empty

end Server

/-! ## What is written is read back -/

theorem expect_append (first rest : Bytes) : expect first (first ++ rest) = some rest := by
  rw [expect, List.take_left, if_pos rfl, List.drop_left]

theorem takeBytes_append {first : Bytes} (rest : Bytes) {count : ℕ} (hcount : first.length = count) :
    takeBytes count (first ++ rest) = some (first, rest) := by
  rw [takeBytes, ← hcount, if_pos (by rw [List.length_append]; omega), List.take_left,
    List.drop_left]

theorem parseUi32_append (value : UInt32) (rest : Bytes) :
    parseUi32 (le32 value ++ rest) = some (value, rest) := by
  rw [parseUi32, takeBytes_append rest (length_le32 value), Option.map_some, Prod.map_apply,
    getUi32_le32, id_eq]

theorem parseUi64_append (value : UInt64) (rest : Bytes) :
    parseUi64 (le64 value ++ rest) = some (value, rest) := by
  rw [parseUi64, takeBytes_append rest (length_le64 value), Option.map_some, Prod.map_apply,
    getUi64_le64, id_eq]

theorem parsePadded_append (bytes rest : Bytes) (offset : ℕ) :
    parsePadded bytes.length offset (bytes ++ (tlPadding (bytes.length + offset) ++ rest)) =
      some (bytes, rest) := by
  have hlength : (tlPadding (bytes.length + offset)).length =
      (4 - (bytes.length + offset) % 4) % 4 := List.length_replicate ..
  have hpadding := takeBytes_append rest hlength
  simp only [parsePadded, takeBytes_append _ rfl, Option.bind_eq_bind, Option.bind_some, hpadding]

/-- The two forms of a string, told apart by the first byte. -/
theorem parseBytes_of_first {input : Bytes} {first : UInt8} {more : Bytes}
    (hinput : input = first :: more) (hlength : 4 ≤ input.length) :
    parseBytes input =
      if first ≤ 253 then parsePadded first.toNat 1 (input.drop 1)
      else parsePadded (leNat ((input.take 4).drop 1)) 0 (input.drop 4) := by
  have hword : takeBytes 4 input = some (input.take 4, input.drop 4) := if_pos hlength
  have hhead : (input.take 4).headD 0 = first := by rw [hinput]; rfl
  simp only [parseBytes, hword, Option.bind_eq_bind, Option.bind_some, hhead]

theorem parseBytes_short {bytes : Bytes} (hshort : bytes.length ≤ 253) (rest : Bytes) :
    parseBytes (tlBytes bytes ++ rest) = some (bytes, rest) := by
  have hfour := Tl.four_le_length_tlBytes bytes
  have hinput : tlBytes bytes ++ rest =
      UInt8.ofNat bytes.length :: (bytes ++ (tlPadding (bytes.length + 1) ++ rest)) := by
    rw [tlBytes, tlBytesHeader, if_pos hshort, List.length_append, List.length_singleton,
      Nat.add_comm 1]
    simp only [List.append_assoc, List.cons_append, List.nil_append]
  have htoNat : (UInt8.ofNat bytes.length).toNat = bytes.length := by
    rw [UInt8.toNat_ofNat']
    omega
  have hfirst : UInt8.ofNat bytes.length ≤ 253 := by
    rw [UInt8.le_iff_toNat_le, htoNat]
    exact hshort
  rw [parseBytes_of_first hinput (by rw [List.length_append]; omega), if_pos hfirst, htoNat, hinput,
    List.drop_succ_cons, List.drop_zero, parsePadded_append]

theorem parseBytes_long {bytes : Bytes} (hlong : ¬ bytes.length ≤ 253)
    (hlength : bytes.length < 2 ^ 24) (rest : Bytes) :
    parseBytes (tlBytes bytes ++ rest) = some (bytes, rest) := by
  have hpadding : tlPadding (4 + bytes.length) = tlPadding (bytes.length + 0) := by
    rw [tlPadding, tlPadding, Nat.add_mod_left, Nat.add_zero]
  have hinput : tlBytes bytes ++ rest =
      (0xfe :: leBytes 3 bytes.length) ++ (bytes ++ (tlPadding (bytes.length + 0) ++ rest)) := by
    rw [← hpadding, tlBytes, tlBytesHeader, if_neg hlong, List.length_append, List.length_cons,
      length_leBytes]
    simp only [List.append_assoc]
  have hfour : (0xfe :: leBytes 3 bytes.length).length = 4 := rfl
  have hlen : leNat ((0xfe :: leBytes 3 bytes.length).drop 1) = bytes.length := by
    rw [List.drop_succ_cons, List.drop_zero, leNat_leBytes]
    exact Nat.mod_eq_of_lt hlength
  rw [parseBytes_of_first (hinput.trans (List.cons_append ..))
      (by rw [hinput, List.length_append, hfour]; omega), if_neg (by decide), hinput,
    List.take_left' hfour, List.drop_left' hfour, hlen, parsePadded_append]

theorem parseBytes_append {bytes : Bytes} (hlength : bytes.length < 2 ^ 24) (rest : Bytes) :
    parseBytes (tlBytes bytes ++ rest) = some (bytes, rest) := by
  by_cases hshort : bytes.length ≤ 253
  · exact parseBytes_short hshort rest
  · exact parseBytes_long hshort hlength rest

theorem toNat_ofNat_length {data : Bytes} (hlength : data.length < 2 ^ 32) :
    (UInt32.ofNat data.length).toNat = data.length := by
  rw [UInt32.toNat_ofNat']
  exact Nat.mod_eq_of_lt hlength

theorem openFrame_frame (msgId : UInt64) {data : Bytes} (hlength : data.length + 20 < 2 ^ 32) :
    openFrame (frame msgId data) = some data := by
  have hsealed : (List.replicate 8 0 ++ headed msgId data).length < 2 ^ 32 := by
    simp only [headed, List.length_append, List.length_replicate, length_le64, length_le32]
    omega
  have hshort : data.length < 2 ^ 32 := by omega
  have hdata := toNat_ofNat_length hshort
  unfold openFrame frame measured
  simp only [parseUi32_append, expect_append, Option.bind_eq_bind, Option.bind_some]
  rw [toNat_ofNat_length hsealed, headed, List.append_assoc, parseUi64_append, Option.bind_some,
    parseUi32_append, Option.bind_some, hdata, if_pos ⟨rfl, rfl⟩]

/-- Bytes behind their hash, with any padding that the reader leaves. -/
theorem openHashed_append {Value : Type} {read : Bytes → Option (Value × Bytes)} {value : Value}
    {data padding : Bytes} (hread : read (data ++ padding) = some (value, padding)) :
    openHashed read (SecureHash.sha1 data ++ (data ++ padding)) = some value := by
  have hdata : (data ++ padding).take ((data ++ padding).length - padding.length) = data := by
    rw [List.length_append, Nat.add_sub_cancel, List.take_left]
  simp only [openHashed, takeBytes_append _ (Crypto.length_sha1 data), hread, Option.bind_eq_bind,
    Option.bind_some, hdata, if_pos]

end LibTg.Mtx
