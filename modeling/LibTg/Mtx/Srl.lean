import LibTg.Crypto.Sha1
import LibTg.Mtx.Sil
import LibTg.Tg.Encrypt

/-!
# The handshake (`mtx/src/srl.c`, `mtx/src/tgt.c`, `mtx/src/stk.c`)

`srl_auth` agrees on an auth key by three requests. It draws its nonce, its secret exponent and its
padding from the second in which it draws them, and its new nonce is constant. The nonces of the
answers are compared at the end, but a difference is only reported.
-/

namespace LibTg.Mtx

open LibTg.Tg (Rand)

/-- The libraries below `mtx`: the generator of random numbers, `factor`, AES, the numbers of the
public key in `pub.pkcs`, and what the uninitialised state of a hash holds. -/
structure Libraries where
  rand : Rand
  factor : UInt64 → UInt32 × UInt32
  crypto : Tg.Crypto
  rsaN : ℕ
  rsaE : ℕ
  sha1nfo : Crypto.Sha1nfo

/-- What a handshake takes from its moment: the seconds in which it draws, its message ids, and the
contents of the uninitialised buffer `dwh`. -/
structure Moment where
  nonceTime : ℕ
  bTime : ℕ
  padTime : ℕ
  reqPqId : UInt64
  reqDHParamsId : UInt64
  setClientDHParamsId : UInt64
  dwh : Bytes

/-- What `net_receive` returns after the packets of a connection, for any behaviour of the peer. A
failed call is the empty buffer, which is as useless. -/
abbrev Peer := List Buf → Buf

/-- A connection with the global record of `sil.c`. -/
structure World where
  sent : List Buf
  received : List Buf
  t : TypeSystem

/-! ## `stk_drive` -/

/-- The packet that `stk_drive` sends. -/
def stkSend (msgId : UInt64) (params : List Param) : Option Buf := do
  let s ← selSerialize params
  let s1 ← hdlHeader msgId s
  let e ← enlEncrypt s1
  trlTransport e

/-- What `stk_drive` makes of the packet that it receives. -/
def stkReceive (nr : Buf) : Option (UInt32 × Buf) := do
  let tr ← trlDetransport nr
  let d ← enlDecrypt tr
  let s1r ← hdlDeheader d
  selDeserialize s1r

/-- The answer read into the global record. -/
def receive (t : TypeSystem) (nr : Buf) : Option TypeSystem := do
  let a ← stkReceive nr
  silConcrete t a

/-- `method_req_pq_drive` and its siblings. -/
def methodDrive (peer : Peer) (msgId : UInt64) (m : Method) (w : World) : Option World := do
  let params ← silAbstract m
  let packet ← stkSend msgId params
  let sent := w.sent ++ [packet]
  let nr := peer sent
  let t ← receive w.t nr
  some ⟨sent, w.received ++ [nr], t⟩

section Handshake

variable (lib : Libraries)

/-! ## `cmn.c`, `cry.c`, `hsh.c`, `rsa.c` -/

def hshSha1 (b : Buf) : Option Buf := do
  let h ← Crypto.sha1 lib.sha1nfo b.bytes
  bufAdd h

/-- `cmn_pow_mod`. The number is written without leading zeros; OpenSSL fails for the modulus zero. -/
def cmnPowMod (g e m : Buf) : Option Buf :=
  if beNat m.bytes = 0 then none
  else
    let y := beNat g.bytes ^ beNat e.bytes % beNat m.bytes
    bufAdd (beBytes (byteLength y) y)

/-- `cry_rsa_e`. The number stands at the start of 256 bytes. -/
def cryRsaE (b : Buf) : Option Buf :=
  if lib.rsaN = 0 then none
  else
    let y := beNat b.bytes ^ lib.rsaE % lib.rsaN
    if byteLength y ≤ 256 then
      bufAdd (beBytes (byteLength y) y ++ List.replicate (256 - byteLength y) 0)
    else none

/-- `cry_aes_e`; OpenSSL stops the program for a size that is not a multiple of 16. -/
def cryAesE (b key iv : Buf) : Option Buf :=
  if b.size % 16 = 0 then bufAdd (lib.crypto.igeEncrypt key.bytes iv.bytes b.bytes) else none

def cryAesD (b key iv : Buf) : Option Buf :=
  if b.size % 16 = 0 then bufAdd (lib.crypto.igeDecrypt key.bytes iv.bytes b.bytes) else none

/-! ## `req_DH_params` -/

/-- `ctor_P_Q_inner_data_init`. The new nonce is 32 zeros. -/
def ctorPQInnerDataInit (nonce : Param) (resPQ : ResPQ) (p q : Param) : Option PQInnerData := do
  let randArray ← zeroBuf 32
  some ⟨resPQ.pq, p, q, nonce, resPQ.serverNonce, ⟨.int256, randArray⟩⟩

def ctorPQInnerDataDrive (c : PQInnerData) : Option Buf := do
  let params ← silAbstract (.pQInnerData c)
  selSerialize params

/-- `method_req_DH_params_init`, with the contents of `dwh`. A padding below zero bytes is far too
large. -/
def methodReqDHParamsInit (dwh : Bytes) (nonce : Param) (resPQ : ResPQ) : Option ReqDHParams := do
  let pq := bufGetUi64 (bufSwap resPQ.pq.value)
  let (p, q) := lib.factor pq
  let (p, q) := if p < q then (p, q) else (q, p)
  let p := ⟨.string, bufSwap (← bufAddUi32 p)⟩
  let q := ⟨.string, bufSwap (← bufAddUi32 q)⟩
  let c ← ctorPQInnerDataInit nonce resPQ p q
  let d ← ctorPQInnerDataDrive c
  let h ← hshSha1 lib d
  let dwh ← bufAdd dwh
  let dwh ← bufCat dwh h
  let dwh ← bufCat dwh d
  let pad ← zeroBuf ((255 + (2 ^ 32 - dwh.size)) % 2 ^ 32)
  let dwh ← bufCat dwh pad
  let encrypted ← cryRsaE lib dwh
  some
    { nonce
      serverNonce := resPQ.serverNonce
      p
      q
      publicKeyFingerprint := resPQ.serverPublicKeyFingerprints
      encryptedData := ⟨.string, encrypted⟩
      pQInnerData := c }

/-! ## `set_client_DH_params` -/

/-- `size -= count` in front of a copy: a size below zero makes the copy too large. -/
def Buf.shorten (b : Buf) (count : ℕ) : Option Buf :=
  if count ≤ b.size then bufAdd (b.bytes.take (b.size - count)) else none

/-- `tmp_aes_key` and `tmp_aes_iv`. -/
def tmpAes (newNonce serverNonce : Buf) : Option (Buf × Buf) := do
  let newServer ← bufCat newNonce serverNonce
  let newServerHash ← hshSha1 lib newServer
  let serverNew ← bufCat serverNonce newNonce
  let serverNewHash ← hshSha1 lib serverNew
  let substr012 ← serverNewHash.part 0 12
  let tmpAesKey ← bufCat newServerHash substr012
  let substr128 ← serverNewHash.part 12 8
  let newNew ← bufCat newNonce newNonce
  let newNewHash ← hshSha1 lib newNew
  let substr04 ← newNonce.part 0 4
  let tmpAesIv ← bufCat substr128 newNewHash
  let tmpAesIv ← bufCat tmpAesIv substr04
  some (tmpAesKey, tmpAesIv)

/-- `ctor_Server_DH_inner_data_init`: the answer without its hash and the last eight bytes, and the
parameters of the cipher. -/
def ctorServerDHInnerDataInit (nonce : Param) (resPQ : ResPQ) (p q : Param)
    (encryptedAnswer : Param) : Option (Buf × Buf × Buf) := do
  let nn ← ctorPQInnerDataInit nonce resPQ p q
  let (tmpAesKey, tmpAesIv) ← tmpAes lib nn.newNonce.value resPQ.serverNonce.value
  let answer ← cryAesD lib encryptedAnswer.value tmpAesKey tmpAesIv
  let answer ← answer.rest 20
  let answer ← answer.shorten 8
  some (answer, tmpAesKey, tmpAesIv)

def ctorServerDHInnerDataDrive (t : TypeSystem) (b : Buf) : Option TypeSystem := do
  let a ← selDeserialize b
  silConcrete t a

/-- `ctor_Client_DH_Inner_Data_init` in a given second. The retry id has four of its eight bytes. -/
def ctorClientDHInnerDataInit (bTime : ℕ) (c1 : ServerDHInnerData) : Option ClientDHInnerData := do
  let retryId ← bufAddUi32 0
  let g := bufSwap c1.g.value
  let b ← bufRand lib.rand bTime 256
  let gB ← cmnPowMod g b c1.dhPrime.value
  some ⟨c1.nonce, c1.serverNonce, ⟨.long, retryId⟩, ⟨.string, gB⟩, b⟩

def ctorClientDHInnerDataDrive (c : ClientDHInnerData) : Option Buf := do
  let params ← silAbstract (.clientDHInnerData c)
  selSerialize params

/-- The first `method_set_client_DH_params_t`: the request, the exponents and the salt. -/
structure SetClientDHParams where
  nonce : Param
  serverNonce : Param
  encryptedData : Param
  serverDHInnerData : ServerDHInnerData
  clientDHInnerData : ClientDHInnerData
  salt : Buf

/-- `method_set_client_DH_params_init`, with the global record. -/
def methodSetClientDHParamsInit (moment : Moment) (nonce : Param) (resPQ : ResPQ)
    (m2 : ReqDHParams) (t : TypeSystem) : Option (SetClientDHParams × TypeSystem) := do
  let (a, tmpAesKey, tmpAesIv) ← ctorServerDHInnerDataInit lib nonce resPQ m2.p m2.q
    t.serverDHParamsOk.encryptedAnswer
  let t ← ctorServerDHInnerDataDrive t a
  let c1 := t.serverDHInnerData
  let c2 ← ctorClientDHInnerDataInit lib moment.bTime c1
  let data ← ctorClientDHInnerDataDrive c2
  let hash ← hshSha1 lib data
  let rand ← bufRand lib.rand moment.padTime ((16 - (hash.size + data.size) % 16) % 16)
  let dataWithHash ← bufCat hash data
  let dataWithHash ← bufCat dataWithHash rand
  let encryptedData ← cryAesE lib dataWithHash tmpAesKey tmpAesIv
  let newNonceS ← m2.pQInnerData.newNonce.value.part 0 8
  let serverNonceS ← resPQ.serverNonce.value.part 0 8
  let salt ← bufXor newNonceS serverNonceS
  some (⟨nonce, resPQ.serverNonce, ⟨.string, encryptedData⟩, c1, c2, salt⟩, t)

/-! ## `srl_auth` -/

/-- `shared_rc.key` and `shared_rc.salt`. -/
structure Secrets where
  key : Buf
  salt : Buf
  deriving DecidableEq

/-- `srl_auth` on a new connection. -/
def srlAuth (moment : Moment) (peer : Peer) (t : TypeSystem) : Option (Secrets × World) := do
  let nonce : Param := ⟨.int128, ← bufRand lib.rand moment.nonceTime 16⟩
  let w ← methodDrive peer moment.reqPqId (.reqPq nonce) ⟨[], [], t⟩
  let resPQ := w.t.resPQ
  let m1 ← methodReqDHParamsInit lib moment.dwh nonce resPQ
  let w ← methodDrive peer moment.reqDHParamsId (.reqDHParams m1) w
  let (m2, t) ← methodSetClientDHParamsInit lib moment nonce resPQ m1 w.t
  let w ← methodDrive peer moment.setClientDHParamsId
    (.setClientDHParams m2.nonce m2.serverNonce m2.encryptedData) { w with t }
  let key ← cmnPowMod m2.serverDHInnerData.gA.value m2.clientDHInnerData.b
    m2.serverDHInnerData.dhPrime.value
  some (⟨key, m2.salt⟩, w)

end Handshake

end LibTg.Mtx
