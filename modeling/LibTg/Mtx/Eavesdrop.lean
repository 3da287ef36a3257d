import LibTg.Mtx.Srl

/-!
# What an observer learns from a handshake

The new nonce of the client, which only the holder of the private RSA key should learn, is constant,
and the secret exponent is drawn from the second in which it is drawn. Who sees the answers of the
server and knows this second has everything that the key is made of.
-/

namespace LibTg.Mtx

open LibTg.Tg (Rand bufRandAt)

section Observer

variable (rand : Rand) (igeDecrypt : Bytes → Bytes → Bytes → Bytes)

/-- The constant new nonce. -/
def zeroNonce : Bytes := List.replicate 32 0

/-- `tmp_aes_key` by the formula of the protocol. -/
def tmpAesKey (newNonce serverNonce : Bytes) : Bytes :=
  SecureHash.sha1 (newNonce ++ serverNonce) ++ (SecureHash.sha1 (serverNonce ++ newNonce)).take 12

/-- `tmp_aes_iv` by the formula of the protocol. -/
def tmpAesIv (newNonce serverNonce : Bytes) : Bytes :=
  (SecureHash.sha1 (serverNonce ++ newNonce)).drop 12 ++ SecureHash.sha1 (newNonce ++ newNonce) ++
    newNonce.take 4

/-- The inner data of the answer of the server, decrypted with the constant nonce. -/
def observedInner (serverNonce encryptedAnswer : Bytes) : Bytes :=
  let inner := (igeDecrypt (tmpAesKey zeroNonce serverNonce) (tmpAesIv zeroNonce serverNonce)
    encryptedAnswer).drop 20
  inner.take (inner.length - 8)

/-- The key for the exponent drawn in a given second. -/
def observedKey (second : ℕ) (c : ServerDHInnerData) : Bytes :=
  let key := beNat c.gA.value.bytes ^ beNat (bufRandAt rand second 256).1 %
    beNat c.dhPrime.value.bytes
  beBytes (byteLength key) key

/-- The key and the salt of a handshake, from the answers of the server. -/
def eavesdrop (t : TypeSystem) (received : List Buf) (second : ℕ) :
    Option (Bytes × Bytes × TypeSystem) :=
  match received with
  | [resPQ, dhParams, answer] => do
    let t ← receive t resPQ
    let serverNonce := t.resPQ.serverNonce.value
    let t ← receive t dhParams
    let inner ← bufAdd (observedInner igeDecrypt serverNonce.bytes
      t.serverDHParamsOk.encryptedAnswer.value.bytes)
    let t ← ctorServerDHInnerDataDrive t inner
    let key := observedKey rand second t.serverDHInnerData
    let t ← receive t answer
    some (key, serverNonce.read 0 8, t)
  | _ => none

/-- The steps of the observer. -/
theorem eavesdrop_some {t t1 t2 t3 t4 : TypeSystem} {resPQ dhParams answer inner : Buf}
    {second : ℕ} (ht1 : receive t resPQ = some t1) (ht2 : receive t1 dhParams = some t2)
    (hinner : bufAdd (observedInner igeDecrypt t1.resPQ.serverNonce.value.bytes
      t2.serverDHParamsOk.encryptedAnswer.value.bytes) = some inner)
    (ht3 : ctorServerDHInnerDataDrive t2 inner = some t3) (ht4 : receive t3 answer = some t4) :
    eavesdrop rand igeDecrypt t [resPQ, dhParams, answer] second =
      some (observedKey rand second t3.serverDHInnerData, t1.resPQ.serverNonce.value.read 0 8,
        t4) := by
  unfold eavesdrop
  dsimp only [Option.bind_eq_bind]
  rw [ht1, Option.bind_some, ht2, Option.bind_some, hinner, Option.bind_some, ht3,
    Option.bind_some, ht4, Option.bind_some]

/-- The secrets of all handshakes of a program, from the answers and the second of each. -/
def eavesdropAll (t : TypeSystem) : List (List Buf × ℕ) → Option (List (Bytes × Bytes))
  | [] => some []
  | (received, second) :: sessions => do
    let (key, salt, t) ← eavesdrop rand igeDecrypt t received second
    let rest ← eavesdropAll t sessions
    some ((key, salt) :: rest)

end Observer

/-- The handshakes of a program, one after the other, each at its moment and with a peer of its own.
The global record of `sil.c` passes from each to the next. -/
def authRun (lib : Libraries) (t : TypeSystem) :
    List (Moment × Peer) → Option (List (Secrets × World))
  | [] => some []
  | (moment, peer) :: handshakes => do
    let (secrets, w) ← srlAuth lib moment peer t
    let rest ← authRun lib w.t handshakes
    some ((secrets, w) :: rest)

section Handshake

variable {lib : Libraries}

theorem authRun_cons {t : TypeSystem} {moment : Moment} {peer : Peer} {secrets : Secrets} {w : World}
    {handshakes : List (Moment × Peer)} {rest : List (Secrets × World)}
    (h : srlAuth lib moment peer t = some (secrets, w))
    (hrest : authRun lib w.t handshakes = some rest) :
    authRun lib t ((moment, peer) :: handshakes) = some ((secrets, w) :: rest) := by
  simp only [authRun, h, hrest, Option.bind_eq_bind, Option.bind_some]

/-! ## What the steps compute -/

theorem hshSha1_eq (b : Buf) : hshSha1 lib b = bufAdd (SecureHash.sha1 b.bytes) := by
  have hlength : b.bytes.length ≤ 800 := b.fits
  rw [hshSha1, Crypto.sha1_eq _ (by omega), Option.bind_eq_bind, Option.bind_some]

/-- A drive sends a packet and reads the answer to it. -/
theorem methodDrive_inv {peer : Peer} {msgId : UInt64} {m : Method} {w w' : World}
    (h : methodDrive peer msgId m w = some w') :
    ∃ nr, w'.received = w.received ++ [nr] ∧ receive w.t nr = some w'.t := by
  simp only [methodDrive, Option.bind_eq_bind, Option.bind_eq_some_iff] at h
  obtain ⟨params, -, packet, -, t, hreceive, heq⟩ := h
  cases heq
  exact ⟨_, rfl, hreceive⟩

theorem part_inv {b part : Buf} {offset count : ℕ} (h : b.part offset count = some part) :
    part.bytes = b.read offset count := by
  unfold Buf.part at h
  split at h
  · exact bufAdd_eq_some.mp h
  · cases h

/-- The parameters of the cipher are those of the protocol. -/
theorem tmpAes_inv {newNonce serverNonce key iv : Buf} (hnonce : 4 ≤ newNonce.size)
    (h : tmpAes lib newNonce serverNonce = some (key, iv)) :
    key.bytes = tmpAesKey newNonce.bytes serverNonce.bytes ∧
      iv.bytes = tmpAesIv newNonce.bytes serverNonce.bytes := by
  simp only [tmpAes, Option.bind_eq_bind, Option.bind_eq_some_iff, hshSha1_eq] at h
  obtain ⟨newServer, hnewServer, newServerHash, hnewServerHash, serverNew, hserverNew,
    serverNewHash, hserverNewHash, first, hfirst, whole, hwhole, last, hlast, newNew, hnewNew,
    newNewHash, hnewNewHash, start, hstart, front, hfront, vector, hvector, heq⟩ := h
  cases heq
  simp only [bufCat, bufAdd_eq_some] at hnewServer hnewServerHash hserverNew hserverNewHash
  simp only [bufCat, bufAdd_eq_some] at hwhole hnewNew hnewNewHash hfront hvector
  have hhash : serverNewHash.size = 20 := by
    rw [Buf.size, hserverNewHash, Crypto.length_sha1]
  have hlastBytes : last.bytes = (SecureHash.sha1 (serverNonce.bytes ++ newNonce.bytes)).drop 12 := by
    rw [part_inv hlast, read_of_le (by omega), hserverNewHash, hserverNew]
    exact List.take_of_length_le (by rw [List.length_drop, Crypto.length_sha1])
  constructor
  · rw [hwhole, hnewServerHash, hnewServer, part_inv hfirst, read_of_le (by omega), hserverNewHash,
      hserverNew, tmpAesKey, List.drop_zero]
  · rw [hvector, hfront, hlastBytes, hnewNewHash, hnewNew, part_inv hstart, read_of_le (by omega),
      tmpAesIv, List.drop_zero]

/-- What is decrypted of the answer, without its hash and its last eight bytes. -/
theorem ctorServerDHInnerDataInit_inv {nonce p q encryptedAnswer : Param} {resPQ : ResPQ}
    {answer key iv : Buf}
    (h : ctorServerDHInnerDataInit lib nonce resPQ p q encryptedAnswer = some (answer, key, iv)) :
    answer.bytes = observedInner lib.crypto.igeDecrypt resPQ.serverNonce.value.bytes
      encryptedAnswer.value.bytes := by
  simp only [ctorServerDHInnerDataInit, ctorPQInnerDataInit, Option.bind_eq_bind,
    Option.bind_eq_some_iff] at h
  obtain ⟨nn, ⟨zeros, hzeros, heq⟩, ⟨key', iv'⟩, htmp, plain, hplain, tail, htail, short, hshort,
    heq'⟩ := h
  cases heq
  cases heq'
  have hzeros : zeros.bytes = zeroNonce := bufAdd_eq_some.mp hzeros
  have hsize : zeros.size = 32 := by rw [Buf.size, hzeros]; rfl
  have htmp := tmpAes_inv (by dsimp only; omega) htmp
  dsimp only at htmp ⊢
  rw [hzeros] at htmp
  unfold cryAesD at hplain
  split at hplain
  case isTrue =>
    rw [bufAdd_eq_some, htmp.1, htmp.2] at hplain
    rw [rest_eq plain (by omega)] at htail
    split at htail
    case isTrue =>
      rw [bufAdd_eq_some, hplain] at htail
      unfold Buf.shorten at hshort
      split at hshort
      case isTrue => rw [bufAdd_eq_some.mp hshort, Buf.size, htail, observedInner]
      case isFalse => cases hshort
    case isFalse => cases htail
  case isFalse => cases hplain

theorem cmnPowMod_inv {g e m r : Buf} (h : cmnPowMod g e m = some r) :
    r.bytes = beBytes (byteLength (beNat g.bytes ^ beNat e.bytes % beNat m.bytes))
      (beNat g.bytes ^ beNat e.bytes % beNat m.bytes) := by
  unfold cmnPowMod at h
  split at h
  · cases h
  · exact bufAdd_eq_some.mp h

/-- The new nonce contributes nothing to the salt. -/
theorem bufXor_zeros {zeros b r : Buf} {count : ℕ} (hzeros : zeros.bytes = List.replicate count 0)
    (hb : b.size = count) (h : bufXor zeros b = some r) : r.bytes = b.bytes := by
  rw [bufXor, bufAdd_eq_some, Buf.size, hzeros, List.length_replicate, read_of_le (by omega),
    List.drop_zero, List.take_of_length_le hb.le] at h
  rw [h]
  subst hb
  rw [Buf.size]
  generalize b.bytes = bytes
  induction bytes with
  | nil => rfl
  | cons byte bytes ih =>
    rw [List.length_cons, List.replicate_succ, List.zipWith_cons_cons, ih, UInt8.zero_xor]

/-- The new nonce that the request encrypts. -/
theorem methodReqDHParamsInit_inv {dwh : Bytes} {nonce : Param} {resPQ : ResPQ} {m : ReqDHParams}
    (h : methodReqDHParamsInit lib dwh nonce resPQ = some m) :
    m.pQInnerData.newNonce.value.bytes = zeroNonce := by
  simp only [methodReqDHParamsInit, ctorPQInnerDataInit, Option.bind_eq_bind,
    Option.bind_eq_some_iff] at h
  obtain ⟨p, -, q, -, c, ⟨zeros, hzeros, heq⟩, d, -, hash, -, first, -, second, -, third, -, pad, -,
    whole, -, encrypted, -, heq'⟩ := h
  cases heq
  cases heq'
  exact bufAdd_eq_some.mp hzeros

/-- What the last request leaves behind: the decrypted parameters, the exponent and the salt. -/
structure Prepared (lib : Libraries) (bTime : ℕ) (serverNonce encryptedAnswer : Buf)
    (t t' : TypeSystem) (m : SetClientDHParams) : Prop where
  answer : ∃ a, ctorServerDHInnerDataDrive t a = some t' ∧
    a.bytes = observedInner lib.crypto.igeDecrypt serverNonce.bytes encryptedAnswer.bytes
  serverDHInnerData : m.serverDHInnerData = t'.serverDHInnerData
  exponent : m.clientDHInnerData.b.bytes = (bufRandAt lib.rand bTime 256).1
  salt : m.salt.bytes = serverNonce.read 0 8

theorem methodSetClientDHParamsInit_inv {moment : Moment} {nonce : Param} {resPQ : ResPQ}
    {m2 : ReqDHParams} {t t' : TypeSystem} {m : SetClientDHParams}
    (hnonce : m2.pQInnerData.newNonce.value.bytes = zeroNonce)
    (h : methodSetClientDHParamsInit lib moment nonce resPQ m2 t = some (m, t')) :
    Prepared lib moment.bTime resPQ.serverNonce.value t.serverDHParamsOk.encryptedAnswer.value t t'
      m := by
  simp only [methodSetClientDHParamsInit, ctorClientDHInnerDataInit, Option.bind_eq_bind,
    Option.bind_eq_some_iff] at h
  obtain ⟨⟨a, key, iv⟩, ha, t'', ht, c2, ⟨retryId, -, b, hb, gB, -, hc2⟩, data, -, hash, -, rand, -,
    first, -, second, -, encrypted, -, newNonceS, hnewNonceS, serverNonceS, hserverNonceS, salt,
    hsalt, heq⟩ := h
  cases hc2
  cases heq
  refine ⟨⟨a, ht, ctorServerDHInnerDataInit_inv ha⟩, rfl, bufAdd_eq_some.mp hb, ?_⟩
  have hzeros : newNonceS.bytes = List.replicate 8 0 := by
    rw [part_inv hnewNonceS, Buf.read, hnonce]
    rfl
  have hsize : serverNonceS.size = 8 := by rw [Buf.size, part_inv hserverNonceS, length_read]
  rw [bufXor_zeros hzeros hsize hsalt, part_inv hserverNonceS]

/-- The secrets of a handshake are those that the observer finds. -/
theorem srlAuth_observed {moment : Moment} {peer : Peer} {t : TypeSystem} {secrets : Secrets}
    {w : World} (h : srlAuth lib moment peer t = some (secrets, w)) :
    eavesdrop lib.rand lib.crypto.igeDecrypt t w.received moment.bTime =
      some (secrets.key.bytes, secrets.salt.bytes, w.t) := by
  simp only [srlAuth, Option.bind_eq_bind, Option.bind_eq_some_iff] at h
  obtain ⟨nonce, -, w1, hw1, m1, hm1, w2, hw2, ⟨m2, t3⟩, hm2, w3, hw3, key, hkey, heq⟩ := h
  cases heq
  obtain ⟨resPQ, hreceived1, ht1⟩ := methodDrive_inv hw1
  obtain ⟨dhParams, hreceived2, ht2⟩ := methodDrive_inv hw2
  obtain ⟨answer, hreceived3, ht3⟩ := methodDrive_inv hw3
  have hreceived : w.received = [resPQ, dhParams, answer] := by
    rw [hreceived3, hreceived2, hreceived1]
    rfl
  obtain ⟨⟨a, hdrive, ha⟩, hinner, hexponent, hsalt⟩ :=
    methodSetClientDHParamsInit_inv (methodReqDHParamsInit_inv hm1) hm2
  have hkeyBytes : key.bytes = observedKey lib.rand moment.bTime t3.serverDHInnerData := by
    rw [cmnPowMod_inv hkey, hinner, hexponent, observedKey]
  rw [hreceived, eavesdrop_some _ _ ht1 ht2 (bufAdd_eq_some.mpr ha) hdrive ht3, hkeyBytes, hsalt]

/-- An observer of all answers who knows the second in which each exponent is drawn finds the auth
keys and salts of a program, whatever the peers send. -/
theorem authRun_observed {t : TypeSystem} {handshakes : List (Moment × Peer)}
    {sessions : List (Secrets × World)} (h : authRun lib t handshakes = some sessions) :
    eavesdropAll lib.rand lib.crypto.igeDecrypt t
        ((sessions.map fun session ↦ session.2.received).zip
          (handshakes.map fun handshake ↦ handshake.1.bTime)) =
      some (sessions.map fun session ↦ (session.1.key.bytes, session.1.salt.bytes)) := by
  induction handshakes generalizing t sessions with
  | nil =>
    cases h
    rfl
  | cons handshake handshakes ih =>
    simp only [authRun, Option.bind_eq_bind, Option.bind_eq_some_iff] at h
    obtain ⟨⟨secrets, w⟩, hauth, rest, hrest, heq⟩ := h
    cases heq
    simp only [List.map_cons, List.zip_cons_cons, eavesdropAll, srlAuth_observed hauth, ih hrest,
      Option.bind_eq_bind, Option.bind_some]

end Handshake

end LibTg.Mtx
