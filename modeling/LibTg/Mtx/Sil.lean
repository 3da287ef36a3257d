import LibTg.Mtx.Layers

/-!
# Records and parameters (`mtx/src/sil.c`, `mtx/include/tgt.h`)

`sil_abstract` lists the parameters of a request, and `sil_concrete` reads an answer into one global
record `t`. An answer changes only its own part of this record: what an earlier answer left elsewhere
stays, and an id that is not known changes nothing.
-/

namespace LibTg.Mtx

/-! ## Requests -/

/-- `ctor_P_Q_inner_data_t`. -/
structure PQInnerData where
  pq : Param
  p : Param
  q : Param
  nonce : Param
  serverNonce : Param
  newNonce : Param

/-- `method_req_DH_params_t`, with the inner data that it encrypts. -/
structure ReqDHParams where
  nonce : Param
  serverNonce : Param
  p : Param
  q : Param
  publicKeyFingerprint : Param
  encryptedData : Param
  pQInnerData : PQInnerData

/-- `ctor_Client_DH_Inner_Data_t`, with the secret exponent. -/
structure ClientDHInnerData where
  nonce : Param
  serverNonce : Param
  retryId : Param
  gB : Param
  b : Buf

/-- The requests of the handshake, in the order in which `sil_abstract` tells them apart. -/
inductive Method
  | reqPq (nonce : Param)
  | pQInnerData (c : PQInnerData)
  | reqDHParams (m : ReqDHParams)
  | clientDHInnerData (c : ClientDHInnerData)
  | setClientDHParams (nonce serverNonce encryptedData : Param)

def Method.id : Method → UInt32
  | .reqPq _ => 0x60469778
  | .pQInnerData _ => 0x83c95aec
  | .reqDHParams _ => 0xd712e4be
  | .clientDHInnerData _ => 0x6643b654
  | .setClientDHParams .. => 0xf5045f1f

/-- The parameters behind the id. -/
def Method.params : Method → List Param
  | .reqPq nonce => [nonce]
  | .pQInnerData c => [c.pq, c.p, c.q, c.nonce, c.serverNonce, c.newNonce]
  | .reqDHParams m =>
    [m.nonce, m.serverNonce, m.p, m.q, m.publicKeyFingerprint, m.encryptedData]
  | .clientDHInnerData c => [c.nonce, c.serverNonce, c.retryId, c.gB]
  | .setClientDHParams nonce serverNonce encryptedData => [nonce, serverNonce, encryptedData]

def silAbstract (m : Method) : Option (List Param) := do
  let id ← bufAddUi32 m.id
  some (⟨.id, id⟩ :: m.params)

/-! ## Answers -/

/-- `ctor_ResPQ_t`. -/
structure ResPQ where
  nonce : Param
  serverNonce : Param
  pq : Param
  serverPublicKeyFingerprints : Param

/-- `ctor_Server_DH_Params_ok_t`. -/
structure ServerDHParamsOk where
  nonce : Param
  serverNonce : Param
  encryptedAnswer : Param

/-- `ctor_Server_DH_inner_data_t`, without the buffers that belong to its decryption. -/
structure ServerDHInnerData where
  nonce : Param
  serverNonce : Param
  g : Param
  dhPrime : Param
  gA : Param
  serverTime : Param

/-- `ctor_Set_client_DH_params_answer_ok_t`. -/
structure SetClientDHParamsAnswerOk where
  nonce : Param
  serverNonce : Param
  newNonceHash1 : Param

/-- `ctor_NewSession_t`. -/
structure NewSession where
  firstMsgId : Param
  uniqueId : Param
  serverSalt : Param

/-- `ctor_Pong_t`. -/
structure Pong where
  msgId : Param
  pingId : Param

/-- The part of `tg_api_type_system_t` that holds answers. -/
structure TypeSystem where
  resPQ : ResPQ
  serverDHParamsOk : ServerDHParamsOk
  serverDHInnerData : ServerDHInnerData
  setClientDHParamsAnswerOk : SetClientDHParamsAnswerOk
  newSession : NewSession
  pong : Pong

/-- `reset_tg_api_type_system`; before the first answer the global record is zero anyway. -/
def TypeSystem.reset : TypeSystem where
  resPQ := ⟨.unset, .unset, .unset, .unset⟩
  serverDHParamsOk := ⟨.unset, .unset, .unset⟩
  serverDHInnerData := ⟨.unset, .unset, .unset, .unset, .unset, .unset⟩
  setClientDHParamsAnswerOk := ⟨.unset, .unset, .unset⟩
  newSession := ⟨.unset, .unset, .unset⟩
  pong := ⟨.unset, .unset⟩

def idServerDHParamsOk : UInt32 := 0xd0e8075c

def idServerDHInnerData : UInt32 := 0xb5890dba

def idDhGenOk : UInt32 := 0x3bcbf734

def idNewSessionCreated : UInt32 := 0x9ec20908

def idPong : UInt32 := 0x347773c5

section Concrete

variable (id : UInt32)

/-- A parameter of fixed width, and what follows it. -/
def takeParam (type : TlType) (width : ℕ) (s : Buf) : Option (Param × Buf) := do
  let p ← selDeserializeParam id type s
  let s ← s.rest width
  some (p, s)

/-- A string, and what lies four bytes behind its length. -/
def takeString (s : Buf) : Option (Param × Buf) := do
  let p ← selDeserializeParam id .string s
  let s ← s.rest (p.value.size + 4)
  some (p, s)

/-- `case _id_resPQ`. -/
def concreteResPQ (s : Buf) : Option ResPQ := do
  let (nonce, s) ← takeParam id .int128 16 s
  let (serverNonce, s) ← takeParam id .int128 16 s
  let (pq, s) ← takeString id s
  let fingerprints ← selDeserializeParam id .vectorLong s
  some ⟨nonce, serverNonce, pq, fingerprints⟩

/-- `case _id_Server_DH_Params_ok`. -/
def concreteServerDHParamsOk (s : Buf) : Option ServerDHParamsOk := do
  let (nonce, s) ← takeParam id .int128 16 s
  let (serverNonce, s) ← takeParam id .int128 16 s
  let encryptedAnswer ← selDeserializeParam id .string s
  some ⟨nonce, serverNonce, encryptedAnswer⟩

/-- `case _id_server_DH_inner_data`. -/
def concreteServerDHInnerData (s : Buf) : Option ServerDHInnerData := do
  let (nonce, s) ← takeParam id .int128 16 s
  let (serverNonce, s) ← takeParam id .int128 16 s
  let (g, s) ← takeParam id .int 4 s
  let (dhPrime, s) ← takeString id s
  let (gA, s) ← takeString id s
  let serverTime ← selDeserializeParam id .int s
  some ⟨nonce, serverNonce, g, dhPrime, gA, serverTime⟩

/-- `case _id_dh_gen_ok`. -/
def concreteDhGenOk (s : Buf) : Option SetClientDHParamsAnswerOk := do
  let (nonce, s) ← takeParam id .int128 16 s
  let (serverNonce, s) ← takeParam id .int128 16 s
  let newNonceHash1 ← selDeserializeParam id .int128 s
  some ⟨nonce, serverNonce, newNonceHash1⟩

/-- `case _id_new_session_created`. -/
def concreteNewSession (s : Buf) : Option NewSession := do
  let (firstMsgId, s) ← takeParam id .long 8 s
  let (uniqueId, s) ← takeParam id .long 8 s
  let serverSalt ← selDeserializeParam id .long s
  some ⟨firstMsgId, uniqueId, serverSalt⟩

/-- `case _id_pong`. -/
def concretePong (s : Buf) : Option Pong := do
  let (msgId, s) ← takeParam id .long 8 s
  let pingId ← selDeserializeParam id .long s
  some ⟨msgId, pingId⟩

end Concrete

/-- `case _id_msg_container`, for what `sil_concrete` does with a message: two messages are taken,
whatever the container counts. -/
def concreteContainer (concrete : TypeSystem → UInt32 × Buf → Option TypeSystem) (t : TypeSystem)
    (s : Buf) : Option TypeSystem := do
  let vector ← bufAddUi32 idVector
  let content ← bufCat vector s
  let p ← selDeserializeParam idMsgContainer .vectorMessage content
  let b ← hdlDeheaderCter p.value
  let value ← p.value.rest (b.size + 16)
  let t ← concrete t (← selDeserialize b)
  let b ← hdlDeheaderCter value
  let _ ← value.rest (b.size + 16)
  concrete t (← selDeserialize b)

/-- `sil_concrete`, with a bound on how deep containers lie in each other: a message lies 24 bytes
behind the start of its container. -/
def silConcreteAt : ℕ → TypeSystem → UInt32 × Buf → Option TypeSystem
  | 0, _, _ => none
  | depth + 1, t, (id, s) =>
    if id = idResPQ then do
      some { t with resPQ := ← concreteResPQ id s }
    else if id = idServerDHParamsOk then do
      some { t with serverDHParamsOk := ← concreteServerDHParamsOk id s }
    else if id = idServerDHInnerData then do
      some { t with serverDHInnerData := ← concreteServerDHInnerData id s }
    else if id = idDhGenOk then do
      some { t with setClientDHParamsAnswerOk := ← concreteDhGenOk id s }
    else if id = idMsgContainer then concreteContainer (silConcreteAt depth) t s
    else if id = idNewSessionCreated then do
      some { t with newSession := ← concreteNewSession id s }
    else if id = idPong then do
      some { t with pong := ← concretePong id s }
    else some t

/-- `sil_concrete`. The bound is never reached (`silConcrete_container`). -/
def silConcrete (t : TypeSystem) (a : UInt32 × Buf) : Option TypeSystem :=
  silConcreteAt (maxBufSize + 1) t a

/-! ## Containers in containers -/

/-- Bytes that follow others are fewer. -/
theorem size_rest {b rest : Buf} {count : ℕ} (hcount : count < 2 ^ 31)
    (hrest : b.rest count = some rest) : rest.size + count = b.size := by
  rw [rest_eq b hcount] at hrest
  split at hrest
  case isTrue hle =>
    rw [Buf.size, bufAdd_eq_some.mp hrest, List.length_drop, ← Buf.size]
    omega
  case isFalse => cases hrest

theorem bind_congr_some {α β : Type} {first : Option α} {f g : α → Option β}
    (h : ∀ a, first = some a → f a = g a) : first.bind f = first.bind g := by
  cases first with
  | none => rfl
  | some a => exact h a rfl

/-- A vector of messages is empty or what follows its id and length. -/
theorem size_messages {content : Buf} {p : Param}
    (hp : selDeserializeParam idMsgContainer .vectorMessage content = some p) :
    p.value = .empty ∨ p.value.size + 8 = content.size := by
  unfold selDeserializeParam selDeserializeVector at hp
  simp only [Option.bind_eq_bind] at hp
  obtain ⟨value, hvalue, heq⟩ := Option.bind_eq_some_iff.mp hp
  cases heq
  obtain ⟨b, hb, hvalue⟩ := Option.bind_eq_some_iff.mp hvalue
  split at hvalue
  case isTrue =>
    cases hvalue
    exact Or.inl rfl
  case isFalse =>
    obtain ⟨rest, hrest, hvalue⟩ := Option.bind_eq_some_iff.mp hvalue
    have hfirst := size_rest (by omega) hb
    have hsecond := size_rest (by omega) hrest
    split at hvalue
    · rw [if_neg (by decide), if_pos trivial, part_size] at hvalue
      cases hvalue
      refine Or.inr ?_
      dsimp only
      omega
    · cases hvalue

/-- The body of a message that lies inside `value` is shorter by its headers and its id. -/
theorem size_message {value b rest : Buf} {a : UInt32 × Buf}
    (hrest : value.rest (b.size + 16) = some rest) (ha : selDeserialize b = some a) :
    a.2.size + 20 + rest.size = value.size := by
  have hb : b.size ≤ 800 := b.fits
  unfold selDeserialize at ha
  simp only [Option.bind_eq_bind] at ha
  obtain ⟨body, hbody, heq⟩ := Option.bind_eq_some_iff.mp ha
  cases heq
  have hfirst := size_rest (by omega) hrest
  have hsecond := size_rest (by omega) hbody
  dsimp only
  omega

/-- Messages are read by what reads shorter answers. -/
theorem concreteContainer_congr {f g : TypeSystem → UInt32 × Buf → Option TypeSystem} {s : Buf}
    (h : ∀ t a, a.2.size < s.size → f t a = g t a) (t : TypeSystem) :
    concreteContainer f t s = concreteContainer g t s := by
  unfold concreteContainer
  simp only [Option.bind_eq_bind]
  refine bind_congr_some fun vector hvector ↦ ?_
  refine bind_congr_some fun content hcontent ↦ ?_
  refine bind_congr_some fun p hp ↦ ?_
  refine bind_congr_some fun first hfirst ↦ ?_
  refine bind_congr_some fun value hvalue ↦ ?_
  have hcontentSize : content.size = s.size + 4 := by
    rw [Buf.size, bufAdd_eq_some.mp hcontent, List.length_append, bufAdd_eq_some.mp hvector,
      length_le32, ← Buf.size]
    omega
  have hsize : p.value.size + 4 = s.size := by
    rcases size_messages hp with hempty | hsize
    · have hnone : hdlDeheaderCter .empty = none := by
        rw [hdlDeheaderCter, rest_eq .empty (by omega), if_neg (by decide)]
        rfl
      rw [hempty, hnone] at hfirst
      cases hfirst
    · omega
  refine bind_congr_some fun a ha ↦ ?_
  have hbody := size_message hvalue ha
  rw [h t a (by omega)]
  refine bind_congr_some fun t ht ↦ ?_
  refine bind_congr_some fun second hsecond ↦ ?_
  refine bind_congr_some fun rest hrest ↦ ?_
  refine bind_congr_some fun a ha ↦ ?_
  have hbody := size_message hrest ha
  exact h t a (by omega)

/-- The bound on the depth does not matter once it exceeds the size. -/
theorem silConcreteAt_succ {depth : ℕ} {s : Buf} (hdepth : s.size < depth) (t : TypeSystem)
    (id : UInt32) : silConcreteAt (depth + 1) t (id, s) = silConcreteAt depth t (id, s) := by
  induction depth generalizing s t id with
  | zero => omega
  | succ depth ih =>
    have hcontainer : concreteContainer (silConcreteAt (depth + 1)) t s =
        concreteContainer (silConcreteAt depth) t s :=
      concreteContainer_congr (fun t a ha ↦ ih (by omega) t a.1) t
    rw [silConcreteAt, hcontainer, silConcreteAt]

/-- A container is read with `sil_concrete` itself. -/
theorem silConcrete_container (t : TypeSystem) (s : Buf) :
    silConcrete t (idMsgContainer, s) = concreteContainer silConcrete t s := by
  have hstep : silConcrete t (idMsgContainer, s) =
      concreteContainer (silConcreteAt maxBufSize) t s := by
    rw [silConcrete, silConcreteAt, if_neg (by decide), if_neg (by decide), if_neg (by decide),
      if_neg (by decide), if_pos rfl]
  have hs : s.size ≤ maxBufSize := s.fits
  rw [hstep]
  refine concreteContainer_congr (fun t a ha ↦ ?_) t
  exact (silConcreteAt_succ (by omega) t a.1).symm

end LibTg.Mtx
