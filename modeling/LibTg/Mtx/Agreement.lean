import LibTg.Mtx.Server
import LibTg.Tg.Authentication

/-!
# Agreement with an honest server

The client and the server of the protocol finish the handshake with the same number and the same
salt. The server has the auth key in 256 bytes and the client has it without leading zeros, so that
one key in 256 is not the same bytes.
-/

namespace LibTg.Mtx

open LibTg.Tl (tlBytes parseBytes)
open LibTg.Tg (bufRandAt)

/-! ## Parameters with given bytes -/

theorem exists_bufAdd (data : Bytes) (hfits : data.length ≤ maxBufSize) :
    ∃ b, bufAdd data = some b ∧ b.bytes = data := ⟨_, bufAdd_of_le hfits, rfl⟩

/-- A parameter of a type with given bytes. -/
structure Param.Holds (p : Param) (type : TlType) (bytes : Bytes) : Prop where
  type_eq : p.type = type
  bytes_eq : p.value.bytes = bytes

/-- The bytes of a type of fixed width. -/
def TlType.width : TlType → Option ℕ
  | .int | .id => some 4
  | .int128 => some 16
  | .int256 => some 32
  | .long => some 8
  | _ => none

section Holds

variable {p : Param} {type : TlType} {bytes : Bytes}

theorem Param.Holds.known {width : ℕ} (h : p.Holds type bytes) (hwidth : type.width = some width) :
    p.type.known := by
  rw [h.type_eq]
  cases type <;> first | rfl | cases hwidth

theorem Param.Holds.known_string (h : p.Holds .string bytes) : p.type.known := by
  rw [h.type_eq]
  rfl

theorem Param.Holds.known_vectorLong (h : p.Holds .vectorLong bytes) : p.type.known := by
  rw [h.type_eq]
  rfl

theorem Param.Holds.wire (h : p.Holds type bytes) (hwidth : type.width = some bytes.length) :
    p.wire = bytes := by
  obtain ⟨type', value⟩ := p
  obtain ⟨rfl, rfl⟩ := h
  have hread : value.read 0 value.bytes.length = value.bytes :=
    read_zero_append (List.append_nil _).symm
  cases type' <;> first | cases hwidth | skip
  all_goals
    simp only [TlType.width, Option.some.injEq] at hwidth
    simp only [Param.wire, hwidth, hread]

theorem Param.Holds.wire_string (h : p.Holds .string bytes) : p.wire = tlBytes bytes := by
  rw [Param.wire, h.type_eq, h.bytes_eq]

theorem Param.Holds.wire_vectorLong (h : p.Holds .vectorLong bytes) : p.wire = bytes := by
  rw [Param.wire, h.type_eq, h.bytes_eq]

end Holds

/-! ## Packets -/

theorem stkSend_eq (msgId : UInt64) {params : List Param} (hknown : ∀ p ∈ params, p.type.known) :
    stkSend msgId params = bufAdd (frame msgId (params.flatMap Param.wire)) := by
  rw [← frame_layers, ← selSerialize_eq hknown]
  rfl

/-- The bytes of a request. -/
def Method.wire (m : Method) : Bytes := le32 m.id ++ m.params.flatMap Param.wire

/-- A request with parameters of known types is its id and their bytes. -/
theorem silAbstract_some {m : Method} (hknown : ∀ p ∈ m.params, p.type.known) :
    ∃ params, silAbstract m = some params ∧ (∀ p ∈ params, p.type.known) ∧
      params.flatMap Param.wire = m.wire := by
  obtain ⟨id, hid, hbytes⟩ := exists_bufAdd (le32 m.id)
    (by rw [length_le32, maxBufSize]; omega)
  refine ⟨⟨.id, id⟩ :: m.params, ?_, ?_, ?_⟩
  · rw [silAbstract, bufAddUi32, hid, Option.bind_eq_bind, Option.bind_some]
  · intro p hp
    rcases List.mem_cons.mp hp with rfl | hp
    · rfl
    · exact hknown p hp
  · have hwire : Param.wire ⟨.id, id⟩ = le32 m.id :=
      Param.Holds.wire ⟨rfl, hbytes⟩ (by rw [length_le32]; rfl)
    rw [List.flatMap_cons, hwire, Method.wire]

/-- The packet of a request, and the connection after an answer that can be read. -/
theorem methodDrive_some (peer : Peer) (msgId : UInt64) {m : Method} (w : World)
    (hknown : ∀ p ∈ m.params, p.type.known) (hfits : m.wire.length + 24 ≤ maxBufSize) :
    ∃ packet : Buf, packet.bytes = frame msgId m.wire ∧
      ∀ t', receive w.t (peer (w.sent ++ [packet])) = some t' →
        methodDrive peer msgId m w =
          some ⟨w.sent ++ [packet], w.received ++ [peer (w.sent ++ [packet])], t'⟩ := by
  obtain ⟨params, hparams, hparamsKnown, hwire⟩ := silAbstract_some hknown
  obtain ⟨packet, hpacket, hbytes⟩ := exists_bufAdd (frame msgId m.wire)
    (by rw [length_frame]; exact hfits)
  refine ⟨packet, hbytes, fun t' ht' ↦ ?_⟩
  have hsend : stkSend msgId params = some packet := by
    rw [stkSend_eq msgId hparamsKnown, hwire, hpacket]
  dsimp only [methodDrive, Option.bind_eq_bind]
  rw [hparams, Option.bind_some, hsend, Option.bind_some, ht', Option.bind_some]

/-- The message in a packet from the peer. -/
theorem receive_frame {nr : Buf} {msgId : UInt64} {id : UInt32} {body : Bytes}
    (hnr : nr.bytes = frame msgId (le32 id ++ body)) (t : TypeSystem) :
    ∃ s : Buf, s.bytes = body ∧ receive t nr = silConcrete t (id, s) := by
  obtain ⟨tr, d, s1r, htr, hd, hs1r, hbytes⟩ := layers_frame hnr
  obtain ⟨s, hs, hsbytes⟩ := rest_append hbytes (length_le32 id)
  refine ⟨s, hsbytes, ?_⟩
  dsimp only [receive, stkReceive, Option.bind_eq_bind]
  rw [htr, Option.bind_some, hd, Option.bind_some, hs1r, Option.bind_some, selDeserialize, hs,
    Option.bind_eq_bind, Option.bind_some, bufGetUi32_append hbytes, Option.bind_some]

/-! ## Reading the answers -/

section Read

variable {s : Buf} {first rest : Bytes}

/-- A parameter of fixed width at the front. -/
theorem selDeserializeParam_append (id : UInt32) (type : TlType)
    (hwidth : type.width = some first.length) (hs : s.bytes = first ++ rest) :
    ∃ p, selDeserializeParam id type s = some p ∧ p.Holds type first := by
  have hfits := s.fits
  rw [hs, List.length_append] at hfits
  obtain ⟨value, hvalue, hbytes⟩ := exists_bufAdd first (by omega)
  have hpart : s.part 0 first.length = some value := (part_zero_append hs rfl).trans hvalue
  refine ⟨⟨type, value⟩, ?_, rfl, hbytes⟩
  cases type <;> first | cases hwidth | skip
  all_goals
    simp only [TlType.width, Option.some.injEq] at hwidth
    rw [← hwidth] at hpart
    simp only [selDeserializeParam, hpart, Option.bind_eq_bind, Option.bind_some]

/-- The same, with what follows it. -/
theorem takeParam_append (id : UInt32) (type : TlType) (hwidth : type.width = some first.length)
    (hs : s.bytes = first ++ rest) :
    ∃ p s', takeParam id type first.length s = some (p, s') ∧ p.Holds type first ∧
      s'.bytes = rest := by
  obtain ⟨p, hp, hholds⟩ := selDeserializeParam_append id type hwidth hs
  obtain ⟨s', hs', hbytes⟩ := rest_append hs rfl
  refine ⟨p, s', ?_, hholds, hbytes⟩
  simp only [takeParam, hp, hs', Option.bind_eq_bind, Option.bind_some]

/-- A number is read even where fewer bytes are left. -/
theorem exists_selDeserializeParam_int (id : UInt32) (s : Buf) :
    ∃ p, selDeserializeParam id .int s = some p := by
  obtain ⟨value, hvalue, -⟩ := exists_bufAdd (s.read 0 4)
    (by rw [length_read, maxBufSize]; omega)
  have hpart : s.part 0 4 = some value := (part_zero_of_le s (by decide)).trans hvalue
  refine ⟨⟨.int, value⟩, ?_⟩
  simp only [selDeserializeParam, hpart, Option.bind_eq_bind, Option.bind_some]

/-- A string at the front. -/
theorem selDeserializeParam_string (id : UInt32) {string : Bytes}
    (hs : s.bytes = tlBytes string ++ rest) :
    ∃ p, selDeserializeParam id .string s = some p ∧ p.Holds .string string := by
  have hfits := s.fits
  have hle := Tl.length_le_length_tlBytes string
  rw [hs, List.length_append] at hfits
  have hstring : selDeserializeString s = some ⟨string, by omega⟩ :=
    selDeserializeString_append hs
  refine ⟨⟨.string, ⟨string, by omega⟩⟩, ?_, rfl, rfl⟩
  simp only [selDeserializeParam, hstring, Option.bind_eq_bind, Option.bind_some]

/-- The same, with what lies four bytes behind its length. -/
theorem takeString_append (id : UInt32) {string : Bytes} (hs : s.bytes = tlBytes string ++ rest)
    (hroom : string.length + 4 ≤ s.size) :
    ∃ p s', takeString id s = some (p, s') ∧ p.Holds .string string ∧
      s'.bytes = s.bytes.drop (string.length + 4) := by
  obtain ⟨p, hp, hholds⟩ := selDeserializeParam_string id hs
  obtain ⟨s', hs', hbytes⟩ := rest_append (List.take_append_drop (string.length + 4) s.bytes).symm
    (List.length_take_of_le hroom)
  have hsize : p.value.size = string.length := by rw [Buf.size, hholds.bytes_eq]
  refine ⟨p, s', ?_, hholds, hbytes⟩
  simp only [takeString, hp, hsize, hs', Option.bind_eq_bind, Option.bind_some]

end Read

/-- Of a vector of fingerprints the first is read. -/
theorem selDeserializeParam_vector {s : Buf} {count : UInt32} {first : UInt64} {rest : Bytes}
    (hcount : count ≠ 0) (hle : count.toNat ≤ maxParamSize)
    (hs : s.bytes = le32 idVector ++ (le32 count ++ (le64 first ++ rest))) :
    ∃ p, selDeserializeParam idResPQ .vectorLong s = some p ∧ p.Holds .vectorLong (le64 first) := by
  obtain ⟨b, hb, hbytes⟩ := rest_append hs (length_le32 _)
  obtain ⟨tail, htail, htailBytes⟩ := rest_append hbytes (length_le32 _)
  obtain ⟨value, hvalue, hvalueBytes⟩ := exists_bufAdd (le64 first)
    (by rw [length_le64, maxBufSize]; omega)
  have hpart : tail.part 0 8 = some value :=
    (part_zero_append htailBytes (length_le64 first)).trans hvalue
  refine ⟨⟨.vectorLong, value⟩, ?_, rfl, hvalueBytes⟩
  simp only [selDeserializeParam, selDeserializeVector, hb, Option.bind_eq_bind, Option.bind_some,
    bufGetUi32_append hbytes, if_neg hcount, htail, if_pos hle, if_true, hpart]

theorem silConcrete_resPQ (t : TypeSystem) (s : Buf) : silConcrete t (idResPQ, s) =
    (concreteResPQ idResPQ s).bind fun r ↦ some { t with resPQ := r } := by
  rw [silConcrete, silConcreteAt, if_pos rfl]
  rfl

theorem silConcrete_serverDHParamsOk (t : TypeSystem) (s : Buf) :
    silConcrete t (idServerDHParamsOk, s) =
      (concreteServerDHParamsOk idServerDHParamsOk s).bind fun r ↦
        some { t with serverDHParamsOk := r } := by
  rw [silConcrete, silConcreteAt, if_neg (by decide), if_pos rfl]
  rfl

theorem silConcrete_serverDHInnerData (t : TypeSystem) (s : Buf) :
    silConcrete t (idServerDHInnerData, s) =
      (concreteServerDHInnerData idServerDHInnerData s).bind fun r ↦
        some { t with serverDHInnerData := r } := by
  rw [silConcrete, silConcreteAt, if_neg (by decide), if_neg (by decide), if_pos rfl]
  rfl

theorem silConcrete_dhGenOk (t : TypeSystem) (s : Buf) :
    silConcrete t (idDhGenOk, s) =
      (concreteDhGenOk idDhGenOk s).bind fun r ↦
        some { t with setClientDHParamsAnswerOk := r } := by
  rw [silConcrete, silConcreteAt, if_neg (by decide), if_neg (by decide), if_neg (by decide),
    if_pos rfl]
  rfl

section Answers

variable {s : Buf} {nonce serverNonce : Bytes}

/-- The fields of `resPQ`. -/
theorem concreteResPQ_append {pq rest : Bytes} {count : UInt32} {first : UInt64}
    (hnonce : nonce.length = 16) (hserverNonce : serverNonce.length = 16) (hpq : pq.length = 8)
    (hcount : count ≠ 0) (hle : count.toNat ≤ maxParamSize)
    (hs : s.bytes = nonce ++ (serverNonce ++ (tlBytes pq ++ (le32 idVector ++ (le32 count ++
      (le64 first ++ rest)))))) :
    ∃ r, concreteResPQ idResPQ s = some r ∧ r.serverNonce.Holds .int128 serverNonce ∧
      r.pq.Holds .string pq ∧ r.serverPublicKeyFingerprints.Holds .vectorLong (le64 first) := by
  obtain ⟨p1, s1, h1, -, hs1⟩ := takeParam_append idResPQ .int128
    (by rw [hnonce]; rfl) hs
  obtain ⟨p2, s2, h2, hp2, hs2⟩ := takeParam_append idResPQ .int128
    (by rw [hserverNonce]; rfl) hs1
  have hskip : (tlBytes pq).length = pq.length + 4 :=
    (length_tlBytes_eq_iff pq).mpr (by rw [hpq])
  obtain ⟨p3, s3, h3, hp3, hs3⟩ := takeString_append idResPQ hs2
    (by rw [← hskip, Buf.size, hs2, List.length_append]; omega)
  rw [← hskip, hs2, List.drop_left] at hs3
  obtain ⟨p4, h4, hp4⟩ := selDeserializeParam_vector hcount hle hs3
  rw [hnonce] at h1
  rw [hserverNonce] at h2
  refine ⟨⟨p1, p2, p3, p4⟩, ?_, hp2, hp3, hp4⟩
  dsimp only [concreteResPQ, Option.bind_eq_bind]
  rw [h1, Option.bind_some, h2, Option.bind_some, h3, Option.bind_some, h4, Option.bind_some]

/-- The fields of `server_DH_params_ok`. -/
theorem concreteServerDHParamsOk_append {encryptedAnswer : Bytes} (hnonce : nonce.length = 16)
    (hserverNonce : serverNonce.length = 16)
    (hs : s.bytes = nonce ++ (serverNonce ++ tlBytes encryptedAnswer)) :
    ∃ r, concreteServerDHParamsOk idServerDHParamsOk s = some r ∧
      r.encryptedAnswer.Holds .string encryptedAnswer := by
  obtain ⟨p1, s1, h1, -, hs1⟩ := takeParam_append idServerDHParamsOk .int128
    (by rw [hnonce]; rfl) hs
  obtain ⟨p2, s2, h2, -, hs2⟩ := takeParam_append idServerDHParamsOk .int128
    (by rw [hserverNonce]; rfl) hs1
  obtain ⟨p3, h3, hp3⟩ := selDeserializeParam_string idServerDHParamsOk
    (hs2.trans (List.append_nil _).symm)
  rw [hnonce] at h1
  rw [hserverNonce] at h2
  refine ⟨⟨p1, p2, p3⟩, ?_, hp3⟩
  dsimp only [concreteServerDHParamsOk, Option.bind_eq_bind]
  rw [h1, Option.bind_some, h2, Option.bind_some, h3, Option.bind_some]

/-- The fields of `server_DH_inner_data`. The number `g_a` may end in front of its padding, where only
the time is misread. -/
theorem concreteServerDHInnerData_append {g gA : Bytes} {dhPrime : Bytes} {serverTime : UInt32}
    (hnonce : nonce.length = 16) (hserverNonce : serverNonce.length = 16) (hg : g.length = 4)
    (hdhPrime : dhPrime.length % 4 = 0)
    (hs : s.bytes = nonce ++ (serverNonce ++ (g ++ (tlBytes dhPrime ++ (tlBytes gA ++
      le32 serverTime))))) :
    ∃ r, concreteServerDHInnerData idServerDHInnerData s = some r ∧ r.nonce.Holds .int128 nonce ∧
      r.serverNonce.Holds .int128 serverNonce ∧ r.g.Holds .int g ∧
      r.dhPrime.Holds .string dhPrime ∧ r.gA.Holds .string gA := by
  obtain ⟨p1, s1, h1, hp1, hs1⟩ := takeParam_append idServerDHInnerData .int128
    (by rw [hnonce]; rfl) hs
  obtain ⟨p2, s2, h2, hp2, hs2⟩ := takeParam_append idServerDHInnerData .int128
    (by rw [hserverNonce]; rfl) hs1
  obtain ⟨p3, s3, h3, hp3, hs3⟩ := takeParam_append idServerDHInnerData .int
    (by rw [hg]; rfl) hs2
  have hskip : (tlBytes dhPrime).length = dhPrime.length + 4 :=
    (length_tlBytes_eq_iff dhPrime).mpr hdhPrime
  obtain ⟨p4, s4, h4, hp4, hs4⟩ := takeString_append idServerDHInnerData hs3
    (by rw [← hskip, Buf.size, hs3, List.length_append]; omega)
  rw [← hskip, hs3, List.drop_left] at hs4
  obtain ⟨p5, s5, h5, hp5, hs5⟩ := takeString_append idServerDHInnerData hs4
    (by
      have hle := Tl.length_le_length_tlBytes gA
      rw [Buf.size, hs4, List.length_append, length_le32]
      omega)
  obtain ⟨p6, h6⟩ := exists_selDeserializeParam_int idServerDHInnerData s5
  rw [hnonce] at h1
  rw [hserverNonce] at h2
  rw [hg] at h3
  refine ⟨⟨p1, p2, p3, p4, p5, p6⟩, ?_, hp1, hp2, hp3, hp4, hp5⟩
  dsimp only [concreteServerDHInnerData, Option.bind_eq_bind]
  rw [h1, Option.bind_some, h2, Option.bind_some, h3, Option.bind_some, h4, Option.bind_some,
    h5, Option.bind_some, h6, Option.bind_some]

/-- The fields of `dh_gen_ok`, of which nothing is used. -/
theorem exists_concreteDhGenOk {hash : Bytes} (hnonce : nonce.length = 16)
    (hserverNonce : serverNonce.length = 16) (hhash : hash.length = 16)
    (hs : s.bytes = nonce ++ (serverNonce ++ hash)) : ∃ r, concreteDhGenOk idDhGenOk s = some r := by
  obtain ⟨p1, s1, h1, -, hs1⟩ := takeParam_append idDhGenOk .int128
    (by rw [hnonce]; rfl) hs
  obtain ⟨p2, s2, h2, -, hs2⟩ := takeParam_append idDhGenOk .int128
    (by rw [hserverNonce]; rfl) hs1
  obtain ⟨p3, h3, -⟩ := selDeserializeParam_append idDhGenOk .int128
    (by rw [hhash]; rfl) (hs2.trans (List.append_nil _).symm)
  rw [hnonce] at h1
  rw [hserverNonce] at h2
  refine ⟨⟨p1, p2, p3⟩, ?_⟩
  dsimp only [concreteDhGenOk, Option.bind_eq_bind]
  rw [h1, Option.bind_some, h2, Option.bind_some, h3, Option.bind_some]

end Answers

/-! ## What the client computes -/

theorem beBytes_swap (value : UInt32) : (le32 value).reverse = beBytes 4 value.toNat := rfl

theorem exists_hshSha1 (lib : Libraries) (b : Buf) :
    ∃ h, hshSha1 lib b = some h ∧ h.bytes = SecureHash.sha1 b.bytes := by
  rw [hshSha1_eq]
  exact exists_bufAdd _ (by rw [Crypto.length_sha1, maxBufSize]; omega)

theorem exists_bufCat {a b : Buf} (hfits : a.size + b.size ≤ maxBufSize) :
    ∃ c, bufCat a b = some c ∧ c.bytes = a.bytes ++ b.bytes :=
  exists_bufAdd _ (by rw [List.length_append]; exact hfits)

theorem exists_part (b : Buf) (offset count : ℕ) (hfits : offset + count ≤ maxBufSize) :
    ∃ part, b.part offset count = some part ∧ part.bytes = b.read offset count := by
  rw [Buf.part, if_pos hfits]
  exact exists_bufAdd _ (by rw [length_read]; omega)

section Client

variable (lib : Libraries) (server : Server)

/-- The secret message of the second request. -/
def pqMessage (nonce : Bytes) : Bytes :=
  server.pqInner nonce (beBytes 4 server.p.toNat) (beBytes 4 server.q.toNat) ++ zeroNonce

/-- The plaintext of the second request: 255 bytes. -/
def pqPlain (nonce : Bytes) : Bytes :=
  SecureHash.sha1 (pqMessage server nonce) ++ (pqMessage server nonce ++ List.replicate 139 0)

/-- `factor` finds the two primes of the server, in any order. -/
def Factors : Prop :=
  lib.factor (UInt64.ofNat (server.p.toNat * server.q.toNat)) = (server.p, server.q) ∨
    lib.factor (UInt64.ofNat (server.p.toNat * server.q.toNat)) = (server.q, server.p)

variable {lib server}

theorem length_pqInner {nonce p q : Bytes} (hnonce : nonce.length = 16) (hp : p.length = 4)
    (hq : q.length = 4) : (server.pqInner nonce p q).length = 64 := by
  have hpq : (tlBytes server.pq).length = 12 :=
    (length_tlBytes_eq_iff _).mpr (by rw [Server.pq, length_beBytes])
      |>.trans (by rw [Server.pq, length_beBytes])
  have htl {bytes : Bytes} (h : bytes.length = 4) : (tlBytes bytes).length = 8 := by
    rw [(length_tlBytes_eq_iff bytes).mpr (by rw [h]), h]
  simp only [Server.pqInner, List.length_append, length_le32, hpq, htl hp, htl hq, hnonce,
    server.length_serverNonce]

theorem length_pqMessage {nonce : Bytes} (hnonce : nonce.length = 16) :
    (pqMessage server nonce).length = 96 := by
  rw [pqMessage, List.length_append, length_pqInner hnonce (length_beBytes ..) (length_beBytes ..)]
  rfl

theorem length_pqPlain (server : Server) {nonce : Bytes} (hnonce : nonce.length = 16) :
    (pqPlain server nonce).length = 255 := by
  rw [pqPlain, List.length_append, List.length_append, length_pqMessage hnonce,
    Crypto.length_sha1, List.length_replicate]

theorem pq_lt (server : Server) : server.p.toNat * server.q.toNat < 2 ^ 64 := by
  calc server.p.toNat * server.q.toNat
      < 2 ^ 32 * 2 ^ 32 := Nat.mul_lt_mul'' server.p.toNat_lt server.q.toNat_lt
    _ = 2 ^ 64 := by norm_num

/-- The number that the code reads in the string `pq`. -/
theorem bufGetUi64_swap_pq {pq : Buf} (hpq : pq.bytes = server.pq) :
    bufGetUi64 (bufSwap pq) = UInt64.ofNat (server.p.toNat * server.q.toNat) := by
  have htoNat : (UInt64.ofNat (server.p.toNat * server.q.toNat)).toNat =
      server.p.toNat * server.q.toNat := by
    rw [UInt64.toNat_ofNat']
    exact Nat.mod_eq_of_lt (pq_lt server)
  have hswap : (bufSwap pq).bytes =
      le64 (UInt64.ofNat (server.p.toNat * server.q.toNat)) ++ [] := by
    rw [List.append_nil, le64, htoNat, bufSwap]
    dsimp only
    rw [hpq, Server.pq, beBytes, List.reverse_reverse]
  exact bufGetUi64_append hswap

/-- The primes in ascending order. -/
theorem factor_sorted (hfactor : Factors lib server) :
    (let (p, q) := lib.factor (UInt64.ofNat (server.p.toNat * server.q.toNat))
      if p < q then (p, q) else (q, p)) = (server.p, server.q) := by
  have hlt := server.p_lt_q
  rcases hfactor with h | h <;> rw [h]
  · exact if_pos hlt
  · exact if_neg (UInt32.lt_asymm hlt)

/-- `ctor_P_Q_inner_data_drive` writes the secret message. -/
theorem ctorPQInnerDataDrive_eq {c : PQInnerData} {nonce : Bytes} (hnonce : nonce.length = 16)
    (hpq : c.pq.Holds .string server.pq) (hp : c.p.Holds .string (beBytes 4 server.p.toNat))
    (hq : c.q.Holds .string (beBytes 4 server.q.toNat)) (hcnonce : c.nonce.Holds .int128 nonce)
    (hserverNonce : c.serverNonce.Holds .int128 server.serverNonce)
    (hnewNonce : c.newNonce.Holds .int256 zeroNonce) :
    ∃ d, ctorPQInnerDataDrive c = some d ∧ d.bytes = pqMessage server nonce := by
  obtain ⟨params, hparams, hknown, hwire⟩ := silAbstract_some (m := .pQInnerData c) (by
    simp only [Method.params, List.forall_mem_cons, hpq.known_string, hp.known_string,
      hq.known_string, hcnonce.known rfl, hserverNonce.known rfl, hnewNonce.known rfl]
    simp)
  have hbytes : params.flatMap Param.wire = pqMessage server nonce := by
    rw [hwire, Method.wire, Method.params]
    simp only [List.flatMap_cons, List.flatMap_nil, List.append_nil, hpq.wire_string,
      hp.wire_string, hq.wire_string, hcnonce.wire (hnonce ▸ rfl),
      hserverNonce.wire (server.length_serverNonce ▸ rfl), hnewNonce.wire rfl, pqMessage,
      Server.pqInner, Method.id, List.append_assoc]
  obtain ⟨d, hd, hdbytes⟩ := exists_bufAdd (pqMessage server nonce)
    (by rw [length_pqMessage hnonce, maxBufSize]; omega)
  refine ⟨d, ?_, hdbytes⟩
  dsimp only [ctorPQInnerDataDrive, Option.bind_eq_bind]
  rw [hparams, Option.bind_some, selSerialize_eq hknown, hbytes, hd]

theorem byteLength_eq_succ {value width : ℕ} (hlow : 256 ^ width ≤ value)
    (hhigh : value < 256 ^ (width + 1)) : byteLength value = width + 1 := by
  have hle := byteLength_le_iff.mpr hhigh
  have hlt : ¬ byteLength value ≤ width := fun h ↦ Nat.not_lt.mpr hlow (byteLength_le_iff.mp h)
  omega

variable (lib server) in
/-- The nonce of a handshake. -/
def drawnNonce (moment : Moment) : Bytes := (bufRandAt lib.rand moment.nonceTime 16).1

variable (lib server) in
/-- The number that the second request carries. -/
def encryptedNumber (moment : Moment) : ℕ :=
  beNat (pqPlain server (drawnNonce lib moment)) ^ lib.rsaE % lib.rsaN

/-- What the client and the server of a handshake have to have in common: the primes and the key pair.
The buffer `dwh` has to be empty, and a result of RSA that takes fewer than 256 bytes would stand at
the wrong end of them. -/
structure Compatible (lib : Libraries) (server : Server) (moment : Moment) : Prop where
  dwh : moment.dwh = []
  factors : Factors lib server
  rsaN_pos : 0 < lib.rsaN
  rsaN_le : lib.rsaN ≤ 256 ^ 256
  encrypted_ge : 256 ^ 255 ≤ encryptedNumber lib server moment
  decrypted : server.rsaDecrypt (encryptedNumber lib server moment) =
    beNat (pqPlain server (drawnNonce lib moment))

theorem length_drawnNonce (lib : Libraries) (moment : Moment) : (drawnNonce lib moment).length = 16 :=
  length_drawBytes ..

section Compatible

variable {moment : Moment} (h : Compatible lib server moment)

include h

theorem Compatible.encrypted_lt : encryptedNumber lib server moment < 256 ^ 256 :=
  (Nat.mod_lt _ h.rsaN_pos).trans_le h.rsaN_le

/-- `cry_rsa_e` gives the encrypted number in 256 bytes. -/
theorem Compatible.cryRsaE {b : Buf} (hb : b.bytes = pqPlain server (drawnNonce lib moment)) :
    ∃ e, cryRsaE lib b = some e ∧ e.bytes = beBytes 256 (encryptedNumber lib server moment) := by
  have hlength := byteLength_eq_succ h.encrypted_ge h.encrypted_lt
  obtain ⟨e, he, hbytes⟩ := exists_bufAdd
    (beBytes 256 (encryptedNumber lib server moment))
    (by rw [length_beBytes, maxBufSize]; omega)
  refine ⟨e, ?_, hbytes⟩
  have hy : beNat b.bytes ^ lib.rsaE % lib.rsaN = encryptedNumber lib server moment := by
    rw [hb, encryptedNumber]
  rw [LibTg.Mtx.cryRsaE, if_neg h.rsaN_pos.ne']
  dsimp only
  rw [hy, hlength, if_pos le_rfl, Nat.sub_self, List.replicate_zero, List.append_nil, he]

end Compatible

/-- `method_req_DH_params_init` for an honest answer. -/
theorem methodReqDHParamsInit_some {moment : Moment} {nonce : Param} {resPQ : ResPQ}
    (h : Compatible lib server moment)
    (hnonce : nonce.Holds .int128 (drawnNonce lib moment))
    (hserverNonce : resPQ.serverNonce.Holds .int128 server.serverNonce)
    (hpq : resPQ.pq.Holds .string server.pq) :
    ∃ m, methodReqDHParamsInit lib moment.dwh nonce resPQ = some m ∧ m.nonce = nonce ∧
      m.serverNonce = resPQ.serverNonce ∧ m.p.Holds .string (beBytes 4 server.p.toNat) ∧
      m.q.Holds .string (beBytes 4 server.q.toNat) ∧
      m.publicKeyFingerprint = resPQ.serverPublicKeyFingerprints ∧
      m.encryptedData.Holds .string (beBytes 256 (encryptedNumber lib server moment)) := by
  obtain ⟨p, hp, hpbytes⟩ := exists_bufAdd (le32 server.p)
    (by rw [length_le32, maxBufSize]; omega)
  obtain ⟨q, hq, hqbytes⟩ := exists_bufAdd (le32 server.q)
    (by rw [length_le32, maxBufSize]; omega)
  obtain ⟨zeros, hzeros, hzerosBytes⟩ := exists_bufAdd zeroNonce (by decide)
  have hpHolds : Param.Holds ⟨.string, bufSwap p⟩ .string (beBytes 4 server.p.toNat) :=
    ⟨rfl, by rw [← beBytes_swap, ← hpbytes]; rfl⟩
  have hqHolds : Param.Holds ⟨.string, bufSwap q⟩ .string (beBytes 4 server.q.toNat) :=
    ⟨rfl, by rw [← beBytes_swap, ← hqbytes]; rfl⟩
  obtain ⟨d, hd, hdbytes⟩ := ctorPQInnerDataDrive_eq
    (c := ⟨resPQ.pq, ⟨.string, bufSwap p⟩, ⟨.string, bufSwap q⟩, nonce, resPQ.serverNonce,
      ⟨.int256, zeros⟩⟩) (length_drawnNonce lib moment) hpq hpHolds hqHolds hnonce hserverNonce
    ⟨rfl, hzerosBytes⟩
  have hdsize : d.size = 96 := by
    rw [Buf.size, hdbytes, length_pqMessage (length_drawnNonce lib moment)]
  obtain ⟨hash, hhash, hhashBytes⟩ := exists_hshSha1 lib d
  have hhashSize : hash.size = 20 := by rw [Buf.size, hhashBytes, Crypto.length_sha1]
  obtain ⟨start, hstart, hstartBytes⟩ := exists_bufCat (a := hash) (b := d)
    (by rw [hhashSize, hdsize]; decide)
  have hstartSize : start.size = 116 := by
    rw [Buf.size, hstartBytes, List.length_append, ← Buf.size, ← Buf.size, hhashSize, hdsize]
  obtain ⟨pad, hpad, hpadBytes⟩ := exists_bufAdd (List.replicate 139 0)
    (by rw [List.length_replicate, maxBufSize]; omega)
  obtain ⟨plain, hplain, hplainBytes⟩ := exists_bufCat (a := start) (b := pad)
    (by rw [hstartSize, Buf.size, hpadBytes, List.length_replicate]; decide)
  have hplainEq : plain.bytes = pqPlain server (drawnNonce lib moment) := by
    rw [hplainBytes, hstartBytes, hpadBytes, hhashBytes, hdbytes, List.append_assoc, pqPlain]
  obtain ⟨e, he, hebytes⟩ := h.cryRsaE hplainEq
  refine ⟨⟨nonce, resPQ.serverNonce, ⟨.string, bufSwap p⟩, ⟨.string, bufSwap q⟩,
    resPQ.serverPublicKeyFingerprints, ⟨.string, e⟩, ⟨resPQ.pq, ⟨.string, bufSwap p⟩,
      ⟨.string, bufSwap q⟩, nonce, resPQ.serverNonce, ⟨.int256, zeros⟩⟩⟩,
    ?_, rfl, rfl, hpHolds, hqHolds, rfl, rfl, hebytes⟩
  have hsorted := factor_sorted h.factors
  dsimp only at hsorted
  have hcount : (255 + (2 ^ 32 - start.size)) % 2 ^ 32 = 139 := by omega
  have hempty : bufAdd moment.dwh = some .empty := by rw [h.dwh]; rfl
  have hzeros' : bufAdd (List.replicate 32 0) = some zeros := hzeros
  dsimp only [methodReqDHParamsInit, ctorPQInnerDataInit, zeroBuf, bufAddUi32, Option.bind_eq_bind]
  rw [bufGetUi64_swap_pq hpq.bytes_eq, hsorted]
  dsimp only
  rw [hp, Option.bind_some, hq, Option.bind_some, hzeros', Option.bind_some, Option.bind_some, hd,
    Option.bind_some, hhash, Option.bind_some, hempty, Option.bind_some, bufCat_empty,
    Option.bind_some, hstart, Option.bind_some, hcount, hpad, Option.bind_some, hplain,
    Option.bind_some, he, Option.bind_some]

/-! ## What the server accepts -/

/-- The bytes of the second request. -/
def reqDHParamsBytes (server : Server) (nonce encryptedData : Bytes) : Bytes :=
  le32 0xd712e4be ++ (nonce ++ (server.serverNonce ++ (tlBytes (beBytes 4 server.p.toNat) ++
    (tlBytes (beBytes 4 server.q.toNat) ++ (le64 server.fingerprint ++ tlBytes encryptedData)))))

theorem length_tlBytes_of_dvd {bytes : Bytes} {length : ℕ} (hlength : bytes.length = length)
    (hmod : length % 4 = 0) : (tlBytes bytes).length = length + 4 := by
  rw [(length_tlBytes_eq_iff bytes).mpr (by rw [hlength, hmod]), hlength]

theorem length_reqDHParamsBytes (server : Server) {nonce encryptedData : Bytes}
    (hnonce : nonce.length = 16) (hencrypted : encryptedData.length = 256) :
    (reqDHParamsBytes server nonce encryptedData).length = 320 := by
  simp only [reqDHParamsBytes, List.length_append, length_le32, length_le64, hnonce,
    server.length_serverNonce, length_tlBytes_of_dvd (length_beBytes 4 _) rfl,
    length_tlBytes_of_dvd hencrypted rfl]

/-- The server opens the encrypted data and finds the constant nonce. -/
theorem reqDHParams_accepted {moment : Moment} (h : Compatible lib server moment) (msgId : UInt64) :
    server.reqDHParams (drawnNonce lib moment)
        (frame msgId (reqDHParamsBytes server (drawnNonce lib moment)
          (beBytes 256 (encryptedNumber lib server moment)))) = some zeroNonce := by
  have hnonce := length_drawnNonce lib moment
  have hlength := length_reqDHParamsBytes server hnonce
    (length_beBytes 256 (encryptedNumber lib server moment))
  have hplain : beBytes 255 (server.rsaDecrypt (encryptedNumber lib server moment)) =
      pqPlain server (drawnNonce lib moment) := by
    rw [h.decrypted, ← length_pqPlain server hnonce, beBytes_beNat]
  have hread : server.readNewNonce (drawnNonce lib moment) (beBytes 4 server.p.toNat)
      (beBytes 4 server.q.toNat)
      (pqMessage server (drawnNonce lib moment) ++ List.replicate 139 0) =
        some (zeroNonce, List.replicate 139 0) := by
    dsimp only [Server.readNewNonce, Option.bind_eq_bind]
    rw [pqMessage, List.append_assoc, expect_append, Option.bind_some]
    exact takeBytes_append _ (List.length_replicate ..)
  have hopen := openHashed_append hread
  have hshort : (beBytes 256 (encryptedNumber lib server moment)).length < 2 ^ 24 := by
    rw [length_beBytes]
    norm_num
  have htail := parseBytes_append hshort []
  rw [List.append_nil] at htail
  have hp := server.p.toNat_lt
  have hq := server.q.toNat_lt
  dsimp only [Server.reqDHParams, Option.bind_eq_bind]
  rw [openFrame_frame msgId (by omega), Option.bind_some, reqDHParamsBytes, expect_append,
    Option.bind_some, expect_append, Option.bind_some, expect_append, Option.bind_some,
    parseBytes_append (by rw [length_beBytes]; norm_num), Option.bind_some,
    parseBytes_append (by rw [length_beBytes]; norm_num), Option.bind_some, expect_append,
    Option.bind_some, htail, Option.bind_some, beNat_beBytes h.encrypted_lt, hplain, pqPlain]
  dsimp only
  rw [if_pos ⟨rfl, beNat_beBytes hp, beNat_beBytes hq⟩]
  exact hopen

/-! ## The answer with the parameters -/

theorem size_of_bytes {b : Buf} {data : Bytes} {length : ℕ} (hb : b.bytes = data)
    (hdata : data.length = length) : b.size = length := by rw [Buf.size, hb, hdata]

/-- The parameters of the cipher for nonces of their sizes. -/
theorem exists_tmpAes (lib : Libraries) {newNonce serverNonce : Buf} (hnew : newNonce.size = 32)
    (hserver : serverNonce.size = 16) :
    ∃ key iv, tmpAes lib newNonce serverNonce = some (key, iv) := by
  obtain ⟨newServer, h1, -⟩ := exists_bufCat (a := newNonce) (b := serverNonce)
    (by rw [hnew, hserver]; decide)
  obtain ⟨newServerHash, h2, hb2⟩ := exists_hshSha1 lib newServer
  obtain ⟨serverNew, h3, -⟩ := exists_bufCat (a := serverNonce) (b := newNonce)
    (by rw [hnew, hserver]; decide)
  obtain ⟨serverNewHash, h4, -⟩ := exists_hshSha1 lib serverNew
  obtain ⟨first, h5, hb5⟩ := exists_part serverNewHash 0 12 (by decide)
  have hsize2 := size_of_bytes hb2 (Crypto.length_sha1 _)
  have hsize5 := size_of_bytes hb5 (length_read ..)
  obtain ⟨key, h6, -⟩ := exists_bufCat (a := newServerHash) (b := first)
    (by rw [hsize2, hsize5]; decide)
  obtain ⟨last, h7, hb7⟩ := exists_part serverNewHash 12 8 (by decide)
  obtain ⟨newNew, h8, -⟩ := exists_bufCat (a := newNonce) (b := newNonce) (by rw [hnew]; decide)
  obtain ⟨newNewHash, h9, hb9⟩ := exists_hshSha1 lib newNew
  obtain ⟨start, h10, hb10⟩ := exists_part newNonce 0 4 (by decide)
  have hsize7 := size_of_bytes hb7 (length_read ..)
  have hsize9 := size_of_bytes hb9 (Crypto.length_sha1 _)
  have hsize10 := size_of_bytes hb10 (length_read ..)
  obtain ⟨front, h11, hb11⟩ := exists_bufCat (a := last) (b := newNewHash)
    (by rw [hsize7, hsize9]; decide)
  have hsize11 := size_of_bytes hb11 (List.length_append.trans
    (congrArg₂ (· + ·) hsize7 hsize9))
  obtain ⟨iv, h12, -⟩ := exists_bufCat (a := front) (b := start)
    (by rw [hsize11, hsize10]; decide)
  refine ⟨key, iv, ?_⟩
  dsimp only [tmpAes, Option.bind_eq_bind]
  rw [h1, Option.bind_some, h2, Option.bind_some, h3, Option.bind_some, h4, Option.bind_some, h5,
    Option.bind_some, h6, Option.bind_some, h7, Option.bind_some, h8, Option.bind_some, h9,
    Option.bind_some, h10, Option.bind_some, h11, Option.bind_some, h12, Option.bind_some]

theorem gA_lt (server : Server) : server.gA < 256 ^ 256 := by
  have hpos : 0 < server.dhPrime := (Nat.pow_pos (by norm_num)).trans_le server.dhPrime_ge
  exact (Nat.mod_lt _ hpos).trans server.dhPrime_lt

theorem length_tlBytes_gA (server : Server) :
    (tlBytes (beBytes (byteLength server.gA) server.gA)).length = 260 := by
  have hle : byteLength server.gA ≤ 256 := byteLength_le_iff.mpr (gA_lt server)
  have hge : ¬ byteLength server.gA ≤ 253 := fun h ↦
    Nat.not_lt.mpr server.gA_ge (byteLength_le_iff.mp h)
  rw [Tl.tlBytes, Tl.tlBytesHeader, if_neg (by rw [length_beBytes]; exact hge)]
  simp only [List.length_append, List.length_cons, length_leBytes, length_beBytes, Tl.tlPadding,
    List.length_replicate]
  omega

theorem length_dhInner {nonce : Bytes} (hnonce : nonce.length = 16) :
    (server.dhInner nonce).length = 564 := by
  simp only [Server.dhInner, List.length_append, length_le32, hnonce, server.length_serverNonce,
    length_tlBytes_gA, length_tlBytes_of_dvd (length_beBytes 256 server.dhPrime) rfl]

/-- The answer in front of its encryption takes whole blocks. -/
theorem length_answer {nonce : Bytes} (hnonce : nonce.length = 16) :
    (SecureHash.sha1 (server.dhInner nonce) ++ (server.dhInner nonce ++ server.padding)).length =
      592 := by
  rw [List.length_append, List.length_append, Crypto.length_sha1, length_dhInner hnonce,
    server.length_padding]

theorem length_encryptedAnswer {nonce newNonce : Bytes} (hnonce : nonce.length = 16) :
    (server.encryptedAnswer lib.crypto nonce newNonce).length = 592 := by
  rw [Server.encryptedAnswer, lib.crypto.length_igeEncrypt _ _ _ (by rw [length_answer hnonce]),
    length_answer hnonce]

/-- The client decrypts the answer to the parameters of the server. -/
theorem ctorServerDHInnerDataInit_some (nonce p q : Param) {encryptedAnswer : Param} {resPQ : ResPQ}
    {drawn : Bytes} (hdrawn : drawn.length = 16)
    (hserverNonce : resPQ.serverNonce.value.bytes = server.serverNonce)
    (hanswer : encryptedAnswer.value.bytes =
      server.encryptedAnswer lib.crypto drawn zeroNonce) :
    ∃ answer key iv, ctorServerDHInnerDataInit lib nonce resPQ p q encryptedAnswer =
        some (answer, key, iv) ∧ answer.bytes = server.dhInner drawn ∧
      key.bytes = tmpAesKey zeroNonce server.serverNonce ∧
      iv.bytes = tmpAesIv zeroNonce server.serverNonce := by
  obtain ⟨zeros, hzeros, hzerosBytes⟩ := exists_bufAdd zeroNonce (by decide)
  have hzeros' : bufAdd (List.replicate 32 0) = some zeros := hzeros
  have hzerosSize : zeros.size = 32 := size_of_bytes hzerosBytes rfl
  obtain ⟨key, iv, htmp⟩ := exists_tmpAes lib hzerosSize
    (size_of_bytes hserverNonce server.length_serverNonce)
  obtain ⟨hkey, hiv⟩ := tmpAes_inv (by omega) htmp
  rw [hzerosBytes, hserverNonce] at hkey hiv
  have hsize := size_of_bytes hanswer (length_encryptedAnswer hdrawn)
  have hdecrypt : lib.crypto.igeDecrypt key.bytes iv.bytes encryptedAnswer.value.bytes =
      SecureHash.sha1 (server.dhInner drawn) ++ (server.dhInner drawn ++ server.padding) := by
    rw [hkey, hiv, hanswer, Server.encryptedAnswer,
      lib.crypto.igeDecrypt_igeEncrypt _ _ _ (by rw [length_answer hdrawn])]
  obtain ⟨plain, hplain, hplainBytes⟩ := exists_bufAdd
    (SecureHash.sha1 (server.dhInner drawn) ++ (server.dhInner drawn ++ server.padding))
    (by rw [length_answer hdrawn]; decide)
  obtain ⟨tail, htail, htailBytes⟩ := rest_append hplainBytes (Crypto.length_sha1 _)
  have htailSize : tail.size = 572 := size_of_bytes htailBytes
    (by rw [List.length_append, length_dhInner hdrawn, server.length_padding])
  obtain ⟨answer, hshort, hbytes⟩ := exists_bufAdd (server.dhInner drawn)
    (by rw [length_dhInner hdrawn]; decide)
  have htake : tail.bytes.take (tail.size - 8) = server.dhInner drawn := by
    rw [htailSize, htailBytes]
    exact List.take_left' (length_dhInner hdrawn)
  refine ⟨answer, key, iv, ?_, hbytes, hkey, hiv⟩
  dsimp only [ctorServerDHInnerDataInit, ctorPQInnerDataInit, zeroBuf, Option.bind_eq_bind]
  rw [hzeros', Option.bind_some, Option.bind_some]
  dsimp only
  rw [htmp, Option.bind_some]
  dsimp only
  rw [cryAesD, if_pos (by rw [hsize]), hdecrypt, hplain, Option.bind_some, htail, Option.bind_some,
    Buf.shorten, if_pos (by rw [htailSize]; decide), htake, hshort, Option.bind_some]

/-- The client reads the parameters. -/
theorem ctorServerDHInnerDataDrive_some {answer : Buf} {drawn : Bytes} (hdrawn : drawn.length = 16)
    (hanswer : answer.bytes = server.dhInner drawn) (t : TypeSystem) :
    ∃ c, ctorServerDHInnerDataDrive t answer = some { t with serverDHInnerData := c } ∧
      c.nonce.Holds .int128 drawn ∧ c.serverNonce.Holds .int128 server.serverNonce ∧
      c.g.Holds .int (le32 server.g) ∧ c.dhPrime.Holds .string (beBytes 256 server.dhPrime) ∧
      c.gA.Holds .string (beBytes (byteLength server.gA) server.gA) := by
  obtain ⟨s, hs, hbytes⟩ := rest_append hanswer (length_le32 _)
  obtain ⟨c, hc, hfields⟩ := concreteServerDHInnerData_append hdrawn server.length_serverNonce
    (length_le32 _) (by rw [length_beBytes]) hbytes
  refine ⟨c, ?_, hfields⟩
  dsimp only [ctorServerDHInnerDataDrive, Option.bind_eq_bind]
  rw [selDeserialize, hs, Option.bind_eq_bind, Option.bind_some, bufGetUi32_append hanswer,
    Option.bind_some, silConcrete_serverDHInnerData, hc, Option.bind_some]

/-! ## The third request -/

variable (lib server) in
/-- The secret exponent of the client. -/
def drawnExponent (moment : Moment) : ℕ := beNat (bufRandAt lib.rand moment.bTime 256).1

variable (lib server) in
def gB (moment : Moment) : ℕ := server.g.toNat ^ drawnExponent lib moment % server.dhPrime

variable (lib server) in
/-- `client_DH_inner_data`. -/
def clientMessage (moment : Moment) (nonce : Bytes) : Bytes :=
  le32 0x6643b654 ++ nonce ++ server.serverNonce ++ le64 0 ++
    tlBytes (beBytes (byteLength (gB lib server moment)) (gB lib server moment))

theorem dhPrime_pos (server : Server) : 0 < server.dhPrime :=
  (Nat.pow_pos (by norm_num)).trans_le server.dhPrime_ge

theorem byteLength_mod_le (server : Server) (value : ℕ) :
    byteLength (value % server.dhPrime) ≤ 256 :=
  byteLength_le_iff.mpr ((Nat.mod_lt _ (dhPrime_pos server)).trans server.dhPrime_lt)

theorem length_tlBytes_le (bytes : Bytes) : (tlBytes bytes).length ≤ bytes.length + 7 := by
  unfold Tl.tlBytes Tl.tlBytesHeader Tl.tlPadding
  split <;>
    simp only [List.length_append, List.length_cons, List.length_nil, length_leBytes,
      List.length_replicate] <;> omega

theorem length_clientMessage_le (lib : Libraries) (server : Server) (moment : Moment) {nonce : Bytes}
    (hnonce : nonce.length = 16) :
    (clientMessage lib server moment nonce).length ≤ 307 := by
  have hle := length_tlBytes_le (beBytes (byteLength (gB lib server moment)) (gB lib server moment))
  have hgB : byteLength (gB lib server moment) ≤ 256 := byteLength_mod_le server _
  rw [length_beBytes] at hle
  simp only [clientMessage, List.length_append, length_le32, length_le64, hnonce,
    server.length_serverNonce]
  omega

/-- `cmn_pow_mod` for the modulus of the server. -/
theorem cmnPowMod_some {g e m : Buf} (hm : m.bytes = beBytes 256 server.dhPrime) :
    ∃ r, cmnPowMod g e m = some r ∧
      r.bytes = beBytes (byteLength (beNat g.bytes ^ beNat e.bytes % server.dhPrime))
        (beNat g.bytes ^ beNat e.bytes % server.dhPrime) := by
  have hmod : beNat m.bytes = server.dhPrime := by rw [hm, beNat_beBytes server.dhPrime_lt]
  have hle := byteLength_mod_le server (beNat g.bytes ^ beNat e.bytes)
  rw [cmnPowMod, hmod, if_neg (dhPrime_pos server).ne']
  exact exists_bufAdd _ (by rw [length_beBytes, maxBufSize]; omega)

/-- `ctor_Client_DH_Inner_Data_init` for the parameters of the server. -/
theorem ctorClientDHInnerDataInit_some (lib : Libraries) (moment : Moment) {c1 : ServerDHInnerData}
    (hg : c1.g.Holds .int (le32 server.g))
    (hdhPrime : c1.dhPrime.Holds .string (beBytes 256 server.dhPrime)) :
    ∃ c2, ctorClientDHInnerDataInit lib moment.bTime c1 = some c2 ∧ c2.nonce = c1.nonce ∧
      c2.serverNonce = c1.serverNonce ∧ c2.retryId.Holds .long (le32 0) ∧
      c2.gB.Holds .string (beBytes (byteLength (gB lib server moment)) (gB lib server moment)) ∧
      beNat c2.b.bytes = drawnExponent lib moment := by
  obtain ⟨retryId, hretryId, hretryIdBytes⟩ := exists_bufAdd (le32 0)
    (by rw [length_le32, maxBufSize]; omega)
  obtain ⟨b, hb, hbBytes⟩ := exists_bufAdd (bufRandAt lib.rand moment.bTime 256).1
    (by rw [Tg.bufRandAt, length_drawBytes, maxBufSize]; omega)
  obtain ⟨r, hr, hrBytes⟩ := cmnPowMod_some (g := bufSwap c1.g.value) (e := b) hdhPrime.bytes_eq
  have hgNat : beNat (bufSwap c1.g.value).bytes = server.g.toNat := by
    rw [bufSwap]
    dsimp only
    rw [hg.bytes_eq, beBytes_swap, beNat_beBytes server.g.toNat_lt]
  have hbNat : beNat b.bytes = drawnExponent lib moment := by rw [hbBytes, drawnExponent]
  rw [hgNat, hbNat] at hrBytes
  refine ⟨⟨c1.nonce, c1.serverNonce, ⟨.long, retryId⟩, ⟨.string, r⟩, b⟩, ?_, rfl, rfl,
    ⟨rfl, hretryIdBytes⟩, ⟨rfl, hrBytes⟩, hbNat⟩
  dsimp only [ctorClientDHInnerDataInit, bufRand, bufAddUi32, Option.bind_eq_bind]
  rw [hretryId, Option.bind_some, hb, Option.bind_some, hr, Option.bind_some]

/-- `ctor_Client_DH_Inner_Data_drive` writes the message, with all eight bytes of the retry id. -/
theorem ctorClientDHInnerDataDrive_some {moment : Moment} {c : ClientDHInnerData} {nonce : Bytes}
    (hnonce : nonce.length = 16) (hcnonce : c.nonce.Holds .int128 nonce)
    (hserverNonce : c.serverNonce.Holds .int128 server.serverNonce)
    (hretryId : c.retryId.Holds .long (le32 0))
    (hgB : c.gB.Holds .string
      (beBytes (byteLength (gB lib server moment)) (gB lib server moment))) :
    ∃ d, ctorClientDHInnerDataDrive c = some d ∧
      d.bytes = clientMessage lib server moment nonce := by
  obtain ⟨params, hparams, hknown, hwire⟩ := silAbstract_some (m := .clientDHInnerData c) (by
    simp only [Method.params, List.forall_mem_cons, hcnonce.known rfl, hserverNonce.known rfl,
      hretryId.known rfl, hgB.known_string]
    simp)
  have hretry : c.retryId.wire = le64 0 := by
    rw [Param.wire, hretryId.type_eq]
    dsimp only
    rw [Buf.read, hretryId.bytes_eq]
    rfl
  have hbytes : params.flatMap Param.wire = clientMessage lib server moment nonce := by
    rw [hwire, Method.wire, Method.params]
    simp only [List.flatMap_cons, List.flatMap_nil, List.append_nil, hgB.wire_string, hretry,
      hcnonce.wire (hnonce ▸ rfl), hserverNonce.wire (server.length_serverNonce ▸ rfl),
      clientMessage, Method.id, List.append_assoc]
  have hle := length_clientMessage_le lib server moment hnonce
  obtain ⟨d, hd, hdbytes⟩ := exists_bufAdd (clientMessage lib server moment nonce)
    (by rw [maxBufSize]; omega)
  refine ⟨d, ?_, hdbytes⟩
  dsimp only [ctorClientDHInnerDataDrive, Option.bind_eq_bind]
  rw [hparams, Option.bind_some, selSerialize_eq hknown, hbytes, hd]

variable (lib server) in
/-- The plaintext of the third request: a hash, the message and random bytes up to whole blocks. -/
def clientPlain (moment : Moment) (nonce : Bytes) : Bytes :=
  let message := clientMessage lib server moment nonce
  SecureHash.sha1 message ++ (message ++
    (bufRandAt lib.rand moment.padTime ((16 - (20 + message.length) % 16) % 16)).1)

variable (lib server) in
/-- `encrypted_data` of the third request. -/
def clientData (moment : Moment) (nonce : Bytes) : Bytes :=
  lib.crypto.igeEncrypt (tmpAesKey zeroNonce server.serverNonce)
    (tmpAesIv zeroNonce server.serverNonce) (clientPlain lib server moment nonce)

theorem length_clientPlain (lib : Libraries) (server : Server) (moment : Moment) {nonce : Bytes}
    (hnonce : nonce.length = 16) :
    (clientPlain lib server moment nonce).length % 16 = 0 ∧
      (clientPlain lib server moment nonce).length ≤ 342 := by
  have hle := length_clientMessage_le lib server moment hnonce
  simp only [clientPlain, List.length_append, Crypto.length_sha1, Tg.bufRandAt, length_drawBytes]
  omega

theorem length_clientData (lib : Libraries) (server : Server) (moment : Moment) {nonce : Bytes}
    (hnonce : nonce.length = 16) :
    (clientData lib server moment nonce).length % 16 = 0 ∧
      (clientData lib server moment nonce).length ≤ 342 := by
  have hplain := length_clientPlain lib server moment hnonce
  rwa [clientData, lib.crypto.length_igeEncrypt _ _ _ hplain.1]

/-- The salt of the client is that of the server. -/
theorem exists_salt {newNonce serverNonce : Buf} (hnew : newNonce.bytes = zeroNonce)
    (hserver : serverNonce.bytes = server.serverNonce) :
    ∃ first second salt, newNonce.part 0 8 = some first ∧ serverNonce.part 0 8 = some second ∧
      bufXor first second = some salt ∧ salt.bytes = server.salt zeroNonce := by
  obtain ⟨first, hfirst, hfirstBytes⟩ := exists_part newNonce 0 8 (by decide)
  obtain ⟨second, hsecond, hsecondBytes⟩ := exists_part serverNonce 0 8 (by decide)
  have hlength := server.length_serverNonce
  have hnewSize : newNonce.size = 32 := size_of_bytes hnew rfl
  have hserverSize : serverNonce.size = 16 := size_of_bytes hserver hlength
  rw [read_of_le (by omega), hnew, List.drop_zero] at hfirstBytes
  rw [read_of_le (by omega), hserver, List.drop_zero] at hsecondBytes
  have hfirstSize : first.size = 8 := size_of_bytes hfirstBytes rfl
  have hsecondSize : second.size = 8 := size_of_bytes hsecondBytes (by
    rw [List.length_take]
    omega)
  have hread : second.read 0 first.size = server.serverNonce.take 8 := by
    rw [read_of_le (by omega), List.drop_zero, hfirstSize, hsecondBytes, List.take_take,
      Nat.min_self]
  obtain ⟨salt, hsalt, hsaltBytes⟩ := exists_bufAdd (server.salt zeroNonce) (by
    rw [Server.salt, List.length_zipWith, List.length_take, List.length_take, maxBufSize]
    omega)
  refine ⟨first, second, salt, hfirst, hsecond, ?_, hsaltBytes⟩
  rw [bufXor, hread, hfirstBytes, ← hsalt, Server.salt]

/-- `method_set_client_DH_params_init` for the honest parameters. -/
theorem methodSetClientDHParamsInit_some (moment : Moment) (nonce : Param) {resPQ : ResPQ}
    {m2 : ReqDHParams} {t : TypeSystem} {drawn : Bytes} (hdrawn : drawn.length = 16)
    (hnewNonce : m2.pQInnerData.newNonce.value.bytes = zeroNonce)
    (hserverNonce : resPQ.serverNonce.Holds .int128 server.serverNonce)
    (hanswer : t.serverDHParamsOk.encryptedAnswer.value.bytes =
      server.encryptedAnswer lib.crypto drawn zeroNonce) :
    ∃ m t', methodSetClientDHParamsInit lib moment nonce resPQ m2 t = some (m, t') ∧
      m.nonce = nonce ∧ m.serverNonce = resPQ.serverNonce ∧
      m.encryptedData.Holds .string (clientData lib server moment drawn) ∧
      m.salt.bytes = server.salt zeroNonce ∧
      m.serverDHInnerData.gA.Holds .string (beBytes (byteLength server.gA) server.gA) ∧
      m.serverDHInnerData.dhPrime.Holds .string (beBytes 256 server.dhPrime) ∧
      beNat m.clientDHInnerData.b.bytes = drawnExponent lib moment := by
  obtain ⟨answer, key, iv, hinit, hanswerBytes, hkey, hiv⟩ :=
    ctorServerDHInnerDataInit_some nonce m2.p m2.q hdrawn hserverNonce.bytes_eq hanswer
  obtain ⟨c1, hdrive, hc1nonce, hc1serverNonce, hg, hdhPrime, hgA⟩ :=
    ctorServerDHInnerDataDrive_some hdrawn hanswerBytes t
  obtain ⟨c2, hc2, hc2nonce, hc2serverNonce, hretryId, hgB, hb⟩ :=
    ctorClientDHInnerDataInit_some lib moment hg hdhPrime
  obtain ⟨data, hdata, hdataBytes⟩ := ctorClientDHInnerDataDrive_some hdrawn
    (hc2nonce ▸ hc1nonce) (hc2serverNonce ▸ hc1serverNonce) hretryId hgB
  obtain ⟨hash, hhash, hhashBytes⟩ := exists_hshSha1 lib data
  have hhashSize := size_of_bytes hhashBytes (Crypto.length_sha1 _)
  have hdataSize := size_of_bytes hdataBytes rfl
  have hdataLe := length_clientMessage_le lib server moment hdrawn
  obtain ⟨rand, hrand, hrandBytes⟩ := exists_bufAdd (bufRandAt lib.rand moment.padTime
    ((16 - (hash.size + data.size) % 16) % 16)).1
    (by rw [Tg.bufRandAt, length_drawBytes, maxBufSize]; omega)
  have hrandSize := size_of_bytes hrandBytes (length_drawBytes ..)
  obtain ⟨start, hstart, hstartBytes⟩ := exists_bufCat (a := hash) (b := data)
    (by rw [hhashSize, hdataSize, maxBufSize]; omega)
  have hstartSize : start.size = hash.size + data.size :=
    size_of_bytes hstartBytes List.length_append
  obtain ⟨whole, hwhole, hwholeBytes⟩ := exists_bufCat (a := start) (b := rand)
    (by rw [hstartSize, hhashSize, hdataSize, hrandSize, maxBufSize]; omega)
  have hplain : whole.bytes = clientPlain lib server moment drawn := by
    rw [hwholeBytes, hstartBytes, hhashBytes, hrandBytes, hhashSize, hdataSize, hdataBytes,
      List.append_assoc, clientPlain]
  obtain ⟨hblocks, hplainLe⟩ := length_clientPlain lib server moment hdrawn
  obtain ⟨encrypted, hencrypted, hencryptedBytes⟩ := exists_bufAdd
    (clientData lib server moment drawn)
    (by
      have hle := (length_clientData lib server moment hdrawn).2
      rw [maxBufSize]
      omega)
  have haes : cryAesE lib whole key iv = some encrypted := by
    rw [cryAesE, if_pos (by rw [size_of_bytes hplain rfl, hblocks]), hkey, hiv, hplain, ← hencrypted,
      clientData]
  obtain ⟨first, second, salt, hfirst, hsecond, hsalt, hsaltBytes⟩ :=
    exists_salt hnewNonce hserverNonce.bytes_eq
  refine ⟨⟨nonce, resPQ.serverNonce, ⟨.string, encrypted⟩, c1, c2, salt⟩,
    { t with serverDHInnerData := c1 }, ?_, rfl, rfl, ⟨rfl, hencryptedBytes⟩, hsaltBytes, hgA,
    hdhPrime, hb⟩
  dsimp only [methodSetClientDHParamsInit, bufRand, Option.bind_eq_bind]
  rw [hinit, Option.bind_some]
  dsimp only
  rw [hdrive, Option.bind_some]
  dsimp only
  rw [hc2, Option.bind_some, hdata, Option.bind_some, hhash, Option.bind_some, hrand,
    Option.bind_some, hstart, Option.bind_some, hwhole, Option.bind_some, haes, Option.bind_some,
    hfirst, Option.bind_some, hsecond, Option.bind_some, hsalt, Option.bind_some]

/-- The bytes of the third request. -/
def setClientDHParamsBytes (server : Server) (nonce encryptedData : Bytes) : Bytes :=
  le32 0xf5045f1f ++ (nonce ++ (server.serverNonce ++ tlBytes encryptedData))

/-- The server opens the encrypted data and finds `g_b`. -/
theorem setClientDHParams_accepted (lib : Libraries) (server : Server) (moment : Moment)
    {nonce : Bytes} (hnonce : nonce.length = 16) (msgId : UInt64) :
    server.setClientDHParams lib.crypto nonce zeroNonce
        (frame msgId (setClientDHParamsBytes server nonce (clientData lib server moment nonce))) =
      some (gB lib server moment) := by
  obtain ⟨hblocks, hdataLe⟩ := length_clientData lib server moment hnonce
  have hplainBlocks := (length_clientPlain lib server moment hnonce).1
  have htlLe := length_tlBytes_le (clientData lib server moment nonce)
  have hgB := byteLength_mod_le server (server.g.toNat ^ drawnExponent lib moment)
  have hread (padding : Bytes) :
      server.readGB nonce (clientMessage lib server moment nonce ++ padding) =
        some (gB lib server moment, padding) := by
    dsimp only [Server.readGB, Option.bind_eq_bind]
    rw [clientMessage, List.append_assoc _ (tlBytes _) padding, expect_append, Option.bind_some,
      parseBytes_append (by rw [length_beBytes]; exact hgB.trans_lt (by norm_num)),
      Option.bind_some]
    dsimp only
    rw [beNat_beBytes (lt_pow_byteLength _)]
  have hopen := openHashed_append (hread
    (bufRandAt lib.rand moment.padTime
      ((16 - (20 + (clientMessage lib server moment nonce).length) % 16) % 16)).1)
  have hshort : (clientData lib server moment nonce).length < 2 ^ 24 := by omega
  have htail := parseBytes_append hshort []
  rw [List.append_nil] at htail
  have hlength : (setClientDHParamsBytes server nonce (clientData lib server moment nonce)).length +
      20 < 2 ^ 32 := by
    simp only [setClientDHParamsBytes, List.length_append, length_le32, hnonce,
      server.length_serverNonce]
    omega
  dsimp only [Server.setClientDHParams, Option.bind_eq_bind]
  rw [openFrame_frame msgId hlength, Option.bind_some, setClientDHParamsBytes, expect_append,
    Option.bind_some, expect_append, Option.bind_some, expect_append, Option.bind_some, htail,
    Option.bind_some]
  dsimp only
  rw [if_pos ⟨rfl, hblocks⟩, clientData, lib.crypto.igeDecrypt_igeEncrypt _ _ _ hplainBlocks]
  exact hopen

/-! ## The whole handshake -/

/-- A peer that is the server returns the packet of its answer. -/
theorem peer_eq {crypto : Tg.Crypto} {sent : List Buf} {data : Bytes}
    (hanswer : server.answer crypto sent = some data) (hfits : data.length ≤ maxBufSize) :
    (server.peer crypto sent).bytes = data := by
  obtain ⟨b, hb, hbytes⟩ := exists_bufAdd _ hfits
  rw [Server.peer, hanswer, Option.bind_eq_bind, Option.bind_some, hb, Option.getD_some, hbytes]

theorem length_resPQ_le {nonce : Bytes} (hnonce : nonce.length = 16) :
    (server.resPQ nonce).length ≤ maxBufSize := by
  have hothers : (server.otherFingerprints.flatMap le64).length =
      8 * server.otherFingerprints.length := by
    generalize server.otherFingerprints = others
    induction others with
    | nil => rfl
    | cons first others ih =>
      rw [List.flatMap_cons, List.length_append, length_le64, ih, List.length_cons]
      omega
  have hle : server.otherFingerprints.length < 12 := server.length_fingerprints
  rw [Server.resPQ, length_frame]
  simp only [List.length_append, length_le32, length_le64, hnonce, server.length_serverNonce,
    hothers, Server.pq, length_tlBytes_of_dvd (length_beBytes 8 _) rfl, maxBufSize]
  omega

/-- The first request and the answer to it. -/
theorem reqPq_some (lib : Libraries) (server : Server) (moment : Moment) (t : TypeSystem) :
    ∃ nonce packet nr t', nonce.Holds .int128 (drawnNonce lib moment) ∧
      bufRand lib.rand moment.nonceTime 16 = some nonce.value ∧
      Server.reqPq packet.bytes = some (drawnNonce lib moment) ∧
      methodDrive (server.peer lib.crypto) moment.reqPqId (.reqPq nonce) ⟨[], [], t⟩ =
        some ⟨[packet], [nr], t'⟩ ∧
      t'.resPQ.serverNonce.Holds .int128 server.serverNonce ∧
      t'.resPQ.pq.Holds .string server.pq ∧
      t'.resPQ.serverPublicKeyFingerprints.Holds .vectorLong (le64 server.fingerprint) := by
  have hnonceLength := length_drawnNonce lib moment
  obtain ⟨value, hvalue, hvalueBytes⟩ := exists_bufAdd (drawnNonce lib moment)
    (by rw [hnonceLength]; decide)
  have hnonce : Param.Holds ⟨.int128, value⟩ .int128 (drawnNonce lib moment) := ⟨rfl, hvalueBytes⟩
  have hwire : (Method.reqPq ⟨.int128, value⟩).wire = le32 0x60469778 ++ drawnNonce lib moment := by
    rw [Method.wire, Method.params, List.flatMap_cons, List.flatMap_nil, List.append_nil,
      hnonce.wire (hnonceLength ▸ rfl)]
    rfl
  obtain ⟨packet, hpacket, hdrive⟩ := methodDrive_some (server.peer lib.crypto) moment.reqPqId
    (m := .reqPq ⟨.int128, value⟩) ⟨[], [], t⟩
    (by simp only [Method.params, List.forall_mem_cons, hnonce.known rfl]; simp)
    (by rw [hwire, List.length_append, length_le32, hnonceLength]; decide)
  rw [hwire] at hpacket
  have hreqPq : Server.reqPq packet.bytes = some (drawnNonce lib moment) := by
    have htake := takeBytes_append [] hnonceLength
    rw [List.append_nil] at htake
    dsimp only [Server.reqPq, Option.bind_eq_bind]
    rw [hpacket, openFrame_frame _ (by
        rw [List.length_append, length_le32, hnonceLength]; decide), Option.bind_some,
      expect_append, Option.bind_some, htake, Option.bind_some, if_pos rfl]
  have hanswer : server.answer lib.crypto [packet] = some (server.resPQ (drawnNonce lib moment)) := by
    dsimp only [Server.answer, Option.bind_eq_bind]
    rw [hreqPq, Option.bind_some]
  have hpeer := peer_eq hanswer (length_resPQ_le hnonceLength)
  obtain ⟨s, hs, hreceive⟩ := receive_frame hpeer t
  have hcount : (UInt32.ofNat (server.otherFingerprints.length + 1)).toNat =
      server.otherFingerprints.length + 1 := by
    have hle : server.otherFingerprints.length < 12 := server.length_fingerprints
    rw [UInt32.toNat_ofNat']
    omega
  obtain ⟨r, hr, hfields⟩ := concreteResPQ_append hnonceLength server.length_serverNonce
    (length_beBytes 8 _) (fun hzero ↦ by rw [hzero] at hcount; cases hcount)
    (by rw [hcount]; exact server.length_fingerprints) hs
  refine ⟨⟨.int128, value⟩, packet, _, { t with resPQ := r }, hnonce, hvalue, hreqPq, hdrive _ ?_,
    hfields⟩
  rw [List.nil_append, hreceive, silConcrete_resPQ, hr, Option.bind_some]

/-- The second request and the answer to it. -/
theorem reqDHParams_some {moment : Moment} (h : Compatible lib server moment) {w : World}
    {first : Buf} {m1 : ReqDHParams} (hsent : w.sent = [first])
    (hfirst : Server.reqPq first.bytes = some (drawnNonce lib moment))
    (hnonce : m1.nonce.Holds .int128 (drawnNonce lib moment))
    (hserverNonce : m1.serverNonce.Holds .int128 server.serverNonce)
    (hp : m1.p.Holds .string (beBytes 4 server.p.toNat))
    (hq : m1.q.Holds .string (beBytes 4 server.q.toNat))
    (hfingerprint : m1.publicKeyFingerprint.Holds .vectorLong (le64 server.fingerprint))
    (hencrypted : m1.encryptedData.Holds .string
      (beBytes 256 (encryptedNumber lib server moment))) :
    ∃ packet nr t', methodDrive (server.peer lib.crypto) moment.reqDHParamsId (.reqDHParams m1) w =
        some ⟨[first, packet], w.received ++ [nr], t'⟩ ∧
      server.reqDHParams (drawnNonce lib moment) packet.bytes = some zeroNonce ∧
      t'.serverDHParamsOk.encryptedAnswer.value.bytes =
        server.encryptedAnswer lib.crypto (drawnNonce lib moment) zeroNonce := by
  have hnonceLength := length_drawnNonce lib moment
  have hlength := length_reqDHParamsBytes server hnonceLength
    (length_beBytes 256 (encryptedNumber lib server moment))
  have hwire : (Method.reqDHParams m1).wire = reqDHParamsBytes server (drawnNonce lib moment)
      (beBytes 256 (encryptedNumber lib server moment)) := by
    rw [Method.wire, Method.params]
    simp only [List.flatMap_cons, List.flatMap_nil, List.append_nil, hp.wire_string, hq.wire_string,
      hencrypted.wire_string, hfingerprint.wire_vectorLong, hnonce.wire (hnonceLength ▸ rfl),
      hserverNonce.wire (server.length_serverNonce ▸ rfl), reqDHParamsBytes, Method.id]
  obtain ⟨packet, hpacket, hdrive⟩ := methodDrive_some (server.peer lib.crypto) moment.reqDHParamsId
    (m := .reqDHParams m1) w
    (by
      simp only [Method.params, List.forall_mem_cons, hnonce.known rfl, hserverNonce.known rfl,
        hp.known_string, hq.known_string, hfingerprint.known_vectorLong, hencrypted.known_string]
      simp)
    (by rw [hwire, hlength]; decide)
  rw [hwire] at hpacket
  rw [hsent, List.cons_append, List.nil_append] at hdrive
  have haccepted := reqDHParams_accepted h moment.reqDHParamsId
  rw [← hpacket] at haccepted
  have hanswer : server.answer lib.crypto [first, packet] =
      some (server.dhParamsOk lib.crypto (drawnNonce lib moment) zeroNonce) := by
    dsimp only [Server.answer, Option.bind_eq_bind]
    rw [hfirst, Option.bind_some, haccepted, Option.bind_some]
  have hpeer := peer_eq hanswer (by
    rw [Server.dhParamsOk, length_frame]
    simp only [List.length_append, length_le32, hnonceLength, server.length_serverNonce,
      length_tlBytes_of_dvd (length_encryptedAnswer hnonceLength) rfl, maxBufSize]
    omega)
  obtain ⟨s, hs, hreceive⟩ := receive_frame hpeer w.t
  obtain ⟨r, hr, hencryptedAnswer⟩ := concreteServerDHParamsOk_append hnonceLength
    server.length_serverNonce hs
  refine ⟨packet, _, { w.t with serverDHParamsOk := r }, hdrive _ ?_, haccepted,
    hencryptedAnswer.bytes_eq⟩
  rw [hreceive, silConcrete_serverDHParamsOk, hr, Option.bind_some]

/-- The third request and the answer to it. -/
theorem setClientDHParams_some {moment : Moment} {w : World} {first second : Buf}
    {nonce serverNonce encryptedData : Param} (hsent : w.sent = [first, second])
    (hfirst : Server.reqPq first.bytes = some (drawnNonce lib moment))
    (hsecond : server.reqDHParams (drawnNonce lib moment) second.bytes = some zeroNonce)
    (hnonce : nonce.Holds .int128 (drawnNonce lib moment))
    (hserverNonce : serverNonce.Holds .int128 server.serverNonce)
    (hencrypted : encryptedData.Holds .string
      (clientData lib server moment (drawnNonce lib moment))) :
    ∃ w', methodDrive (server.peer lib.crypto) moment.setClientDHParamsId
        (.setClientDHParams nonce serverNonce encryptedData) w = some w' ∧
      server.secrets lib.crypto w'.sent =
        some (server.authKey (gB lib server moment), server.salt zeroNonce) := by
  have hnonceLength := length_drawnNonce lib moment
  have hdataLe := (length_clientData lib server moment hnonceLength).2
  have htlLe := length_tlBytes_le (clientData lib server moment (drawnNonce lib moment))
  have hwire : (Method.setClientDHParams nonce serverNonce encryptedData).wire =
      setClientDHParamsBytes server (drawnNonce lib moment)
        (clientData lib server moment (drawnNonce lib moment)) := by
    rw [Method.wire, Method.params]
    simp only [List.flatMap_cons, List.flatMap_nil, List.append_nil, hencrypted.wire_string,
      hnonce.wire (hnonceLength ▸ rfl), hserverNonce.wire (server.length_serverNonce ▸ rfl),
      setClientDHParamsBytes, Method.id]
  obtain ⟨packet, hpacket, hdrive⟩ := methodDrive_some (server.peer lib.crypto)
    moment.setClientDHParamsId (m := .setClientDHParams nonce serverNonce encryptedData) w
    (by
      simp only [Method.params, List.forall_mem_cons, hnonce.known rfl, hserverNonce.known rfl,
        hencrypted.known_string]
      simp)
    (by
      simp only [hwire, setClientDHParamsBytes, List.length_append, length_le32, hnonceLength,
        server.length_serverNonce, maxBufSize]
      omega)
  rw [hwire] at hpacket
  rw [hsent, List.cons_append, List.cons_append, List.nil_append] at hdrive
  have haccepted := setClientDHParams_accepted lib server moment hnonceLength
    moment.setClientDHParamsId
  rw [← hpacket] at haccepted
  have hanswer : server.answer lib.crypto [first, second, packet] = some (server.dhGenOk
      (drawnNonce lib moment) zeroNonce (server.authKey (gB lib server moment))) := by
    dsimp only [Server.answer, Option.bind_eq_bind]
    rw [hfirst, Option.bind_some, hsecond, Option.bind_some, haccepted, Option.bind_some]
  have hpeer := peer_eq hanswer (by
    rw [Server.dhGenOk, length_frame]
    simp only [List.length_append, length_le32, hnonceLength, server.length_serverNonce,
      List.length_drop, Crypto.length_sha1, maxBufSize]
    omega)
  obtain ⟨s, hs, hreceive⟩ := receive_frame hpeer w.t
  obtain ⟨r, hr⟩ := exists_concreteDhGenOk hnonceLength server.length_serverNonce
    (by rw [List.length_drop, Crypto.length_sha1]) hs
  refine ⟨⟨[first, second, packet], _, { w.t with setClientDHParamsAnswerOk := r }⟩, hdrive _ ?_, ?_⟩
  · rw [hreceive, silConcrete_dhGenOk, hr, Option.bind_some]
  · dsimp only [Server.secrets, Option.bind_eq_bind]
    rw [hfirst, Option.bind_some, hsecond, Option.bind_some, haccepted, Option.bind_some]

/-- Both sides compute the same power. -/
theorem pow_mod_pow_mod_comm (g a b p : ℕ) : (g ^ a % p) ^ b % p = (g ^ b % p) ^ a % p := by
  rw [← Nat.pow_mod, ← Nat.pow_mod, ← pow_mul, ← pow_mul, Nat.mul_comm a b]

/-- The handshake with an honest server. -/
structure Agreed (lib : Libraries) (server : Server) (moment : Moment) (secrets : Secrets)
    (w : World) : Prop where
  key : secrets.key.bytes = beBytes (byteLength (gB lib server moment ^ server.a % server.dhPrime))
    (gB lib server moment ^ server.a % server.dhPrime)
  salt : secrets.salt.bytes = server.salt zeroNonce
  server : server.secrets lib.crypto w.sent =
    some (server.authKey (gB lib server moment), server.salt zeroNonce)

theorem srlAuth_agreed {moment : Moment} (h : Compatible lib server moment) (t : TypeSystem) :
    ∃ secrets w, srlAuth lib moment (server.peer lib.crypto) t = some (secrets, w) ∧
      Agreed lib server moment secrets w := by
  have hnonceLength := length_drawnNonce lib moment
  obtain ⟨nonce, first, nr1, t1, hnonce, hrand, hfirst, hdrive1, hserverNonce, hpq, hfingerprint⟩ :=
    reqPq_some lib server moment t
  obtain ⟨m1, hm1, hm1nonce, hm1serverNonce, hp, hq, hm1fingerprint, hencrypted⟩ :=
    methodReqDHParamsInit_some h hnonce hserverNonce hpq
  have hnewNonce := methodReqDHParamsInit_inv hm1
  obtain ⟨second, nr2, t2, hdrive2, hsecond, hanswer⟩ :=
    reqDHParams_some (w := ⟨[first], [nr1], t1⟩) h rfl hfirst (hm1nonce ▸ hnonce)
      (hm1serverNonce ▸ hserverNonce) hp hq (hm1fingerprint ▸ hfingerprint) hencrypted
  obtain ⟨m2, t3, hm2, hm2nonce, hm2serverNonce, hdata, hsalt, hgA, hdhPrime, hb⟩ :=
    methodSetClientDHParamsInit_some moment nonce hnonceLength hnewNonce hserverNonce hanswer
  obtain ⟨w, hdrive3, hsecrets⟩ :=
    setClientDHParams_some (w := ⟨[first, second], [nr1] ++ [nr2], t3⟩) rfl hfirst hsecond
      (hm2nonce ▸ hnonce) (hm2serverNonce ▸ hserverNonce) hdata
  obtain ⟨key, hkey, hkeyBytes⟩ := cmnPowMod_some (g := m2.serverDHInnerData.gA.value)
    (e := m2.clientDHInnerData.b) hdhPrime.bytes_eq
  have hpower : beNat m2.serverDHInnerData.gA.value.bytes ^ beNat m2.clientDHInnerData.b.bytes %
      server.dhPrime = gB lib server moment ^ server.a % server.dhPrime := by
    rw [hgA.bytes_eq, hb, beNat_beBytes (lt_pow_byteLength _)]
    exact pow_mod_pow_mod_comm _ _ _ _
  rw [hpower] at hkeyBytes
  refine ⟨⟨key, m2.salt⟩, w, ?_, hkeyBytes, hsalt, hsecrets⟩
  dsimp only [srlAuth, Option.bind_eq_bind]
  rw [hrand, Option.bind_some]
  have hnonceEq : (⟨.int128, nonce.value⟩ : Param) = nonce := by
    rw [← hnonce.type_eq]
  rw [hnonceEq, hdrive1, Option.bind_some]
  dsimp only
  rw [hm1, Option.bind_some, hdrive2, Option.bind_some]
  dsimp only
  rw [hm2, Option.bind_some]
  dsimp only
  rw [hdrive3, Option.bind_some, hkey, Option.bind_some]

/-- One handshake after the other with an honest server, whatever the global record holds. -/
theorem authRun_agreed {moments : List Moment} (h : ∀ moment ∈ moments, Compatible lib server moment)
    (t : TypeSystem) :
    ∃ sessions, authRun lib t (moments.map fun moment ↦ (moment, server.peer lib.crypto)) =
        some sessions ∧
      List.Forall₂ (fun moment session ↦ Agreed lib server moment session.1 session.2) moments
        sessions := by
  induction moments generalizing t with
  | nil => exact ⟨[], rfl, .nil⟩
  | cons moment moments ih =>
    rw [List.forall_mem_cons] at h
    obtain ⟨secrets, w, hauth, hagreed⟩ := srlAuth_agreed h.1 t
    obtain ⟨rest, hrest, hall⟩ := ih h.2 w.t
    exact ⟨(secrets, w) :: rest, authRun_cons hauth hrest, .cons hagreed hall⟩

end Client

/-! ## A recorded handshake -/

section Recorded

/-- The number of the key in `pub.pkcs`. -/
def recordedN : ℕ := beNat <|
  beBytes 32 0xc150023e2f70db7985ded064759cfecf0af328e69a41daf4d6f01b538135a6f9 ++
  beBytes 32 0x1f8f8b2a0ec9ba9720ce352efcf6c5680ffc424bd634864902de0b4bd6d49f4e ++
  beBytes 32 0x580230e3ae97d95c8b19442b3c0a10d8f5633fecedd6926a7f6dab0ddb7d457f ++
  beBytes 32 0x9ea81b8465fcd6fffeed114011df91c059caedaf97625f6c96ecc74725556934 ++
  beBytes 32 0xef781d866b34f011fce4d835a090196e9a5f0e4449af7eb697ddb9076494ca5f ++
  beBytes 32 0x81104a305b6dd27665722c46b60e5df680fb16b210607ef217652e60236c255f ++
  beBytes 32 0x6a28315f4083a96791d7214bf64c1df4fd0db1944fb26a2a57031b32eee64ad1 ++
  beBytes 32 0x5a8ba68885cde74a5bfc920f6abf59ba5c75506373e7130f9042da922179251f

/-- A prime of 2048 bits with the generator 3. -/
def recordedPrime : ℕ := beNat <|
  beBytes 32 0xc71caeb9c6b1c9048e6c522f70f13f73980d40238e3e21c14934d037563d930f ++
  beBytes 32 0x48198a0aa7c14058229493d22530f4dbfa336f6e0ac925139543aed44cce7c37 ++
  beBytes 32 0x20fd51f69458705ac68cd4fe6b6b13abdc9746512969328454f18faf8c595f64 ++
  beBytes 32 0x2477fe96bb2a941d5bcd1d4ac8cc49880708fa9b378e3c4f3a9060bee67cf9a4 ++
  beBytes 32 0xa4a695811051907e162753b56b0f6b410dba74d8a84b2a14b3144e0ef1284754 ++
  beBytes 32 0xfd17ed950d5965b4b9dd46582db1178d169c6bc465b0d6ff9ca3928fef5b9ae4 ++
  beBytes 32 0xe418fc15e83ebea0f87fa9ff5eed70050ded2849f47bf959d956850ce929851f ++
  beBytes 32 0x0d8115f635b105ee2e4e15d04b2454bf6f4fadf034b10403119cd8e3b92fcc5b

/-- The secret message of the client. -/
def recordedMessage : Bytes :=
  beBytes 32 0xec5ac9830817ed48941a08f98100000004494c553b0000000453911073000000 ++
  beBytes 32 0x2b43598773ab74debc44e2ede4afa7c5a5cf4d33f4a11ea877ba4aa573907330 ++
  beBytes 32 0x0000000000000000000000000000000000000000000000000000000000000000

/-- The message behind its hash, and the padding. -/
def recordedPlain : Bytes :=
  beBytes 20 0xe92a49f3da3821ad1c3e3eed6f52664d74b8c6f9 ++ (recordedMessage ++ List.replicate 139 0)

/-- A server that opens one message with its private key. -/
def recordedServer : Server where
  rsaDecrypt := fun _ ↦ beNat recordedPlain
  serverNonce := beBytes 16 0xa5cf4d33f4a11ea877ba4aa573907330
  p := 1229739323
  q := 1402015859
  fingerprint := 0xc3b42b026ce86b21
  otherFingerprints := []
  g := 3
  dhPrime := recordedPrime
  a := 2000
  serverTime := 1700000000
  padding := beBytes 8 0x0102030405060708
  resPQId := 0x6553f10000000001
  dhParamsId := 0x6553f10000000005
  dhGenId := 0x6553f10100000009
  length_serverNonce := length_beBytes 16 _
  p_lt_q := by decide
  length_fingerprints := by decide
  dhPrime_ge := by decide +kernel
  dhPrime_lt := by decide +kernel
  gA_ge := by decide +kernel
  length_padding := length_beBytes 8 _

/-- The nonce of the client in the second 1700000000. -/
def recordedNonce : Bytes := (bufRandAt Tg.sampleRand 1700000000 16).1

/-- The parameters of the server behind their hash. -/
def recordedAnswer : Bytes :=
  SecureHash.sha1 (recordedServer.dhInner recordedNonce) ++
    (recordedServer.dhInner recordedNonce ++ recordedServer.padding)

/-- `recordedAnswer` under AES. -/
def recordedAnswerData : Bytes :=
  beBytes 40 0x9b09b64b5de8fb7b875ca387e7c48cf168b52eda56189498fcd7c995850af9c7a0cfaba39d627c93 ++
  beBytes 40 0x4d51d3143df3e1f4c100ce0ad74d2f326cddbd304f269161ffa16ad050efd4012c1f9b9a4bab484c ++
  beBytes 40 0x16f8912a15f3e0f7e7c69a2e2d505db607fc44e5a774dde0179149224afbce0037fe82482099b6a4 ++
  beBytes 40 0x7e136819aec8f3f7683fbba9ce426ba99f6c37d6efbb112b235ce4a4705df91e9db531175bd8974d ++
  beBytes 40 0x5dd03da1710f3e3f6208c9d9eafbeb8b59f3fa2bd6601bcf9fb1829bc6d979a1a78b5008e975f451 ++
  beBytes 40 0x79cdabbc22f45df676285906967d19707a5b24a2102bf6d5c2c24f92f6456ebc074e96eb7e97d510 ++
  beBytes 40 0xfbfc7daab1880b5e9034824f26d81e8c9c423de5c9fc46239596f90e5b842993154147ba40089ae4 ++
  beBytes 40 0x2b09ce0d56bcbd18f6f84cf16f1eebb17d2eeae720d246ec87712a6dd0faa2a04b7bea2e43f6513d ++
  beBytes 40 0x2c2a3d9031a3db3c575738003e6f77e7b9042f58206c49377c75939d8ed32d421270fa3cb0447f86 ++
  beBytes 40 0x13f7a417e317611511dbcc9ad871f625bc4d31891a0a1bb947cba6f6fc7bd69f92dfd2ac567d6591 ++
  beBytes 40 0xaaee16fba3cc52dbb75853bb265e904c39ab7e050ddcf62bed03e870d72c13432a5bb0fe192228e7 ++
  beBytes 40 0x98c3cd8bc80b981bf5facd3ed816f41cc79f5ad98ca413ceb6df6d53dd5f0114b1a51ecc4dac51f6 ++
  beBytes 40 0x078a423551cc5353c45c1b115a66eb4eafc369b633dfc7dc39868f3d2dd48483dca0cebb087d73af ++
  beBytes 40 0x248ab35b94ddeb156c2de51290dcde95bc4886bfe6cbee1bb97a45f07bd69d3f110aa46adeebe671 ++
  beBytes 32 0xff1e10b07e4994770b120fe6bb53b6888f9c262231dbc88bd050d4556c3b2289

/-- What the client answers with the exponent of the second 1700000001. -/
def recordedClient : Bytes :=
  beBytes 40 0x3f5a85954cdbf3dc7869649012c8a8940055985f54b643662b43598773ab74debc44e2ede4afa7c5 ++
  beBytes 40 0xa5cf4d33f4a11ea877ba4aa5739073300000000000000000fe0001006531e67b2c8b5fd876df77a1 ++
  beBytes 40 0xe536ee2e05344a324bcf5a87d11316fed29a903c6d14522749d5083563ddfece36b94dc50f8e2617 ++
  beBytes 40 0xa2cc15b9a9f10f1b8e86ecae646af179ae6255f1cfee47f494127025260954b2fe5d2813b909bac9 ++
  beBytes 40 0xc867ea56621335062ee7575f2f8982769944d5982fab29ebd943cfc60f9064f4411444c0002afd95 ++
  beBytes 40 0xa1f2aa242a9f89a4afbfe5f2e72e8dbefca8ef512cb3f1a88605bc3bf25536c50528f65d358f7874 ++
  beBytes 40 0x964179605025ac60fd20c57a54e58120172584d942d029a1ec288ba5740eeddf3d2cc24eeabc0068 ++
  beBytes 40 0xb3a1e7fb5cb9ffa2840feca69efef6881c6cc2294545112424464fa3ef9fe2c7f41372dcfb3d08af ++
  beBytes 16 0x9755e8b3f2e6d78d1487a9bcb660ba21

/-- `recordedClient` under AES. -/
def recordedClientData : Bytes :=
  beBytes 40 0x76ad1c2df7ab93ce500aec6600058106cd126ba640d9a5decd7dd06bd9378c38cbc002db03ba2418 ++
  beBytes 40 0xf0fb0c2532755cde49a589e797468181611c8ce095e7fd9973b169e5f29915da5ddea76fd1a5117e ++
  beBytes 40 0xb1e5a3bf7734004027258e4e05a9ce5819abd9d7adfdbd9f8b255fb48dc5e25e1dcfdcb83afc0aaf ++
  beBytes 40 0x5925d02768fb473d1af3d4aa619306930e5496918da4d67906a4c093b91dc0cf6a68c5dd6cb1352f ++
  beBytes 40 0xbf0afa84b80192ca94e01b65eaf02db504af0cda22937b0ecd58cbfb96b63f73826930722ff1dc5b ++
  beBytes 40 0x346e5040a2a708f9052c9ae161315e5c9d5fc063993c08d56fe86ea20044c2b5b1224c1d279adfb5 ++
  beBytes 40 0x51acf6dd0726ae4153043382574188fd7e27e7f440a1478eec288e3c6fa087a1130e7070713dc046 ++
  beBytes 40 0xb6d8ee362e2b208149a0021c806ec7104a8321ff84aaa22a41d26074282756de3197247779e6bee2 ++
  beBytes 16 0xe72bde3fb54085dcf98b15cdaf922bd0

/-- What AES does to the two plaintexts, under the temporary key. -/
def recordedIge : Bytes ≃ Bytes :=
  (Equiv.swap recordedAnswer recordedAnswerData).trans
    (Equiv.swap recordedClient recordedClientData)

theorem length_recordedIge (data : Bytes) : (recordedIge data).length = data.length := by
  have hanswer : recordedAnswer.length = recordedAnswerData.length :=
    (length_answer (length_drawBytes ..)).trans (by decide +kernel)
  have hclient : recordedClient.length = recordedClientData.length := by decide +kernel
  rw [recordedIge, Equiv.trans_apply, Tg.length_swap hclient, Tg.length_swap hanswer]

/-- The functions of OpenSSL as far as the handshake needs them. -/
def recordedCrypto : Tg.Crypto where
  sha1 := SecureHash.sha1
  sha256 := SecureHash.sha256
  igeEncrypt := fun _ _ data ↦ recordedIge data
  igeDecrypt := fun _ _ data ↦ recordedIge.symm data
  length_sha1 := Crypto.length_sha1
  length_sha256 := fun _ ↦ by
    simp only [SecureHash.sha256, SecureHash.Words8.toBytes, List.length_append,
      SecureHash.wordBytes, length_beBytes]
  length_igeEncrypt := fun _ _ data _ ↦ length_recordedIge data
  length_igeDecrypt := fun _ _ data _ ↦ by
    rw [← length_recordedIge, Equiv.apply_symm_apply]
  igeDecrypt_igeEncrypt := fun _ _ data _ ↦ Equiv.symm_apply_apply recordedIge data
  igeEncrypt_igeDecrypt := fun _ _ data _ ↦ Equiv.apply_symm_apply recordedIge data

def recordedLibraries : Libraries where
  rand := Tg.sampleRand
  factor := fun _ ↦ (1229739323, 1402015859)
  crypto := recordedCrypto
  rsaN := recordedN
  rsaE := 65537
  sha1nfo := Crypto.usedState

def recordedMoment : Moment where
  nonceTime := 1700000000
  bTime := 1700000001
  padTime := 1700000001
  reqPqId := 0x6553f10000000000
  reqDHParamsId := 0x6553f10000000004
  setClientDHParamsId := 0x6553f10100000008
  dwh := []

theorem pqPlain_recorded :
    pqPlain recordedServer (drawnNonce recordedLibraries recordedMoment) = recordedPlain := by
  have hmessage : pqMessage recordedServer (drawnNonce recordedLibraries recordedMoment) =
      recordedMessage := by decide +kernel
  have hlength : recordedMessage.length < 2 ^ 32 := by decide +kernel
  have hrun : Crypto.sha1 Crypto.usedState recordedMessage =
      some (beBytes 20 0xe92a49f3da3821ad1c3e3eed6f52664d74b8c6f9) := by decide +kernel
  have hhash := Option.some.inj ((Crypto.sha1_eq Crypto.usedState hlength).symm.trans hrun)
  rw [pqPlain, hmessage, hhash, recordedPlain]

theorem recorded_compatible : Compatible recordedLibraries recordedServer recordedMoment where
  dwh := rfl
  factors := .inl rfl
  rsaN_pos := by decide +kernel
  rsaN_le := by decide +kernel
  encrypted_ge := by
    rw [encryptedNumber, pqPlain_recorded]
    decide +kernel
  decrypted := by rw [pqPlain_recorded]; rfl

/-- Two handshakes with the server. -/
def recordedHandshakes : List (Moment × Peer) :=
  [recordedMoment, recordedMoment].map fun moment ↦
    (moment, recordedServer.peer recordedLibraries.crypto)

/-- An observer of the two finds both keys. -/
theorem recorded_observed :
    ∃ sessions, authRun recordedLibraries .reset recordedHandshakes = some sessions ∧
      eavesdropAll recordedLibraries.rand recordedLibraries.crypto.igeDecrypt .reset
          ((sessions.map fun session ↦ session.2.received).zip
            (recordedHandshakes.map fun handshake ↦ handshake.1.bTime)) =
        some (sessions.map fun session ↦ (session.1.key.bytes, session.1.salt.bytes)) := by
  have hcompatible : ∀ moment ∈ [recordedMoment, recordedMoment],
      Compatible recordedLibraries recordedServer moment :=
    List.forall_mem_cons.mpr ⟨recorded_compatible, List.forall_mem_singleton.mpr
      recorded_compatible⟩
  obtain ⟨sessions, hrun, -⟩ := authRun_agreed hcompatible .reset
  exact ⟨sessions, hrun, authRun_observed hrun⟩

end Recorded

end LibTg.Mtx
