import LibTg.Data.BigEndian
import LibTg.Tg.Encrypt
import LibTg.Tl.FlagWords
import Mathlib.Data.Int.ModEq
import Mathlib.Tactic.ReduceModChar

/-!
# Two-factor authentication (`tg/2fa.c`)

`tg_get_inputCheckPasswordSRP` proves that the user knows the password by the SRP protocol: client
and server derive the same secret from each other's public values, and the client sends a hash of it.
The hash functions are parameters, and a `BIGNUM` is an integer. Buffers are byte strings here; only
the padding to 256 bytes looks at the block of a buffer. A password is the bytes of the C string
before its NUL. The random bytes of `buf_rand` are the parameter `a`.
-/

namespace LibTg.Tg

open LibTg.Tl

def inputCheckPasswordSRP : Method where
  name := "inputCheckPasswordSRP"
  id := 0xd27ff082
  args := [⟨"srp_id", some "long", 0, 0⟩, ⟨"A", some "bytes", 0, 0⟩, ⟨"M1", some "bytes", 0, 0⟩]
  isMtproto := false

/-! ## Big numbers -/

def bnBin2bn (bytes : Bytes) : ℤ := beNat bytes

def bnNumBytes (number : ℤ) : ℕ := byteLength number.natAbs

/-- `BN_bn2bin_size`: an assertion that fails or a write outside the block has no result. -/
def bnBn2binSize (number : ℤ) (exactSize : ℤ) : Option Bytes :=
  let size := if exactSize = -1 then bnNumBytes number else exactSize.toNat
  if exactSize ≤ bufsiz ∧ (exactSize = -1 ∨ bnNumBytes number ≤ exactSize) ∧
      size < bufNew.mem.length then
    some ((overwrite bufNew.mem (size - bnNumBytes number)
      (beBytes (bnNumBytes number) number.natAbs)).take size)
  else none

def bnModExp (base exponent modulus : ℤ) : ℤ := base ^ exponent.toNat % modulus

def bnModMul (first second modulus : ℤ) : ℤ := first * second % modulus

/-! ## The client -/

section Client

variable (crypto : Crypto) (pbkdf2 : Bytes → Bytes → ℕ → Bytes)

/-- `SH`. -/
def saltedHash (data salt : Bytes) : Bytes := crypto.sha256 (salt ++ data ++ salt)

def tgCalcPasswordHash (password salt1 salt2 : Bytes) : Bytes :=
  let buf1 := saltedHash crypto password salt1
  let buf2 := saltedHash crypto buf1 salt2
  let buf3 := pbkdf2 buf2 salt1 100000
  saltedHash crypto buf3 salt2

/-- The statements from `v_bn` to `t_bn`. -/
def srpT (g x k p B : ℤ) : ℤ :=
  let v := bnModExp g x p
  let kv := bnModMul k v p
  let t := B - kv
  if t < 0 then t + p else t

/-- The statements from `exp_bn` to `S_bn`. -/
def srpSecret (t u x a p : ℤ) : ℤ := bnModExp t (u * x + a) p

def bufXor (first second : Bytes) : Bytes := List.zipWith (· ^^^ ·) first second

def tgGetInputCheckPasswordSRP (moves : ℕ → Bool) (password salt1 salt2 : Bytes) (g : UInt32)
    (p B : Bytes) (id : UInt64) (a : Bytes) : Option Buf :=
  if ¬ 0 < bnBin2bn B ∨ ¬ bnBin2bn B < bnBin2bn p ∨ B.length ≠ 256 then some bufNew
  else do
    let gPadded ← bnBn2binSize g.toNat 256
    let x := bnBin2bn (tgCalcPasswordHash crypto pbkdf2 password salt1 salt2)
    let A ← bnBn2binSize (bnModExp g.toNat (bnBin2bn a) (bnBin2bn p)) 256
    let u := bnBin2bn (crypto.sha256 (A ++ B))
    let k := bnBin2bn (crypto.sha256 (p ++ gPadded))
    let t := srpT g.toNat x k (bnBin2bn p) (bnBin2bn B)
    let S ← bnBn2binSize (srpSecret t u x (bnBin2bn a) (bnBin2bn p)) 256
    let K := crypto.sha256 S
    let xor := bufXor (crypto.sha256 p) (crypto.sha256 gPadded)
    let M1 := crypto.sha256 (xor ++ crypto.sha256 salt1 ++ crypto.sha256 salt2 ++ A ++ B ++ K)
    tlMethod moves inputCheckPasswordSRP [.one (.u64 id), .one (.buf A), .one (.buf M1)]

end Client

/-! ## Big numbers in 256 bytes -/

/-- A number in 256 bytes, filled up with zeros from the left. -/
def pad256 (number : ℕ) : Bytes := beBytes 256 number

theorem bnBin2bn_pad256 {number : ℕ} (hnumber : number < 256 ^ 256) :
    bnBin2bn (pad256 number) = number := by
  rw [bnBin2bn, pad256, beNat_beBytes hnumber]

/-- The block of a new buffer is zeroed, so that the bytes in front of the number are zeros. -/
theorem bnBn2binSize_256 {number : ℕ} (hnumber : number < 256 ^ 256) :
    bnBn2binSize number 256 = some (pad256 number) := by
  have hlength : byteLength number ≤ 256 := byteLength_le_iff.mpr hnumber
  have hnum : bnNumBytes (number : ℤ) = byteLength number := by rw [bnNumBytes, Int.natAbs_natCast]
  have hmem : bufNew.mem = List.replicate (bufsiz + 1) 0 := rfl
  have hdata : (overwrite bufNew.mem (256 - byteLength number)
      (beBytes (byteLength number) number)).take 256 = pad256 number := by
    have hfront : (bufNew.mem.take (256 - byteLength number) ++
        beBytes (byteLength number) number).length = 256 := by
      rw [List.length_append, length_beBytes, hmem, List.take_replicate, List.length_replicate]
      unfold bufsiz
      omega
    rw [overwrite, List.take_append_of_le_length hfront.ge, List.take_of_length_le hfront.le, hmem,
      List.take_replicate]
    rw [Nat.min_eq_left (by unfold bufsiz; omega), zeros_append_beBytes hlength]
    rfl
  have hexact : ¬ (256 : ℤ) = -1 := by decide
  rw [bnBn2binSize, if_neg hexact, hnum, Int.natAbs_natCast, if_pos]
  · exact congrArg some hdata
  · refine ⟨by decide, Or.inr (by exact_mod_cast hlength), ?_⟩
    rw [bufNew.mem_length]
    decide

/-! ## The protocol -/

/-- The secret that both sides derive, in any commutative group of powers. -/
theorem shared_secret {Power : Type*} [CommMonoid Power] (g : Power) (a b u x : ℕ) :
    (g ^ b) ^ (u * x + a) = (g ^ a * (g ^ x) ^ u) ^ b := by
  calc (g ^ b) ^ (u * x + a) = (g ^ (u * x + a)) ^ b := by rw [← pow_mul, Nat.mul_comm, pow_mul]
    _ = (g ^ a * (g ^ x) ^ u) ^ b := by rw [pow_add, Nat.mul_comm u x, pow_mul, mul_comm]

/-- The reduction of a difference that may be negative. -/
theorem srpT_spec {g x k b p B : ℕ} (hB : B = (k * (g ^ x % p) + g ^ b) % p) (hlt : B < p) :
    0 ≤ srpT g x k p B ∧ srpT g x k p B < p ∧ srpT g x k p B ≡ (g : ℤ) ^ b [ZMOD p] := by
  have hpos : (0 : ℤ) < p := by omega
  have hkv := Int.emod_nonneg ((k : ℤ) * bnModExp g x p) hpos.ne'
  have hkv' := Int.emod_lt_of_pos ((k : ℤ) * bnModExp g x p) hpos
  have hcongr : (B : ℤ) - bnModMul k (bnModExp g x p) p ≡ (g : ℤ) ^ b [ZMOD p] := by
    have hsum : (B : ℤ) ≡ k * bnModExp g x p + (g : ℤ) ^ b [ZMOD p] := by
      rw [hB, bnModExp, Int.toNat_natCast]
      push_cast
      exact Int.mod_modEq _ _
    have hproduct : bnModMul k (bnModExp g x p) p ≡ k * bnModExp g x p [ZMOD p] :=
      Int.mod_modEq _ _
    have hdiff := hsum.sub hproduct
    rwa [add_sub_cancel_left] at hdiff
  unfold srpT
  dsimp only
  unfold bnModMul at hcongr ⊢
  split
  case isTrue hneg =>
    refine ⟨by omega, by omega, ?_⟩
    have hshift : (B : ℤ) - k * bnModExp g x p % p + p ≡ B - k * bnModExp g x p % p [ZMOD p] :=
      Int.add_modEq_right
    exact hshift.trans hcongr
  case isFalse hneg => exact ⟨by omega, by omega, hcongr⟩

/-- The client's secret is the server's. -/
theorem srpSecret_eq {g x a u b p : ℕ} {t : ℤ} (ht : t ≡ (g : ℤ) ^ b [ZMOD p]) :
    srpSecret t u x a p =
      (((g ^ a % p) * (g ^ x % p) ^ u) ^ b % p : ℕ) := by
  have hexponent : ((u : ℤ) * x + a).toNat = u * x + a := by
    rw [← Nat.cast_mul, ← Nat.cast_add, Int.toNat_natCast]
  have hserver : ((g ^ a % p) * (g ^ x % p) ^ u) ^ b ≡ (g ^ a * (g ^ x) ^ u) ^ b [MOD p] :=
    (((Nat.mod_modEq _ _).mul ((Nat.mod_modEq _ _).pow u))).pow b
  calc srpSecret t u x a p
      = t ^ (u * x + a) % p := by rw [srpSecret, bnModExp, hexponent]
    _ = ((g : ℤ) ^ b) ^ (u * x + a) % p := ht.pow _
    _ = (((g ^ a * (g ^ x) ^ u) ^ b % p : ℕ) : ℤ) := by
        rw [shared_secret]
        push_cast
        rfl
    _ = (((g ^ a % p) * (g ^ x % p) ^ u) ^ b % p : ℕ) := by rw [hserver]

section Agreement

variable (crypto : Crypto) (pbkdf2 : Bytes → Bytes → ℕ → Bytes) (password salt1 salt2 : Bytes)
  (g : UInt32) (p : Bytes) (a b : ℕ)

/-- `PH1` of the comment. -/
def primaryHash : Bytes := saltedHash crypto (saltedHash crypto password salt1) salt2

/-- `PH2` of the comment. -/
def secondaryHash : Bytes :=
  saltedHash crypto (pbkdf2 (primaryHash crypto password salt1 salt2) salt1 100000) salt2

/-- The exponent that the password stands for. -/
def srpX : ℕ := beNat (secondaryHash crypto pbkdf2 password salt1 salt2)

/-- The verifier that the server keeps. -/
def srpV : ℕ := g.toNat ^ srpX crypto pbkdf2 password salt1 salt2 % beNat p

/-- The multiplier. -/
def srpK : ℕ := beNat (crypto.sha256 (p ++ pad256 g.toNat))

/-- What the server sends for its secret `b`. -/
def srpB : ℕ :=
  (srpK crypto g p * srpV crypto pbkdf2 password salt1 salt2 g p + g.toNat ^ b) % beNat p

/-- What the client sends for its secret `a`. -/
def srpA : ℕ := g.toNat ^ a % beNat p

/-- The hash of both public values. -/
def srpU : ℕ := beNat (crypto.sha256
  (pad256 (srpA g p a) ++ pad256 (srpB crypto pbkdf2 password salt1 salt2 g p b)))

/-- The secret as the server derives it. -/
def serverSecret : ℕ :=
  (srpA g p a * srpV crypto pbkdf2 password salt1 salt2 g p ^
    srpU crypto pbkdf2 password salt1 salt2 g p a b) ^ b % beNat p

/-- The proof that the server expects. -/
def srpM1 : Bytes := crypto.sha256
  (bufXor (crypto.sha256 p) (crypto.sha256 (pad256 g.toNat)) ++ crypto.sha256 salt1 ++
    crypto.sha256 salt2 ++ pad256 (srpA g p a) ++
    pad256 (srpB crypto pbkdf2 password salt1 salt2 g p b) ++
    crypto.sha256 (pad256 (serverSecret crypto pbkdf2 password salt1 salt2 g p a b)))

/-- `inputCheckPasswordSRP` on the wire. -/
def srpWire (id : UInt64) (A M1 : Bytes) : Bytes :=
  le32 inputCheckPasswordSRP.id ++ le64 id ++ tlBytes A ++ tlBytes M1

theorem tlInputCheckPasswordSRP_spec (moves : ℕ → Bool) (id : UInt64) (A M1 : Bytes)
    (hfits : (srpWire id A M1).length + 1 < 2 ^ 32) :
    ∃ buf, tlMethod moves inputCheckPasswordSRP [.one (.u64 id), .one (.buf A), .one (.buf M1)] =
      some buf ∧ Holds buf (srpWire id A M1) := by
  have hlong : valueFormat false "long" (.one (.u64 id)) = some (le64 id) := by
    have hvector : vectorElem "long" = none := by decide
    simp [valueFormat, hvector, CArg.toOne, elemFormat]
  have hbytes (data : Bytes) : valueFormat false "bytes" (.one (.buf data)) =
      some (tlBytes data) := by
    have hvector : vectorElem "bytes" = none := by decide
    simp [valueFormat, hvector, CArg.toOne, elemFormat]
  have hlayout (words : ℕ → UInt32) : emitted inputCheckPasswordSRP words
      (inputCheckPasswordSRP.args.zip [.one (.u64 id), .one (.buf A), .one (.buf M1)]) =
        srpWire id A M1 := by
    simp [emitted, inputCheckPasswordSRP, argsLayout, Arg.isFlags, argBytes, hlong, hbytes, srpWire]
  have hlength := length_emitted inputCheckPasswordSRP (fun _ ↦ 0)
    (inputCheckPasswordSRP.args.zip [.one (.u64 id), .one (.buf A), .one (.buf M1)])
  rw [hlayout] at hlength
  have haccepts : ∀ pair ∈ inputCheckPasswordSRP.args.zip
      [.one (.u64 id), .one (.buf A), .one (.buf M1)],
      Accepts inputCheckPasswordSRP.isMtproto pair := by
    simp [inputCheckPasswordSRP, Accepts, hlong, hbytes, CArg.toVec]
  obtain ⟨words, buf, hbuf, hholds, -⟩ := tlMethod_spec moves inputCheckPasswordSRP
    [.one (.u64 id), .one (.buf A), .one (.buf M1)] rfl (by decide) haccepts (by omega)
  exact ⟨buf, hbuf, hlayout words ▸ hholds⟩

/-- A byte string of 256 bytes and a hash are far below the limit. -/
theorem length_srpWire_lt (id : UInt64) {A M1 : Bytes} (hA : A.length = 256)
    (hM1 : M1.length = 32) : (srpWire id A M1).length + 1 < 2 ^ 32 := by
  have hpaddingA := length_tlPadding_le (tlBytesHeader A ++ A).length
  have hpaddingM := length_tlPadding_le (tlBytesHeader M1 ++ M1).length
  have hheaderA : (tlBytesHeader A).length ≤ 4 := by
    rw [tlBytesHeader]
    split <;> simp
  have hheaderM : (tlBytesHeader M1).length ≤ 4 := by
    rw [tlBytesHeader]
    split <;> simp
  simp only [srpWire, tlBytes, List.length_append, length_le32, length_le64] at *
  omega

/-- Client and server agree: the difference `t` is reduced to the server's power, every number fits
its 256 bytes, the secrets are equal, and the client sends the proof that the server expects. -/
theorem tgGetInputCheckPasswordSRP_agrees (moves : ℕ → Bool) (id : UInt64) (secret : Bytes)
    (hp : p.length = 256) (hg : g.toNat < beNat p)
    (hB : 0 < srpB crypto pbkdf2 password salt1 salt2 g p b) :
    let a := beNat secret
    let x := srpX crypto pbkdf2 password salt1 salt2
    let B := srpB crypto pbkdf2 password salt1 salt2 g p b
    let u := srpU crypto pbkdf2 password salt1 salt2 g p a b
    let t := srpT g.toNat x (srpK crypto g p) (beNat p) B
    let S := serverSecret crypto pbkdf2 password salt1 salt2 g p a b
    (0 ≤ t ∧ t < beNat p ∧ t ≡ (g.toNat : ℤ) ^ b [ZMOD beNat p]) ∧
      (bnBn2binSize g.toNat 256 = some (pad256 g.toNat) ∧
        bnBn2binSize (bnModExp g.toNat a (beNat p)) 256 = some (pad256 (srpA g p a)) ∧
        bnBn2binSize (srpSecret t u x a (beNat p)) 256 = some (pad256 S)) ∧
      srpSecret t u x a (beNat p) = S ∧
      ∃ buf, tgGetInputCheckPasswordSRP crypto pbkdf2 moves password salt1 salt2 g p (pad256 B) id
          secret = some buf ∧
        Holds buf (srpWire id (pad256 (srpA g p a))
          (srpM1 crypto pbkdf2 password salt1 salt2 g p a b)) := by
  intro a x B u t S
  have hp256 : beNat p < 256 ^ 256 := hp ▸ beNat_lt p
  have hpos : 0 < beNat p := by omega
  have hBlt : B < beNat p := Nat.mod_lt _ hpos
  have ht := srpT_spec (rfl : B = _) hBlt
  have hsecret : srpSecret t u x a (beNat p) = S := srpSecret_eq ht.2.2
  have hpublic : bnModExp g.toNat a (beNat p) = srpA g p a := by
    rw [bnModExp, Int.toNat_natCast, srpA]
    push_cast
    rfl
  have hgPadded := bnBn2binSize_256 (hg.trans hp256)
  have hAPadded : bnBn2binSize (bnModExp g.toNat a (beNat p)) 256 = some (pad256 (srpA g p a)) := by
    rw [hpublic]
    exact bnBn2binSize_256 ((Nat.mod_lt _ hpos).trans hp256)
  have hSPadded : bnBn2binSize (srpSecret t u x a (beNat p)) 256 = some (pad256 S) := by
    rw [hsecret]
    exact bnBn2binSize_256 ((Nat.mod_lt _ hpos).trans hp256)
  refine ⟨ht, ⟨hgPadded, hAPadded, hSPadded⟩, hsecret, ?_⟩
  have hBnumber : bnBin2bn (pad256 B) = B := bnBin2bn_pad256 (hBlt.trans hp256)
  have haccepted : ¬ (¬ 0 < bnBin2bn (pad256 B) ∨ ¬ bnBin2bn (pad256 B) < bnBin2bn p ∨
      (pad256 B).length ≠ 256) := by
    rw [hBnumber, bnBin2bn, pad256, length_beBytes]
    have hB' : 0 < B := hB
    omega
  have hcall : tgGetInputCheckPasswordSRP crypto pbkdf2 moves password salt1 salt2 g p (pad256 B) id
      secret = tlMethod moves inputCheckPasswordSRP [.one (.u64 id),
        .one (.buf (pad256 (srpA g p a))),
        .one (.buf (srpM1 crypto pbkdf2 password salt1 salt2 g p a b))] := by
    rw [tgGetInputCheckPasswordSRP, if_neg haccepted, hBnumber, hgPadded, Option.bind_eq_bind,
      Option.bind_some]
    change (bnBn2binSize (bnModExp g.toNat a (beNat p)) 256).bind _ = _
    rw [hAPadded, Option.bind_some]
    change (bnBn2binSize (srpSecret t u x a (beNat p)) 256).bind _ = _
    rw [hSPadded, Option.bind_some]
    rfl
  rw [hcall]
  exact tlInputCheckPasswordSRP_spec moves id _ _
    (length_srpWire_lt id (length_beBytes 256 _) (crypto.length_sha256 _))

end Agreement

/-! ## A login -/

def loginPrime : ℕ := 2 ^ 255 - 19

def loginPassword : Bytes := [115, 101, 99, 114, 101, 116]

def loginSalt1 : Bytes := [1, 2, 3, 4]

def loginSalt2 : Bytes := [5, 6, 7, 8]

/-- The numbers of both sides for the generator 3 and the secrets 2 and 200. -/
def loginX : ℕ := 0x302645121292c4a50ba1210e482b484bc17ffd7a649a3a8018de4c1279540623

def loginV : ℕ := 0x33c22907ad40bbf246d0fde74f47001c0f6f6ce2e27bdb843458c1f72c4ff8bb

def loginK : ℕ := 0xb383813ba228567f09b393d57183a3b22a5f1f5919f4798853e189490f4a8fcd

def loginB : ℕ := 0x3d759a3cd505915828af3b600019b464a0c2bb499e1e9586c2563ca12fabd01e

def loginU : ℕ := 0xd73b168247d1ca5d7bf9a5bca0296d35886abee74f5313b0ab487a3ed20b48a2

def loginS : ℕ := 0x29cb02c8062988e7087ee18a0b9250ac213ce5745edee4fb55cd330e1e42b0de

/-- The hashes of the password on the way to `x`. -/
def loginHash : Bytes := beBytes 32 0xeeb1087a4c8508dcde9455bd2438050fb153d53435717903fb8427134d8a9e9d

def loginDerived : Bytes :=
  [
    0x56714686f7109e730ec356685308c383522fc88b19b30fb6a6613e3a9a911d6a,
    0x64019c8f900bc6fd8d9bccc1a40db8aeaf4e056d94d3d7d05a013e5e207a4b99].flatMap (beBytes 32)

/-- The transcript under the last hash. -/
def loginTranscript : Bytes :=
  [
    0xac5b3c44ae0e90ba5d967d0fe90e9c4fa9e5a9aa3ec6de0916d217ad83b704cc,
    0x9f64a747e1b97f131fabb6b447296c9b6f0201e79fb3c5356e6c77e89b6a806a,
    0x55e5509f8052998294266ee5b50cb592938191fb5d67f73cac2e60b0276b1bdd].flatMap (beBytes 32) ++
    pad256 9 ++ pad256 loginB ++
    beBytes 32 0xda2db37329bc24e220bdf4c18d9dfb5042c790324b6d8d14618857b1ab23b0df

def loginM1 : ℕ := 0xa2d7fd69cab7c40c61f0d60b80212d5b4c76cf989cfcd8b7b45b9dae60162aa6

/-- SHA-256 on the texts that are hashed in this login. -/
def loginSha256 (data : Bytes) : Bytes :=
  beBytes 32 <|
    if data = loginSalt1 ++ loginPassword ++ loginSalt1 then
      0xeeb1087a4c8508dcde9455bd2438050fb153d53435717903fb8427134d8a9e9d
    else if data = loginSalt2 ++ loginHash ++ loginSalt2 then
      0x93d9600b7e9373daab1b8ab24a8f84f3a410329d119f595928d89791f266109e
    else if data = loginSalt2 ++ loginDerived ++ loginSalt2 then loginX
    else if data = pad256 loginPrime ++ pad256 3 then loginK
    else if data = pad256 9 ++ pad256 loginB then loginU
    else if data = pad256 loginS then
      0xda2db37329bc24e220bdf4c18d9dfb5042c790324b6d8d14618857b1ab23b0df
    else if data = pad256 loginPrime then
      0x945a35e3d3c5a8e34b83eee0b8e98b8e5784c0218c9fadd0cbadd06a6229928f
    else if data = pad256 3 then
      0x380109a77dcb3859161593ef51e717c1fe61698bb25973d9dd7fc7c7e19e9643
    else if data = loginSalt1 then
      0x9f64a747e1b97f131fabb6b447296c9b6f0201e79fb3c5356e6c77e89b6a806a
    else if data = loginSalt2 then
      0x55e5509f8052998294266ee5b50cb592938191fb5d67f73cac2e60b0276b1bdd
    else if data = loginTranscript then loginM1
    else 0

/-- PBKDF2 on the input of this login. -/
def loginPbkdf2 (_ _ : Bytes) (_ : ℕ) : Bytes := loginDerived

/-- The hash functions of this login, which uses no cipher. -/
def loginCrypto : Crypto where
  sha1 := fun _ ↦ leBytes 20 0
  sha256 := loginSha256
  igeEncrypt := fun _ _ data ↦ data
  igeDecrypt := fun _ _ data ↦ data
  length_sha1 := fun _ ↦ length_leBytes 20 _
  length_sha256 := fun _ ↦ length_beBytes 32 _
  length_igeEncrypt := fun _ _ _ _ ↦ rfl
  length_igeDecrypt := fun _ _ _ _ ↦ rfl
  igeDecrypt_igeEncrypt := fun _ _ _ _ ↦ rfl
  igeEncrypt_igeDecrypt := fun _ _ _ _ ↦ rfl

/-- A number below the modulus, found by computing with residues. -/
theorem mod_eq_of_zmod {number modulus value : ℕ}
    (h : (number : ZMod modulus) = (value : ZMod modulus)) (hvalue : value < modulus) :
    number % modulus = value := by
  rw [ZMod.natCast_eq_natCast_iff'] at h
  rw [h, Nat.mod_eq_of_lt hvalue]

section Login

/-- The numbers of the login that are no powers. -/
theorem login_numbers :
    beNat (pad256 loginPrime) = loginPrime ∧
      srpX loginCrypto loginPbkdf2 loginPassword loginSalt1 loginSalt2 = loginX ∧
      srpK loginCrypto 3 (pad256 loginPrime) = loginK ∧
      srpA 3 (pad256 loginPrime) 2 = 9 ∧ beNat (pad256 2) = 2 := by
  decide +kernel

theorem srpV_login : srpV loginCrypto loginPbkdf2 loginPassword loginSalt1 loginSalt2 3
    (pad256 loginPrime) = loginV := by
  obtain ⟨hprime, hx, -⟩ := login_numbers
  have hg : (3 : UInt32).toNat = 3 := rfl
  rw [srpV, hx, hprime, hg]
  apply mod_eq_of_zmod _ (by decide)
  rw [Nat.cast_pow]
  unfold loginPrime loginX loginV
  push_cast
  reduce_mod_char

theorem srpB_login : srpB loginCrypto loginPbkdf2 loginPassword loginSalt1 loginSalt2 3
    (pad256 loginPrime) 200 = loginB := by
  obtain ⟨hprime, -, hk, -⟩ := login_numbers
  rw [srpB, srpV_login, hk, hprime]
  decide +kernel

theorem serverSecret_login : serverSecret loginCrypto loginPbkdf2 loginPassword loginSalt1
    loginSalt2 3 (pad256 loginPrime) 2 200 = loginS := by
  obtain ⟨hprime, -, -, hA, -⟩ := login_numbers
  have hu : srpU loginCrypto loginPbkdf2 loginPassword loginSalt1 loginSalt2 3
      (pad256 loginPrime) 2 200 = loginU := by
    rw [srpU, srpB_login, hA]
    decide +kernel
  rw [serverSecret, hA, srpV_login, hu, hprime]
  apply mod_eq_of_zmod _ (by decide)
  rw [Nat.cast_pow, Nat.cast_mul, Nat.cast_pow]
  unfold loginPrime loginU loginV loginS
  push_cast
  reduce_mod_char

theorem srpM1_login : srpM1 loginCrypto loginPbkdf2 loginPassword loginSalt1 loginSalt2 3
    (pad256 loginPrime) 2 200 = beBytes 32 loginM1 := by
  obtain ⟨-, -, -, hA, -⟩ := login_numbers
  rw [srpM1, hA, srpB_login, serverSecret_login]
  decide +kernel

/-- A login in which `B` is below `k * v` and every number has leading zero bytes. -/
theorem tgGetInputCheckPasswordSRP_login :
    ∃ buf, tgGetInputCheckPasswordSRP loginCrypto loginPbkdf2 (fun _ ↦ true) loginPassword
        loginSalt1 loginSalt2 3 (pad256 loginPrime) (pad256 loginB) 7 (pad256 2) = some buf ∧
      Holds buf (srpWire 7 (pad256 9) (beBytes 32 loginM1)) := by
  obtain ⟨hprime, -, -, hA, hsecret⟩ := login_numbers
  have hlength : (pad256 loginPrime).length = 256 := length_beBytes 256 _
  have hg : (3 : UInt32).toNat < beNat (pad256 loginPrime) := by
    rw [hprime]
    decide
  have hB : 0 < srpB loginCrypto loginPbkdf2 loginPassword loginSalt1 loginSalt2 3
      (pad256 loginPrime) 200 := by
    rw [srpB_login]
    decide
  have h := (tgGetInputCheckPasswordSRP_agrees loginCrypto loginPbkdf2 loginPassword loginSalt1
    loginSalt2 3 (pad256 loginPrime) 200 (fun _ ↦ true) 7 (pad256 2) hlength hg hB).2.2.2
  rwa [hsecret, srpB_login, hA, srpM1_login] at h

end Login

end LibTg.Tg
