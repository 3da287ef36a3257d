import LibTg.Tl.BufRun
import Mathlib.Data.List.TakeWhile

/-!
# Base64 (`tl/base64.h`)

The encoder turns three bytes into four characters, the last group with zeros for what is missing, and
then overwrites the characters for these zeros by `=`. The decoder reads `=` as zero bits and drops as
many bytes as there are `=` in the last two places. File references are stored in this form.

A character is an index into `decoding_table`. Only the entries of the alphabet have been assigned, and
reading another one has no result.
-/

namespace LibTg.Tl

def encodingTable : List Char :=
  "ABCDEFGHIJKLMNOPQRSTUVWXYZabcdefghijklmnopqrstuvwxyz0123456789+/".toList

/-- `mod_table[length % 3]`. -/
def modTable (length : ℕ) : ℕ := [0, 2, 1].getD (length % 3) 0

/-- `decoding_table`, as far as `build_decoding_table` assigns it. -/
def decodingTable (c : Char) : Option UInt32 :=
  if c ∈ encodingTable then some (UInt32.ofNat (encodingTable.idxOf c)) else none

/-! ## The encoder -/

/-- `(octet_a << 0x10) + (octet_b << 0x08) + octet_c`. -/
def tripleOfOctets (a b c : UInt8) : UInt32 :=
  (a.toUInt32 <<< 16) + (b.toUInt32 <<< 8) + c.toUInt32

/-- `encoding_table[(triple >> shift) & 0x3F]`. -/
def encodeSextet (triple shift : UInt32) : Char :=
  encodingTable.getD ((triple >>> shift) &&& 0x3f).toNat '='

/-- The four characters for a triple. -/
def encodeTriple (triple : UInt32) : List Char :=
  [encodeSextet triple 18, encodeSextet triple 12, encodeSextet triple 6, encodeSextet triple 0]

/-- The loop of `base64_encode`. -/
def encodeLoop : Bytes → List Char
  | [] => []
  | [a] => encodeTriple (tripleOfOctets a 0 0)
  | [a, b] => encodeTriple (tripleOfOctets a b 0)
  | a :: b :: c :: rest => encodeTriple (tripleOfOctets a b c) ++ encodeLoop rest

/-- `*output_length` of `base64_encode`. -/
def encodedLength (length : ℕ) : ℕ := 4 * ((length + 2) / 3)

/-- The loop that writes `=` from the end on. -/
def padLoop (length : ℕ) (encoded : List Char) : List Char :=
  (List.range (modTable length)).foldl
    (fun text index ↦ text.set (encodedLength length - 1 - index) '=') encoded

/-- `base64_encode`. Its indices are `int`s. -/
def base64Encode (data : Bytes) : Option (List Char) :=
  if encodedLength data.length < 2 ^ 31 then some (padLoop data.length (encodeLoop data)) else none

/-! ## The decoder -/

/-- `data[i] == '=' ? 0 & i++ : decoding_table[data[i++]]`. -/
def decodeSextet (c : Char) : Option UInt32 := if c = '=' then some 0 else decodingTable c

/-- `(triple >> shift) & 0xFF`. -/
def octet (triple shift : UInt32) : UInt8 := ((triple >>> shift) &&& 0xff).toUInt8

/-- The three bytes of a triple. -/
def octetsOfTriple (triple : UInt32) : Bytes := [octet triple 16, octet triple 8, octet triple 0]

/-- The loop of `base64_decode`, where `j` bytes have been written and no more than `outputLength`
will be. -/
def decodeLoop (outputLength : ℕ) : ℕ → List Char → Option Bytes
  | j, a :: b :: c :: d :: rest => do
    let sextetA ← decodeSextet a
    let sextetB ← decodeSextet b
    let sextetC ← decodeSextet c
    let sextetD ← decodeSextet d
    let triple := (sextetA <<< 18) + (sextetB <<< 12) + (sextetC <<< 6) + sextetD
    let written := (octetsOfTriple triple).take (outputLength - j)
    let later ← decodeLoop outputLength (j + written.length) rest
    some (written ++ later)
  | _, _ => some []

/-- `*output_length` of `base64_decode`. The last characters of an empty string are not there. -/
def decodedLength (text : List Char) : Option ℕ := do
  let last ← if text = [] then none else text[text.length - 1]?
  let other ← text[text.length - 2]?
  some (text.length / 4 * 3 - (if last = '=' then 1 else 0) - (if other = '=' then 1 else 0))

/-- `base64_decode`. The inner `none` stands for `NULL`. -/
def base64Decode (text : List Char) : Option (Option Bytes) :=
  if 2 ^ 31 ≤ text.length then none
  else if text.length % 4 ≠ 0 then some none
  else do
    let outputLength ← decodedLength text
    let decoded ← decodeLoop outputLength 0 text
    some (some decoded)

/-! ## Buffers -/

def strndup (text : List Char) (length : ℕ) : List Char :=
  (text.take length).takeWhile fun c ↦ c ≠ '\x00'

/-- `buf_to_base64`. The inner `none` stands for `NULL`. -/
def bufToBase64 (buf : Buf) : Option (Option (List Char)) :=
  if buf.size < 1 then some none
  else (base64Encode buf.bytes).map fun encoded ↦
    some (strndup encoded (encodedLength buf.bytes.length))

def bufFromBase64 (moves : ℕ → Bool) (text : Option (List Char)) : Option Buf :=
  match text with
  | none => some bufNew
  | some text => do
    match ← base64Decode (text.takeWhile fun c ↦ c ≠ '\x00') with
    | none => some bufNew
    | some data => bufCatData moves bufNew data

/-! ## The promise -/

/-- A text that encodes so many bytes. -/
structure Base64Text (length : ℕ) (text : List Char) : Prop where
  length_eq : text.length = 4 * ((length + 2) / 3)
  padded : ∃ body, text = body ++ List.replicate ((3 - length % 3) % 3) '=' ∧
    ∀ c ∈ body, c ∈ encodingTable
  noNul : '\x00' ∉ text

/-! ## One group -/

theorem toNat_tripleOfOctets (a b c : UInt8) :
    (tripleOfOctets a b c).toNat = a.toNat * 2 ^ 16 + b.toNat * 2 ^ 8 + c.toNat := by
  have ha := a.toNat_lt
  have hb := b.toNat_lt
  have hc := c.toNat_lt
  simp only [tripleOfOctets, UInt32.toNat_add, UInt32.toNat_shiftLeft, UInt8.toNat_toUInt32,
    Nat.shiftLeft_eq, UInt32.reduceToNat, Nat.reduceMod, Nat.reducePow]
  omega

theorem tripleOfOctets_lt (a b c : UInt8) : (tripleOfOctets a b c).toNat < 2 ^ 24 := by
  have ha := a.toNat_lt
  have hb := b.toNat_lt
  have hc := c.toNat_lt
  rw [toNat_tripleOfOctets]
  omega

/-- Six bits of a triple. -/
theorem toNat_sextet (triple shift : UInt32) :
    ((triple >>> shift) &&& 0x3f).toNat = triple.toNat / 2 ^ (shift.toNat % 32) % 64 := by
  rw [UInt32.toNat_and, UInt32.toNat_shiftRight, Nat.shiftRight_eq_div_pow]
  exact Nat.and_two_pow_sub_one_eq_mod _ 6

/-- Eight bits of a triple. -/
theorem toNat_octet (triple shift : UInt32) :
    (octet triple shift).toNat = triple.toNat / 2 ^ (shift.toNat % 32) % 256 := by
  have hmask (value : ℕ) : value &&& 255 = value % 256 := Nat.and_two_pow_sub_one_eq_mod value 8
  rw [octet, UInt32.toNat_toUInt8, UInt32.toNat_and, UInt32.toNat_shiftRight,
    Nat.shiftRight_eq_div_pow]
  change (_ &&& 255) % 2 ^ 8 = _
  rw [hmask]
  exact Nat.mod_mod _ _

theorem octetsOfTriple_tripleOfOctets (a b c : UInt8) :
    octetsOfTriple (tripleOfOctets a b c) = [a, b, c] := by
  have ha := a.toNat_lt
  have hb := b.toNat_lt
  have hc := c.toNat_lt
  have htriple := toNat_tripleOfOctets a b c
  have hfirst : octet (tripleOfOctets a b c) 16 = a := by
    apply UInt8.toNat_inj.mp
    rw [toNat_octet, htriple]
    simp only [UInt32.reduceToNat, Nat.reduceMod, Nat.reducePow]
    omega
  have hsecond : octet (tripleOfOctets a b c) 8 = b := by
    apply UInt8.toNat_inj.mp
    rw [toNat_octet, htriple]
    simp only [UInt32.reduceToNat, Nat.reduceMod, Nat.reducePow]
    omega
  have hthird : octet (tripleOfOctets a b c) 0 = c := by
    apply UInt8.toNat_inj.mp
    rw [toNat_octet, htriple]
    simp only [UInt32.reduceToNat, Nat.reduceMod, Nat.reducePow]
    omega
  rw [octetsOfTriple, hfirst, hsecond, hthird]

theorem decodeSextet_encodeSextet (triple shift : UInt32) :
    decodeSextet (encodeSextet triple shift) = some ((triple >>> shift) &&& 0x3f) := by
  have htable : ∀ index : Fin 64,
      decodeSextet (encodingTable.getD index '=') = some (UInt32.ofNat index) := by decide +kernel
  have hlt : ((triple >>> shift) &&& 0x3f).toNat < 64 := by
    rw [toNat_sextet]
    exact Nat.mod_lt _ (by decide)
  rw [encodeSextet, htable ⟨_, hlt⟩, UInt32.ofNat_toNat]

theorem encodeSextet_mem (triple shift : UInt32) : encodeSextet triple shift ∈ encodingTable := by
  have htable : ∀ index : Fin 64, encodingTable.getD index '=' ∈ encodingTable := by decide +kernel
  have hlt : ((triple >>> shift) &&& 0x3f).toNat < 64 := by
    rw [toNat_sextet]
    exact Nat.mod_lt _ (by decide)
  exact htable ⟨_, hlt⟩

/-- The four groups of six bits make up the triple again. -/
theorem triple_of_sextets {triple : UInt32} (hlt : triple.toNat < 2 ^ 24) :
    (((triple >>> 18) &&& 0x3f) <<< 18) + (((triple >>> 12) &&& 0x3f) <<< 12) +
      (((triple >>> 6) &&& 0x3f) <<< 6) + ((triple >>> 0) &&& 0x3f) = triple := by
  apply UInt32.toNat_inj.mp
  simp only [UInt32.toNat_add, UInt32.toNat_shiftLeft, toNat_sextet, Nat.shiftLeft_eq,
    UInt32.reduceToNat, Nat.reduceMod, Nat.reducePow]
  omega

/-! ## The text -/

/-- What `base64_encode` returns: the last group has `=` for the bytes that are missing. -/
def paddedText : Bytes → List Char
  | [] => []
  | [a] => (encodeTriple (tripleOfOctets a 0 0)).take 2 ++ ['=', '=']
  | [a, b] => (encodeTriple (tripleOfOctets a b 0)).take 3 ++ ['=']
  | a :: b :: c :: rest => encodeTriple (tripleOfOctets a b c) ++ paddedText rest

/-- `mod_table` has what is missing to a multiple of three. -/
theorem modTable_eq (length : ℕ) : modTable length = (3 - length % 3) % 3 := by
  have htable : ∀ rest < 3, [0, 2, 1].getD rest 0 = (3 - rest) % 3 := by decide
  exact htable _ (Nat.mod_lt length (by decide))

theorem modTable_le (length : ℕ) : modTable length ≤ encodedLength length := by
  rw [modTable_eq, encodedLength]
  omega

theorem length_encodeLoop (data : Bytes) : (encodeLoop data).length = encodedLength data.length := by
  induction data using encodeLoop.induct with
  | case1 => rfl
  | case2 a => simp [encodeLoop, encodeTriple, encodedLength]
  | case3 a b => simp [encodeLoop, encodeTriple, encodedLength]
  | case4 a b c rest ih =>
    rw [encodeLoop, List.length_append, ih, encodedLength, encodedLength]
    simp only [encodeTriple, List.length_cons, List.length_nil]
    omega

/-- The first group stays as it is. -/
theorem padLoop_append {group text : List Char} {length : ℕ} (hgroup : group.length = 4) :
    padLoop (length + 3) (group ++ text) = group ++ padLoop length text := by
  have hmod : modTable (length + 3) = modTable length := by
    rw [modTable, modTable, Nat.add_mod_right]
  have hindices : ∀ (indices : List ℕ) (text : List Char), (∀ index ∈ indices, index < modTable length) →
      indices.foldl (fun text index ↦ text.set (encodedLength (length + 3) - 1 - index) '=')
          (group ++ text) =
        group ++ indices.foldl (fun text index ↦ text.set (encodedLength length - 1 - index) '=')
          text := by
    intro indices
    induction indices with
    | nil => exact fun _ _ ↦ rfl
    | cons index rest ih =>
      intro text hlt
      rw [List.forall_mem_cons] at hlt
      have hindex : encodedLength (length + 3) - 1 - index =
          group.length + (encodedLength length - 1 - index) := by
        have hmissing : index + 1 ≤ encodedLength length := by
          exact Nat.le_trans hlt.1 (modTable_le length)
        unfold encodedLength at hmissing ⊢
        omega
      rw [List.foldl_cons, List.foldl_cons, hindex, List.set_append_right _ _ (Nat.le_add_right _ _),
        Nat.add_sub_cancel_left, ih _ hlt.2]
  rw [padLoop, hmod]
  exact hindices _ _ fun index hmem ↦ List.mem_range.mp hmem

theorem padLoop_one (text : List Char) : padLoop 1 text = (text.set 3 '=').set 2 '=' := rfl

theorem padLoop_two (text : List Char) : padLoop 2 text = text.set 3 '=' := rfl

theorem padLoop_encodeLoop (data : Bytes) :
    padLoop data.length (encodeLoop data) = paddedText data := by
  induction data using encodeLoop.induct with
  | case1 => rfl
  | case2 a =>
    rw [encodeLoop, paddedText, List.length_singleton, padLoop_one]
    rfl
  | case3 a b =>
    rw [encodeLoop, paddedText, List.length_cons, List.length_singleton, padLoop_two]
    rfl
  | case4 a b c rest ih =>
    rw [encodeLoop, paddedText, ← ih]
    exact padLoop_append rfl

theorem encodeTriple_mem (triple : UInt32) : ∀ c ∈ encodeTriple triple, c ∈ encodingTable := by
  intro c hc
  simp only [encodeTriple, List.mem_cons, List.not_mem_nil, or_false] at hc
  rcases hc with rfl | rfl | rfl | rfl <;> exact encodeSextet_mem _ _

/-- The alphabet, and as many `=` as bytes are missing. -/
theorem paddedText_eq (data : Bytes) :
    ∃ body, paddedText data = body ++ List.replicate ((3 - data.length % 3) % 3) '=' ∧
      ∀ c ∈ body, c ∈ encodingTable := by
  induction data using encodeLoop.induct with
  | case1 => exact ⟨[], rfl, nofun⟩
  | case2 a =>
    exact ⟨_, by rw [paddedText]; rfl, fun c hc ↦ encodeTriple_mem _ c (List.mem_of_mem_take hc)⟩
  | case3 a b =>
    exact ⟨_, by rw [paddedText]; rfl, fun c hc ↦ encodeTriple_mem _ c (List.mem_of_mem_take hc)⟩
  | case4 a b c rest ih =>
    obtain ⟨body, hbody, hmem⟩ := ih
    have hmod : (a :: b :: c :: rest).length % 3 = rest.length % 3 := by
      rw [List.length_cons, List.length_cons, List.length_cons]
      omega
    refine ⟨encodeTriple (tripleOfOctets a b c) ++ body, ?_, ?_⟩
    · rw [paddedText, hbody, hmod, List.append_assoc]
    · exact List.forall_mem_append.mpr ⟨encodeTriple_mem _, hmem⟩

theorem length_paddedText (data : Bytes) : (paddedText data).length = encodedLength data.length := by
  rw [← padLoop_encodeLoop, padLoop]
  have hkeep : ∀ (indices : List ℕ) (text : List Char),
      (indices.foldl (fun text index ↦ text.set (encodedLength data.length - 1 - index) '=')
        text).length = text.length := by
    intro indices
    induction indices with
    | nil => exact fun _ ↦ rfl
    | cons index rest ih =>
      intro text
      rw [List.foldl_cons, ih, List.length_set]
  rw [hkeep, length_encodeLoop]

theorem paddedText_noNul (data : Bytes) : '\x00' ∉ paddedText data := by
  obtain ⟨body, hbody, hmem⟩ := paddedText_eq data
  rw [hbody, List.mem_append, not_or]
  constructor
  · intro hnul
    exact absurd (hmem _ hnul) (by decide)
  · intro hnul
    exact absurd (List.eq_of_mem_replicate hnul) (by decide)

/-! ## Reading it back -/

/-- The loop reads one group. -/
theorem decodeLoop_group {a b c d : Char} {sextetA sextetB sextetC sextetD triple : UInt32}
    (ha : decodeSextet a = some sextetA) (hb : decodeSextet b = some sextetB)
    (hc : decodeSextet c = some sextetC) (hd : decodeSextet d = some sextetD)
    (htriple : (sextetA <<< 18) + (sextetB <<< 12) + (sextetC <<< 6) + sextetD = triple)
    (outputLength j : ℕ) (rest : List Char) :
    decodeLoop outputLength j (a :: b :: c :: d :: rest) =
      (decodeLoop outputLength (j + ((octetsOfTriple triple).take (outputLength - j)).length)
        rest).map fun later ↦ (octetsOfTriple triple).take (outputLength - j) ++ later := by
  rw [decodeLoop, ha, hb, hc, hd]
  simp only [Option.bind_eq_bind, Option.bind_some, htriple]
  cases decodeLoop outputLength _ rest <;> rfl

theorem decodeSextet_equals : decodeSextet '=' = some 0 := if_pos rfl

/-- The bits for which `=` stands are zero: those behind a last byte. -/
theorem sextet_of_oneByte (a : UInt8) :
    ((tripleOfOctets a 0 0) >>> 6) &&& 0x3f = 0 ∧ ((tripleOfOctets a 0 0) >>> 0) &&& 0x3f = 0 := by
  have htriple := toNat_tripleOfOctets a 0 0
  constructor
  · apply UInt32.toNat_inj.mp
    rw [toNat_sextet, htriple]
    simp only [UInt32.reduceToNat, UInt8.reduceToNat, Nat.reduceMod, Nat.reducePow]
    omega
  · apply UInt32.toNat_inj.mp
    rw [toNat_sextet, htriple]
    simp only [UInt32.reduceToNat, UInt8.reduceToNat, Nat.reduceMod, Nat.reducePow]
    omega

/-- Those behind two last bytes. -/
theorem sextet_of_twoBytes (a b : UInt8) : ((tripleOfOctets a b 0) >>> 0) &&& 0x3f = 0 := by
  apply UInt32.toNat_inj.mp
  rw [toNat_sextet, toNat_tripleOfOctets]
  simp only [UInt32.reduceToNat, UInt8.reduceToNat, Nat.reduceMod, Nat.reducePow]
  omega

/-- The loop gives the bytes back, as many as are asked for. -/
theorem decodeLoop_paddedText (data : Bytes) (j : ℕ) :
    decodeLoop (j + data.length) j (paddedText data) = some data := by
  induction data using encodeLoop.induct generalizing j with
  | case1 => rfl
  | case2 a =>
    have hsextets := triple_of_sextets (tripleOfOctets_lt a 0 0)
    rw [(sextet_of_oneByte a).1, (sextet_of_oneByte a).2] at hsextets
    have hgroup := decodeLoop_group (decodeSextet_encodeSextet (tripleOfOctets a 0 0) 18)
      (decodeSextet_encodeSextet _ 12) decodeSextet_equals decodeSextet_equals
      hsextets (j + 1) j []
    rw [octetsOfTriple_tripleOfOctets, Nat.add_sub_cancel_left] at hgroup
    rw [paddedText]
    exact hgroup
  | case3 a b =>
    have hsextets := triple_of_sextets (tripleOfOctets_lt a b 0)
    rw [sextet_of_twoBytes a b] at hsextets
    have hgroup := decodeLoop_group (decodeSextet_encodeSextet (tripleOfOctets a b 0) 18)
      (decodeSextet_encodeSextet _ 12) (decodeSextet_encodeSextet _ 6) decodeSextet_equals
      hsextets (j + 2) j []
    rw [octetsOfTriple_tripleOfOctets, Nat.add_sub_cancel_left] at hgroup
    rw [paddedText]
    exact hgroup
  | case4 a b c rest ih =>
    have hgroup := decodeLoop_group (decodeSextet_encodeSextet (tripleOfOctets a b c) 18)
      (decodeSextet_encodeSextet _ 12) (decodeSextet_encodeSextet _ 6)
      (decodeSextet_encodeSextet _ 0) (triple_of_sextets (tripleOfOctets_lt a b c))
      (j + (a :: b :: c :: rest).length) j (paddedText rest)
    have htake : [a, b, c].take (j + (a :: b :: c :: rest).length - j) = [a, b, c] := by
      apply List.take_of_length_le
      rw [Nat.add_sub_cancel_left]
      simp
    have hlength : j + (a :: b :: c :: rest).length = j + [a, b, c].length + rest.length := by
      simp only [List.length_cons, List.length_nil]
      omega
    rw [octetsOfTriple_tripleOfOctets, htake] at hgroup
    rw [paddedText]
    refine hgroup.trans ?_
    rw [hlength, ih, Option.map_some]
    rfl

/-- The last two characters. -/
theorem getElem?_last (front : List Char) (other last : Char) :
    (front ++ [other, last])[(front ++ [other, last]).length - 1]? = some last ∧
      (front ++ [other, last])[(front ++ [other, last]).length - 2]? = some other := by
  have hlast : (front ++ [other, last]).length - 1 = front.length + 1 := by simp
  have hother : (front ++ [other, last]).length - 2 = front.length := by simp
  rw [hlast, hother, List.getElem?_append_right (Nat.le_add_right _ 1),
    List.getElem?_append_right le_rfl, Nat.add_sub_cancel_left, Nat.sub_self]
  exact ⟨rfl, rfl⟩

theorem decodedLength_append (front : List Char) (other last : Char) :
    decodedLength (front ++ [other, last]) =
      some ((front ++ [other, last]).length / 4 * 3 - (if last = '=' then 1 else 0) -
        (if other = '=' then 1 else 0)) := by
  obtain ⟨hlast, hother⟩ := getElem?_last front other last
  have hne : front ++ [other, last] ≠ [] := List.append_ne_nil_of_right_ne_nil _ (List.cons_ne_nil _ _)
  rw [decodedLength, if_neg hne, hlast, hother]
  rfl

/-- A text ends with its last group. -/
theorem paddedText_last {data : Bytes} (hne : data ≠ []) :
    ∃ front other last, paddedText data = front ++ [other, last] ∧
      ((if last = '=' then 1 else 0) + (if other = '=' then 1 else 0)) = (3 - data.length % 3) % 3 := by
  have hsextet (triple shift : UInt32) : encodeSextet triple shift ≠ '=' := by
    intro heq
    have hmem := encodeSextet_mem triple shift
    rw [heq] at hmem
    exact absurd hmem (by decide)
  induction data using encodeLoop.induct with
  | case1 => exact absurd rfl hne
  | case2 a =>
    refine ⟨_, '=', '=', by rw [paddedText], ?_⟩
    rw [if_pos rfl]
    rfl
  | case3 a b =>
    refine ⟨(encodeTriple (tripleOfOctets a b 0)).take 2, encodeSextet (tripleOfOctets a b 0) 6, '=',
      by rw [paddedText]; rfl, ?_⟩
    rw [if_pos rfl, if_neg (hsextet _ _)]
    rfl
  | case4 a b c rest ih =>
    have hmod : (a :: b :: c :: rest).length % 3 = rest.length % 3 := by
      rw [List.length_cons, List.length_cons, List.length_cons]
      omega
    rw [paddedText, hmod]
    by_cases hrest : rest = []
    · refine ⟨(encodeTriple (tripleOfOctets a b c)).take 2, encodeSextet (tripleOfOctets a b c) 6,
        encodeSextet (tripleOfOctets a b c) 0, ?_, ?_⟩
      · rw [hrest, paddedText, List.append_nil]
        rfl
      · rw [if_neg (hsextet _ _), if_neg (hsextet _ _), hrest]
        rfl
    · obtain ⟨front, other, last, htext, hcount⟩ := ih hrest
      exact ⟨encodeTriple (tripleOfOctets a b c) ++ front, other, last,
        by rw [htext, List.append_assoc], hcount⟩

theorem decodedLength_paddedText {data : Bytes} (hne : data ≠ []) :
    decodedLength (paddedText data) = some data.length := by
  obtain ⟨front, other, last, htext, hcount⟩ := paddedText_last hne
  have hlength := length_paddedText data
  have hpositive := List.length_pos_iff.mpr hne
  rw [htext] at hlength ⊢
  rw [decodedLength_append, hlength, encodedLength]
  congr 1
  omega

theorem base64Decode_paddedText {data : Bytes} (hne : data ≠ []) (hlt : data.length < 2 ^ 29) :
    base64Decode (paddedText data) = some (some data) := by
  have hlength := length_paddedText data
  rw [encodedLength] at hlength
  have hloop := decodeLoop_paddedText data 0
  rw [Nat.zero_add] at hloop
  rw [base64Decode, if_neg (by omega), if_neg (by omega), decodedLength_paddedText hne]
  simp only [Option.bind_eq_bind, Option.bind_some, hloop]

/-! ## There and back -/

/-- What `buf_to_base64` and `buf_from_base64` do with the contents of a buffer, and with none. -/
structure Base64RoundTrip (moves : ℕ → Bool) (buf : Buf) (data : Bytes) : Prop where
  encoded : data ≠ [] → ∃ text, bufToBase64 buf = some (some text) ∧ Base64Text data.length text ∧
    ∃ result, bufFromBase64 moves (some text) = some result ∧ Represents result data
  empty : data = [] → bufToBase64 buf = some none ∧
    ∃ result, bufFromBase64 moves none = some result ∧ Represents result []

/-- The text of a buffer is well formed, and the buffer that is made of it has the same contents. -/
theorem base64_roundTrip (moves : ℕ → Bool) {buf : Buf} {data : Bytes} (hbuf : Represents buf data)
    (hlt : data.length < 2 ^ 29) : Base64RoundTrip moves buf data where
  encoded hne := by
    have hpositive := List.length_pos_iff.mpr hne
    have hlength := length_paddedText data
    have hnul (text : List Char) (hnone : '\x00' ∉ text) :
        text.takeWhile (fun c ↦ c ≠ '\x00') = text := by
      rw [List.takeWhile_eq_self_iff]
      exact fun c hc ↦ decide_eq_true fun heq ↦ hnone (heq ▸ hc)
    have htext : bufToBase64 buf = some (some (paddedText data)) := by
      have hsize := hbuf.size_eq
      have hfits : encodedLength data.length < 2 ^ 31 := by
        rw [encodedLength]
        omega
      rw [bufToBase64, if_neg (by omega), hbuf.bytes, base64Encode, if_pos hfits,
        padLoop_encodeLoop, Option.map_some, strndup, ← hlength, List.take_length,
        hnul _ (paddedText_noNul data)]
    obtain ⟨result, hresult, hrepresents⟩ :=
      bufCatData_represents moves represents_bufNew data (by rw [List.length_nil]; omega)
    refine ⟨_, htext, ⟨hlength, paddedText_eq data, paddedText_noNul data⟩, result, ?_, hrepresents⟩
    rw [bufFromBase64, hnul _ (paddedText_noNul data), base64Decode_paddedText hne hlt]
    exact hresult
  empty hnil := by
    have hsize := hbuf.size_eq
    rw [hnil, List.length_nil] at hsize
    refine ⟨?_, bufNew, rfl, represents_bufNew⟩
    rw [bufToBase64, if_pos (by omega)]

/-- Two bytes, for which one `=` is written. -/
theorem twoBytes_base64 :
    ∃ buf, Base64RoundTrip (fun _ ↦ true) buf [0xff, 0x00] := by
  obtain ⟨buf, -, hbuf⟩ := bufAdd_represents (fun _ ↦ true) [0xff, 0x00] (by decide)
  exact ⟨buf, base64_roundTrip (fun _ ↦ true) hbuf (by decide)⟩

end LibTg.Tl
