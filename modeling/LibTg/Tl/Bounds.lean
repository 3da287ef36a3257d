import LibTg.Data.Checked
import LibTg.Tl.Access
import LibTg.Tl.Parser

/-!
# Which buffers are decoded inside their bounds

The decoders never look at the remaining size. They stay inside a buffer exactly if it begins with a
complete object, and return what the parser returns then: each decoder follows the parser of the same
part, from every position of the buffer.
-/

namespace LibTg.Tl

section Positions

variable (data slack : Bytes) (base : ℕ)

/-- A decoder and a parser have the same value and stand at the same position, from `base` on. -/
def SamePlace {Value : Type} (result : Value × Cursor) (parsed : Value × Bytes) : Prop :=
  result.1 = parsed.1 ∧ ∃ next, base ≤ next ∧ next ≤ data.length ∧
    result.2 = cursorAt data slack next ∧ parsed.2 = data.drop next

/-- The statements for an argument and the parser of the argument go on or end alike. -/
def SameFlow : Flow → Part → Prop
  | .next field cursor, .next parsed rest =>
    SamePlace data slack base (field, cursor) (parsed, rest)
  | .stop field cursor, .stop parsed rest =>
    SamePlace data slack base (field, cursor) (parsed, rest)
  | _, _ => False

end Positions

section Leaves

variable {model : DataModel} {data slack : Bytes} {base pos : ℕ}

theorem SamePlace.intro {Value : Type} {value : Value} (hbase : base ≤ pos)
    (hpos : pos ≤ data.length) :
    SamePlace data slack base (value, cursorAt data slack pos) (value, data.drop pos) :=
  ⟨rfl, pos, hbase, hpos, rfl, rfl⟩

theorem SamePlace.map {Value Value' : Type} {result : Value × Cursor} {parsed : Value × Bytes}
    (h : SamePlace data slack base result parsed) (pack : Value → Value') :
    SamePlace data slack base (Prod.map pack id result) (Prod.map pack id parsed) :=
  ⟨congrArg pack h.1, h.2⟩

theorem SamePlace.mono {Value : Type} {result : Value × Cursor} {parsed : Value × Bytes}
    {lower : ℕ} (h : SamePlace data slack base result parsed) (hlower : lower ≤ base) :
    SamePlace data slack lower result parsed := by
  obtain ⟨hvalue, next, hbase, hrest⟩ := h
  exact ⟨hvalue, next, hlower.trans hbase, hrest⟩

theorem takeBytes_drop {count : ℕ} (hpos : pos ≤ data.length) :
    takeBytes count (data.drop pos) =
      if pos + count ≤ data.length then
        some ((data.drop pos).take count, data.drop (pos + count))
      else none := by
  rw [takeBytes, List.length_drop, List.drop_drop]
  exact if_congr (by omega) rfl rfl

theorem inStep_cursorAt (hpos : pos ≤ data.length) (hfits : data.length + 1 < 2 ^ 32) :
    (cursorAt data slack pos).InStep data.length := by
  rw [Cursor.InStep, toNat_size_cursorAt hfits]
  have hoff : (cursorAt data slack pos).off = pos := rfl
  omega

/-- An access that reads past the end. -/
theorem not_inside_of_lt {count : ℕ} {after : Cursor} {purpose : Purpose}
    (hread : data.length < pos + count) :
    ¬ Access.Inside data.length ⟨cursorAt data slack pos, count, after, purpose⟩ := by
  rintro ⟨-, hle, -⟩
  have hle' : (pos : ℤ) + count ≤ data.length := hle
  omega

variable (hfits : data.length + 1 < 2 ^ 32)

include hfits

/-- An access that does not read past the end and leaves the cursor at a later position. -/
theorem inside_of_le {count next : ℕ} {purpose : Purpose} (hread : pos + count ≤ data.length)
    (hle : pos ≤ next) (hnext : next ≤ data.length) :
    Access.Inside data.length
      ⟨cursorAt data slack pos, count, cursorAt data slack next, purpose⟩ := by
  have hpos : pos ≤ data.length := by omega
  refine ⟨inStep_cursorAt hpos hfits, ?_, inStep_cursorAt hnext hfits, ?_⟩
  · change (pos : ℤ) + count ≤ data.length
    omega
  · rw [toNat_size_cursorAt hfits, toNat_size_cursorAt hfits]
    omega

/-- An access that moves the cursor by what it has read. -/
theorem inside_advance_iff {count : ℕ} {purpose : Purpose} :
    Access.Inside data.length
        ⟨cursorAt data slack pos, count, (cursorAt data slack pos).advance model count, purpose⟩ ↔
      pos + count ≤ data.length := by
  constructor
  · intro hinside
    by_contra hlt
    exact not_inside_of_lt (not_le.mp hlt) hinside
  · intro hle
    rw [advance_cursorAt count hle hfits]
    exact inside_of_le hfits hle (Nat.le_add_right pos count) hle

/-- An access that leaves the cursor where it is. -/
theorem inside_copy_iff {count : ℕ} {purpose : Purpose} :
    Access.Inside data.length
        ⟨cursorAt data slack pos, count, cursorAt data slack pos, purpose⟩ ↔
      pos + count ≤ data.length := by
  constructor
  · intro hinside
    by_contra hlt
    exact not_inside_of_lt (not_le.mp hlt) hinside
  · intro hle
    exact inside_of_le hfits hle le_rfl (by omega)

/-- An access that only moves the cursor. -/
theorem inside_skip_iff {count : ℕ} (hpos : pos ≤ data.length) (hcount : count < 2 ^ 32) :
    (accessSkip model (cursorAt data slack pos) count).Inside data.length ↔
      pos + count ≤ data.length := by
  constructor
  · rintro ⟨-, -, -, hsize⟩
    rw [accessSkip, Cursor.advance] at hsize
    simp only [UInt32.toNat_sub, toNat_size_cursorAt hfits, ui32_ofInt_natCast,
      UInt32.toNat_ofNat'] at hsize
    omega
  · intro hle
    rw [accessSkip, advance_cursorAt count hle hfits]
    exact inside_of_le hfits hpos (Nat.le_add_right pos count) hle

/-- A deserializer of `count` bytes follows the parser that takes as many. -/
theorem follows_fixed {Value : Type} {count : ℕ} {result : Option (Value × Cursor)}
    {value : Bytes → Value} {purpose : Purpose} (hpos : pos ≤ data.length)
    (hbase : base ≤ pos + count)
    (hresult : pos + count ≤ data.length → result =
      some (value ((data.drop pos).take count), cursorAt data slack (pos + count))) :
    Follows (Access.Inside data.length) (SamePlace data slack base)
      [⟨cursorAt data slack pos, count, (cursorAt data slack pos).advance model count, purpose⟩]
      result ((takeBytes count (data.drop pos)).map (Prod.map value id)) := by
  apply Follows.access
  · rw [inside_advance_iff hfits, takeBytes_drop hpos, Option.isSome_map]
    split <;> simp_all
  · intro parsed hparsed
    rw [takeBytes_drop hpos] at hparsed
    split at hparsed
    case isTrue hle =>
      cases hparsed
      exact ⟨_, hresult hle, SamePlace.intro hbase hle⟩
    case isFalse => cases hparsed

theorem follows_ui32 (hpos : pos ≤ data.length) (hbase : base ≤ pos + 4) :
    Follows (Access.Inside data.length) (SamePlace data slack base)
      (accessesUi32 model (cursorAt data slack pos))
      (deserializeUi32 model (cursorAt data slack pos)) (parseUi32 (data.drop pos)) :=
  follows_fixed hfits hpos hbase fun hle ↦ deserializeUi32_at hle hfits

theorem follows_ui64 (hpos : pos ≤ data.length) (hbase : base ≤ pos) :
    Follows (Access.Inside data.length) (SamePlace data slack base)
      (accessesUi64 model (cursorAt data slack pos))
      (deserializeUi64 model (cursorAt data slack pos)) (parseUi64 (data.drop pos)) :=
  follows_fixed hfits hpos (by omega) fun hle ↦ deserializeUi64_at hle hfits

theorem follows_double (hpos : pos ≤ data.length) (hbase : base ≤ pos) :
    Follows (Access.Inside data.length) (SamePlace data slack base)
      (accessesUi64 model (cursorAt data slack pos))
      (deserializeDouble model (cursorAt data slack pos)) (parseUi64 (data.drop pos)) :=
  follows_ui64 hfits hpos hbase

/-- A copy at the cursor follows the parser that takes the bytes. -/
theorem follows_copy {count : ℕ} (hpos : pos ≤ data.length) :
    Follows (Access.Inside data.length)
      (fun bytes parsed ↦ pos + count ≤ data.length ∧ bytes = (data.drop pos).take count ∧
        parsed = (bytes, data.drop (pos + count)))
      [accessCopy (cursorAt data slack pos) count] ((cursorAt data slack pos).addBuf count)
      (takeBytes count (data.drop pos)) := by
  apply Follows.access
  · rw [accessCopy, inside_copy_iff hfits, takeBytes_drop hpos]
    split <;> simp_all
  · intro parsed hparsed
    rw [takeBytes_drop hpos] at hparsed
    split at hparsed
    case isTrue hle =>
      cases hparsed
      exact ⟨_, addBuf_at hle hfits, hle, rfl, rfl⟩
    case isFalse => cases hparsed

theorem follows_padding {pad : ℕ} {bytes : Bytes} (hpos : pos ≤ data.length)
    (hbase : base ≤ pos) (hsmall : pad < 4) :
    Follows (Access.Inside data.length) (SamePlace data slack base)
      (if pad ≠ 0 then [accessSkip model (cursorAt data slack pos) pad] else [])
      (some (bytes, if pad ≠ 0 then (cursorAt data slack pos).advance model pad
        else cursorAt data slack pos))
      ((takeBytes pad (data.drop pos)).bind fun rest ↦ some (bytes, rest.2)) := by
  rw [takeBytes_drop hpos]
  by_cases hpad : pad = 0
  · rw [if_neg (not_not_intro hpad), if_neg (not_not_intro hpad), hpad, if_pos (Nat.add_zero pos ▸ hpos)]
    exact Follows.pure (SamePlace.intro hbase hpos)
  · rw [if_pos hpad, if_pos hpad]
    apply Follows.access
    · rw [inside_skip_iff hfits hpos (by omega)]
      split <;> simp_all
    · intro parsed hparsed
      split at hparsed
      case isTrue hle =>
        cases hparsed
        rw [advance_cursorAt pad hle hfits]
        exact ⟨_, rfl, SamePlace.intro (by omega) hle⟩
      case isFalse => cases hparsed

theorem follows_tail {len offset : ℕ} (hlen : len < 2 ^ 32) (hpos : pos ≤ data.length) (hbase : base ≤ pos) :
    Follows (Access.Inside data.length) (SamePlace data slack base)
      (accessesTail model (cursorAt data slack pos) len offset)
      (deserializeTail model (cursorAt data slack pos) len offset)
      (parsePadded len offset (data.drop pos)) := by
  apply Follows.bind (follows_copy hfits hpos)
  rintro bytes ⟨_, rest⟩ ⟨hle, hbytes, hparsed⟩
  cases hparsed
  apply Follows.cons ((inside_skip_iff hfits hpos hlen).mpr hle)
  dsimp only
  rw [advance_cursorAt len hle hfits]
  exact follows_padding hfits hle (by omega) (by omega)

theorem follows_bytes (hpos : pos ≤ data.length) (hbase : base ≤ pos) :
    Follows (Access.Inside data.length) (SamePlace data slack base)
      (accessesBytes model (cursorAt data slack pos))
      (deserializeBytes model (cursorAt data slack pos)) (parseBytes (data.drop pos)) := by
  apply Follows.bind (follows_copy hfits hpos)
  rintro word ⟨_, rest⟩ ⟨hle, hword, hparsed⟩
  cases hparsed
  dsimp only
  split
  case isTrue =>
    have hadvance : (cursorAt data slack pos).advance model ((1 : ℕ) : ℤ) = _ :=
      advance_cursorAt 1 (by omega) hfits
    rw [Nat.cast_one] at hadvance
    rw [hadvance, List.drop_drop]
    apply Follows.cons ((inside_skip_iff hfits hpos (by decide)).mpr (by omega))
    exact follows_tail hfits (by have := (word.headD 0).toNat_lt; omega) (by omega) (by omega)
  case isFalse =>
    have hadvance : (cursorAt data slack pos).advance model ((4 : ℕ) : ℤ) = _ :=
      advance_cursorAt 4 hle hfits
    rw [Nat.cast_ofNat] at hadvance
    rw [hadvance, List.drop_drop]
    apply Follows.cons ((inside_skip_iff hfits hpos (by decide)).mpr hle)
    have hlen : leNat (word.drop 1) < 256 ^ 3 := by
      have hword' : (word.drop 1).length = 3 := by
        rw [List.length_drop, hword, length_take_drop hle]
      rw [← hword']
      exact leNat_lt _
    exact follows_tail hfits (by omega) hle (by omega)

theorem follows_buf {size : ℕ} (hsize : (UInt32.ofInt size).toNat = size)
    (hpos : pos ≤ data.length) (hbase : base ≤ pos) :
    Follows (Access.Inside data.length) (SamePlace data slack base)
      (accessesBuf model (cursorAt data slack pos) size)
      (deserializeBuf model (cursorAt data slack pos) size) (takeBytes size (data.drop pos)) := by
  have hchecked : (takeBytes size (data.drop pos)).map (Prod.map id id) =
      takeBytes size (data.drop pos) := by rw [Prod.map_id, Option.map_id_fun, id]
  rw [← hchecked, accessesBuf, hsize]
  exact follows_fixed hfits hpos (by omega) fun hle ↦ deserializeBuf_at (by omega) hfits hle

/-- A body with a permitted length is skipped. -/
theorem advance_body {len : UInt32} (hok : BodyLengthOk model len)
    (hle : pos + len.toNat ≤ data.length) :
    (cursorAt data slack pos).advance model (intOfUi32 len) =
      cursorAt data slack (pos + len.toNat) := by
  by_cases hsmall : len.toNat < 2 ^ 31
  · rw [intOfUi32_of_lt hsmall, advance_cursorAt _ hle hfits]
  · cases model with
    | lp64 => exact absurd (hok rfl) hsmall
    | ilp32 =>
      rw [← advance_cursorAt _ hle hfits, Cursor.advance, Cursor.advance, ofInt_intOfUi32,
        ui32_ofInt_natCast, UInt32.ofNat_toNat]
      have hoff : (cursorAt data slack pos).off = pos := rfl
      rw [ptrAdd, ptrAdd, hoff, intOfUi32_of_ge (not_lt.mp hsmall)]
      congr 1
      omega

theorem follows_body {len : UInt32} (hpos : pos ≤ data.length) (hbase : base ≤ pos) :
    Follows (Access.Inside data.length) (SamePlace data slack base)
      (accessesBuf model (cursorAt data slack pos) (intOfUi32 len))
      (deserializeBuf model (cursorAt data slack pos) (intOfUi32 len))
      (parseBody model len (data.drop pos)) := by
  rw [parseBody, takeBytes_drop hpos, accessesBuf, ofInt_intOfUi32, deserializeBuf,
    ofInt_intOfUi32]
  by_cases hle : pos + len.toNat ≤ data.length
  · rw [if_pos hle, addBuf_at hle hfits]
    by_cases hok : BodyLengthOk model len
    · rw [if_pos hok, advance_body hfits hok hle]
      apply Follows.access
      · exact iff_of_true (inside_of_le hfits hle (Nat.le_add_right _ _) hle) rfl
      · intro parsed hparsed
        cases hparsed
        exact ⟨_, rfl, SamePlace.intro (by omega) hle⟩
    · rw [if_neg hok]
      apply Follows.access
      · apply iff_of_false _ Bool.false_ne_true
        rintro ⟨-, -, ⟨hoff, -⟩, -⟩
        simp only [BodyLengthOk, not_forall, not_lt] at hok
        obtain ⟨rfl, hlarge⟩ := hok
        have hafter : (pos : ℤ) + intOfUi32 len < 0 := by
          rw [intOfUi32_of_ge hlarge]
          omega
        exact absurd hoff (not_le.mpr hafter)
      · intro parsed hparsed
        cases hparsed
  · rw [if_neg hle, ite_self]
    apply Follows.access
    · exact iff_of_false (not_inside_of_lt (not_le.mp hle)) Bool.false_ne_true
    · intro parsed hparsed
      cases hparsed

theorem follows_mtpMessage (hpos : pos ≤ data.length) (hbase : base ≤ pos) :
    Follows (Access.Inside data.length) (SamePlace data slack base)
      (accessesMtpMessage model (cursorAt data slack pos))
      (deserializeMtpMessage model (cursorAt data slack pos))
      (parseMtpMessage model (data.drop pos)) := by
  apply Follows.bind (follows_ui64 hfits hpos hbase)
  rintro ⟨msgId, _⟩ ⟨_, _⟩ ⟨rfl, first, hfirst, hle, rfl, rfl⟩
  have hnext : base ≤ first + 4 := by omega
  apply Follows.bind (follows_ui32 hfits hle hnext)
  rintro ⟨seqno, _⟩ ⟨_, _⟩ ⟨rfl, second, hsecond, hle, rfl, rfl⟩
  have hnext : base ≤ second + 4 := by omega
  apply Follows.bind (follows_ui32 hfits hle hnext)
  rintro ⟨bytes, _⟩ ⟨_, _⟩ ⟨rfl, third, hthird, hle, rfl, rfl⟩
  apply (follows_body hfits hle hthird).finish
  rintro ⟨body, _⟩ ⟨_, _⟩ ⟨rfl, last, hlast, hle, rfl, rfl⟩
  exact Follows.pure (SamePlace.intro hlast hle)

end Leaves

/-! ## Fields and objects -/

section Fields

variable {model : DataModel} {data slack : Bytes} {base : ℕ} {readObject : ObjectReader}
  {objectAccesses : Cursor → List Access} {parseObject : Bytes → Option (Option TlObj × Bytes)}

/-- Nested objects that begin at `base` or later follow their parser. -/
def FollowsObjects (data slack : Bytes) (base : ℕ) (readObject : ObjectReader)
    (objectAccesses : Cursor → List Access)
    (parseObject : Bytes → Option (Option TlObj × Bytes)) : Prop :=
  ∀ pos, base ≤ pos → pos ≤ data.length →
    Follows (Access.Inside data.length) (SamePlace data slack base)
      (objectAccesses (cursorAt data slack pos)) (readObject (cursorAt data slack pos))
      (parseObject (data.drop pos))

variable (hfits : data.length + 1 < 2 ^ 32)
  (hobjects : FollowsObjects data slack base readObject objectAccesses parseObject)

include hfits hobjects

theorem follows_elem (elem : String) {pos : ℕ} (hpos : pos ≤ data.length) (hbase : base ≤ pos) :
    Follows (Access.Inside data.length) (SamePlace data slack base)
      (accessesElem model objectAccesses elem (cursorAt data slack pos))
      (deserializeElem model readObject elem (cursorAt data slack pos))
      (parseElem model parseObject elem (data.drop pos)) := by
  have hnext : base ≤ pos + 4 := by omega
  unfold accessesElem deserializeElem parseElem
  by_cases hint : elem = "int"
  · rw [if_pos (.inl hint), if_pos hint, if_pos hint]
    exact (follows_ui32 hfits hpos hnext).map fun _ _ h ↦ h.map _
  rw [if_neg hint, if_neg hint]
  by_cases hbool : elem = "bool"
  · rw [if_pos (.inr hbool), if_pos hbool, if_pos hbool]
    exact (follows_ui32 hfits hpos hnext).map fun _ _ h ↦ h.map _
  rw [if_neg (not_or.mpr ⟨hint, hbool⟩), if_neg hbool, if_neg hbool]
  by_cases hlong : elem = "long"
  · rw [if_pos (.inl hlong), if_pos hlong, if_pos hlong]
    exact (follows_ui64 hfits hpos hbase).map fun _ _ h ↦ h.map _
  rw [if_neg hlong, if_neg hlong]
  by_cases hdouble : elem = "double"
  · rw [if_pos (.inr hdouble), if_pos hdouble, if_pos hdouble]
    exact (follows_double hfits hpos hbase).map fun _ _ h ↦ h.map _
  rw [if_neg (not_or.mpr ⟨hlong, hdouble⟩), if_neg hdouble, if_neg hdouble]
  by_cases hbytes : elem = "string" ∨ elem = "bytes"
  · rw [if_pos hbytes, if_pos hbytes, if_pos hbytes]
    exact (follows_bytes hfits hpos hbase).map fun _ _ h ↦ h.map _
  rw [if_neg hbytes, if_neg hbytes, if_neg hbytes]
  by_cases hmessage : elem = "%Message"
  · rw [if_pos hmessage, if_pos hmessage, if_pos hmessage]
    exact (follows_mtpMessage hfits hpos hbase).map fun _ _ h ↦ h.map _
  rw [if_neg hmessage, if_neg hmessage, if_neg hmessage]
  exact (hobjects pos hbase hpos).map fun _ _ h ↦ h.map _

theorem follows_elems (elem : String) (count : ℕ) {pos : ℕ} (hpos : pos ≤ data.length)
    (hbase : base ≤ pos) :
    Follows (Access.Inside data.length) (SamePlace data slack base)
      (accessesElems model readObject objectAccesses elem count (cursorAt data slack pos))
      (deserializeElems model readObject elem count (cursorAt data slack pos))
      (parseElems model parseObject elem count (data.drop pos)) := by
  induction count generalizing pos with
  | zero => exact Follows.pure (SamePlace.intro hbase hpos)
  | succ count ih =>
    apply Follows.bind (follows_elem hfits hobjects elem hpos hbase)
    rintro ⟨first, _⟩ ⟨_, _⟩ ⟨rfl, next, hnext, hle, rfl, rfl⟩
    apply (ih hle hnext).finish
    rintro ⟨rest, _⟩ ⟨_, _⟩ ⟨rfl, last, hlast, hle, rfl, rfl⟩
    exact Follows.pure (SamePlace.intro hlast hle)

omit hobjects in
theorem follows_len {pos : ℕ} (hpos : pos ≤ data.length) (hbase : base ≤ pos) :
    Follows (Access.Inside data.length) (SamePlace data slack base)
      (accessesLen model (cursorAt data slack pos)) (deserializeLen model (cursorAt data slack pos))
      (parseLen (data.drop pos)) := by
  have hnext : base ≤ pos + 4 := by omega
  apply Follows.bind (follows_ui32 hfits hpos hnext)
  rintro ⟨first, _⟩ ⟨_, _⟩ ⟨rfl, next, hnext, hle, rfl, rfl⟩
  dsimp only
  split
  case isTrue => exact follows_ui32 hfits hle (by omega)
  case isFalse => exact Follows.pure (SamePlace.intro hnext hle)

theorem follows_vector (elem : String) {pos : ℕ} (hpos : pos ≤ data.length)
    (hbase : base ≤ pos) :
    Follows (Access.Inside data.length) (SameFlow data slack base)
      (accessesVector model readObject objectAccesses elem (cursorAt data slack pos))
      (deserializeVector model readObject elem (cursorAt data slack pos))
      (parseVector model parseObject elem (data.drop pos)) := by
  apply Follows.bind (follows_len hfits hpos hbase)
  rintro ⟨len, _⟩ ⟨_, _⟩ ⟨rfl, next, hnext, hle, rfl, rfl⟩
  dsimp only
  split
  case isTrue => exact Follows.pure (SamePlace.intro hnext hle)
  case isFalse =>
    apply (follows_elems hfits hobjects elem len.toNat hle hnext).finish
    rintro ⟨elems, _⟩ ⟨_, _⟩ ⟨rfl, last, hlast, hle, rfl, rfl⟩
    exact Follows.pure (SamePlace.intro hlast hle)

omit hfits hobjects in
/-- A deserializer that reads one field follows the parser of the field. -/
theorem follows_next {Value : Type} {accesses : List Access} {result : Option (Value × Cursor)}
    {parsed : Option (Value × Bytes)} (field : Value → Field)
    (h : Follows (Access.Inside data.length) (SamePlace data slack base) accesses result parsed) :
    Follows (Access.Inside data.length) (SameFlow data slack base) accesses
      (result.map fun result ↦ .next (field result.1) result.2)
      (parsed.map fun parsed ↦ .next (field parsed.1) parsed.2) :=
  h.map fun _ _ hplace ↦ hplace.map field

theorem follows_value (type : String) {pos : ℕ} (hpos : pos ≤ data.length) (hbase : base ≤ pos) :
    Follows (Access.Inside data.length) (SameFlow data slack base)
      (accessesValue model readObject objectAccesses type (cursorAt data slack pos))
      (deserializeValue model readObject type (cursorAt data slack pos))
      (parseValue model parseObject type (data.drop pos)) := by
  have hnext : base ≤ pos + 4 := by omega
  unfold accessesValue deserializeValue parseValue
  dsimp only
  by_cases hint : type = "int"
  · rw [if_pos (.inl hint), if_pos hint, if_pos hint]
    exact follows_next _ (follows_ui32 hfits hpos hnext)
  rw [if_neg hint, if_neg hint]
  by_cases htrue : type = "true"
  · rw [if_neg (by simp [htrue]), if_pos htrue, if_pos htrue, if_pos htrue]
    exact Follows.pure (SamePlace.intro hbase hpos)
  rw [if_neg htrue, if_neg htrue, if_neg htrue]
  by_cases hbool : type = "bool"
  · rw [if_pos (.inr hbool), if_pos hbool, if_pos hbool]
    exact follows_next (fun value ↦ .bool (value ≠ 0)) (follows_ui32 hfits hpos hnext)
  rw [if_neg (not_or.mpr ⟨hint, hbool⟩), if_neg hbool, if_neg hbool]
  by_cases hlong : type = "long"
  · rw [if_pos (.inl hlong), if_pos hlong, if_pos hlong]
    exact follows_next _ (follows_ui64 hfits hpos hbase)
  rw [if_neg hlong, if_neg hlong]
  by_cases hdouble : type = "double"
  · rw [if_pos (.inr hdouble), if_pos hdouble, if_pos hdouble]
    exact follows_next _ (follows_double hfits hpos hbase)
  rw [if_neg (not_or.mpr ⟨hlong, hdouble⟩), if_neg hdouble, if_neg hdouble]
  by_cases hbytes : type = "string" ∨ type = "bytes"
  · rw [if_pos hbytes, if_pos hbytes, if_pos hbytes]
    exact follows_next _ (follows_bytes hfits hpos hbase)
  rw [if_neg hbytes, if_neg hbytes, if_neg hbytes]
  by_cases h128 : type = "int128"
  · rw [if_pos h128, if_pos h128, if_pos h128]
    have hbuf : Follows _ (SamePlace data slack base)
        (accessesBuf model (cursorAt data slack pos) (16 : ℕ)) _ _ :=
      follows_buf hfits rfl hpos hbase
    exact follows_next _ hbuf
  rw [if_neg h128, if_neg h128, if_neg h128]
  by_cases h256 : type = "int256"
  · rw [if_pos h256, if_pos h256, if_pos h256]
    have hbuf : Follows _ (SamePlace data slack base)
        (accessesBuf model (cursorAt data slack pos) (32 : ℕ)) _ _ :=
      follows_buf hfits rfl hpos hbase
    exact follows_next _ hbuf
  rw [if_neg h256, if_neg h256, if_neg h256]
  cases vectorElem type with
  | some elem => exact follows_vector hfits hobjects elem hpos hbase
  | none => exact follows_next _ (hobjects pos hbase hpos)

omit hfits hobjects in
/-- A flags word that an argument names has been read before it. -/
theorem exists_argPresent {flags : List UInt32} {arg : Arg} (hscoped : arg.flagn ≤ flags.length) :
    ∃ present, argPresent flags arg = some present := by
  unfold argPresent
  split
  case isTrue => exact ⟨true, rfl⟩
  case isFalse hne =>
    rw [List.getElem?_eq_getElem (by omega), Option.map_some]
    exact ⟨_, rfl⟩

theorem follows_args (args : List Arg) {flags : List UInt32} {pos : ℕ}
    (hscoped : Scoped flags.length args) (hpos : pos ≤ data.length) (hbase : base ≤ pos) :
    Follows (Access.Inside data.length) (SamePlace data slack base)
      (accessesArgs model readObject objectAccesses flags args (cursorAt data slack pos))
      (deserializeArgs model readObject flags args (cursorAt data slack pos))
      (parseArgs model parseObject flags args (data.drop pos)) := by
  induction args generalizing flags pos with
  | nil => exact Follows.pure (SamePlace.intro hbase hpos)
  | cons arg rest ih =>
    obtain ⟨hflag, -, hrest⟩ := hscoped
    have hskip {next : ℕ} {flags : List UInt32} (hscoped : Scoped flags.length rest)
        (hle : next ≤ data.length) (hnext : base ≤ next) :
        Follows (Access.Inside data.length) (SamePlace data slack base)
          (accessesArgs model readObject objectAccesses flags rest (cursorAt data slack next))
          ((deserializeArgs model readObject flags rest (cursorAt data slack next)).bind
            fun fields ↦ some (zeroField arg :: fields.1, fields.2))
          ((parseArgs model parseObject flags rest (data.drop next)).bind
            fun fields ↦ some (zeroField arg :: fields.1, fields.2)) := by
      apply (ih hscoped hle hnext).finish
      rintro ⟨fields, _⟩ ⟨_, _⟩ ⟨rfl, last, hlast, hle, rfl, rfl⟩
      exact Follows.pure (SamePlace.intro hlast hle)
    cases htype : arg.type with
    | none =>
      unfold accessesArgs deserializeArgs parseArgs
      rw [htype]
      dsimp only
      split
      case isTrue hflags =>
        rw [if_pos hflags] at hrest
        have hnext : base ≤ pos + 4 := by omega
        apply Follows.bind (follows_ui32 hfits hpos hnext)
        rintro ⟨word, _⟩ ⟨_, _⟩ ⟨rfl, next, hnext, hle, rfl, rfl⟩
        have hmore : Scoped (flags ++ [word]).length rest := by
          rw [List.length_append]
          exact hrest
        exact hskip hmore hle hnext
      case isFalse hflags =>
        rw [if_neg hflags] at hrest
        exact hskip hrest hpos hbase
    | some type =>
      have hfield : ¬ arg.isFlags = true := by simp [Arg.isFlags, htype]
      rw [if_neg hfield] at hrest
      obtain ⟨present, hpresent⟩ := exists_argPresent hflag
      unfold accessesArgs deserializeArgs parseArgs
      rw [htype]
      simp only [hpresent, Option.bind_eq_bind, Option.bind_some]
      cases present with
      | false => exact hskip hrest hpos hbase
      | true =>
        apply Follows.bind (follows_value hfits hobjects type hpos hbase)
        rintro (⟨field, cursor⟩ | ⟨field, cursor⟩) (⟨parsed, input⟩ | ⟨parsed, input⟩) hsame
        · obtain ⟨rfl, next, hnext, hle, rfl, rfl⟩ := hsame
          apply (ih hrest hle hnext).finish
          rintro ⟨fields, _⟩ ⟨_, _⟩ ⟨rfl, last, hlast, hle, rfl, rfl⟩
          exact Follows.pure (SamePlace.intro hlast hle)
        · exact absurd hsame id
        · exact absurd hsame id
        · obtain ⟨rfl, next, hnext, hle, rfl, rfl⟩ := hsame
          exact Follows.pure (SamePlace.intro hnext hle)

end Fields

section Objects

variable {model : DataModel} {data slack : Bytes} (hfits : data.length + 1 < 2 ^ 32)

include hfits

theorem addBuf_rest {pos : ℕ} (hpos : pos ≤ data.length) :
    (cursorAt data slack pos).addBuf (cursorAt data slack pos).size.toNat =
      some (data.drop pos) := by
  rw [toNat_size_cursorAt hfits, addBuf_at (by omega) hfits, List.take_of_length_le]
  rw [List.length_drop]

theorem inside_rest {pos : ℕ} {purpose : Purpose} (hpos : pos ≤ data.length) :
    Access.Inside data.length ⟨cursorAt data slack pos, (cursorAt data slack pos).size.toNat,
      cursorAt data slack pos, purpose⟩ := by
  rw [inside_copy_iff hfits, toNat_size_cursorAt hfits]
  omega

/-- The nested objects of an object begin behind its id. -/
theorem follows_method {method : Method} {readObject : ObjectReader}
    {objectAccesses : Cursor → List Access} {parseObject : Bytes → Option (Option TlObj × Bytes)}
    {pos : ℕ} (hpos : pos ≤ data.length) (hscoped : Scoped 0 method.args)
    (hobjects : FollowsObjects data slack (pos + 4) readObject objectAccesses parseObject) :
    Follows (Access.Inside data.length) (SamePlace data slack (pos + 4))
      (accessesMethod model readObject objectAccesses method (cursorAt data slack pos))
      (deserializeMethod model readObject method (cursorAt data slack pos))
      (parseMethod model parseObject method (data.drop pos)) := by
  have hargs {next : ℕ} (hle : next ≤ data.length) (hnext : pos + 4 ≤ next) :
      Follows _ _ (accessesArgs model readObject objectAccesses [] method.args
        (cursorAt data slack next)) _ _ :=
    follows_args hfits hobjects method.args hscoped hle hnext
  unfold accessesMethod deserializeMethod parseMethod
  rw [addBuf_rest hfits hpos]
  apply Follows.cons (inside_rest hfits hpos)
  apply Follows.bind (follows_ui32 hfits hpos le_rfl)
  rintro ⟨id, _⟩ ⟨_, _⟩ ⟨rfl, next, hnext, hle, rfl, rfl⟩
  dsimp only
  split
  case isTrue =>
    have hlen : pos + 4 ≤ next + 4 := by omega
    apply Follows.bind (follows_ui32 hfits hle hlen)
    rintro ⟨len, _⟩ ⟨_, _⟩ ⟨rfl, after, hafter, hle, rfl, rfl⟩
    dsimp only
    rw [addBuf_rest hfits hle]
    apply Follows.cons (inside_rest hfits hle)
    apply (hargs hle hafter).finish
    rintro ⟨fields, _⟩ ⟨_, _⟩ ⟨rfl, last, hlast, hle, rfl, rfl⟩
    exact Follows.pure (SamePlace.intro hlast hle)
  case isFalse =>
    apply (hargs hle hnext).finish
    rintro ⟨fields, _⟩ ⟨_, _⟩ ⟨rfl, last, hlast, hle, rfl, rfl⟩
    exact Follows.pure (SamePlace.intro hlast hle)

/-- Looking at an id follows the parser that takes it. -/
theorem follows_lookup {pos : ℕ} (hpos : pos ≤ data.length) :
    Follows (Access.Inside data.length)
      (fun bytes parsed ↦ pos + 4 ≤ data.length ∧ getUi32 bytes = parsed.1)
      [⟨cursorAt data slack pos, 4, cursorAt data slack pos, .id⟩]
      ((cursorAt data slack pos).read 4) (parseUi32 (data.drop pos)) := by
  rw [parseUi32, takeBytes_drop hpos]
  apply Follows.access
  · rw [inside_copy_iff hfits]
    split <;> simp_all
  · intro parsed hparsed
    split at hparsed
    case isTrue hle =>
      cases hparsed
      exact ⟨_, read_at hle, hle, rfl⟩
    case isFalse => cases hparsed

variable {table : List Method} (hscoped : ∀ method ∈ table, Scoped 0 method.args)

include hscoped

/-- Every object follows its parser, if there is fuel for the rest of the buffer. -/
theorem follows_fuel (fuel steps : ℕ) {pos : ℕ} (hpos : pos ≤ data.length)
    (hfuel : data.length - pos < fuel) (hsteps : data.length - pos < steps) :
    Follows (Access.Inside data.length) (SamePlace data slack pos)
      (accessesFuel model table fuel (cursorAt data slack pos))
      (tlDeserializeFuel model table fuel (cursorAt data slack pos))
      (parseFuel model table steps (data.drop pos)) := by
  induction fuel generalizing pos steps with
  | zero => exact absurd hfuel (Nat.not_lt_zero _)
  | succ fuel ih =>
    cases steps with
    | zero => exact absurd hsteps (Nat.not_lt_zero _)
    | succ steps =>
      unfold accessesFuel tlDeserializeFuel parseFuel
      apply Follows.bind (follows_lookup hfits hpos)
      rintro bytes ⟨id, _⟩ ⟨hle, hid⟩
      dsimp only at hid ⊢
      rw [hid]
      split
      case isTrue => exact Follows.pure (SamePlace.intro le_rfl hpos)
      case isFalse =>
        cases hfun : getFun table id with
        | none =>
          exact (Follows.pure (SamePlace.intro le_rfl hpos)).cons (inside_rest hfits hpos)
        | some method =>
          have hargs : Scoped 0 method.args := hscoped method (List.mem_of_find?_eq_some hfun)
          have hobjects : FollowsObjects data slack (pos + 4) (tlDeserializeFuel model table fuel)
              (accessesFuel model table fuel) (parseFuel model table steps) := by
            intro next hbase hnext
            have hinner := ih steps hnext (by omega) (by omega)
            exact hinner.mono fun _ _ h ↦ h.mono hbase
          apply (follows_method hfits hpos hargs hobjects).finish
          rintro ⟨tl, _⟩ ⟨_, _⟩ ⟨rfl, last, hlast, hle, rfl, rfl⟩
          exact Follows.pure (SamePlace.intro (by omega) hle)

/-- `tl_deserialize` follows the parser of complete objects. -/
theorem follows_tlDeserialize :
    Follows (Access.Inside data.length) (SamePlace data slack 0)
      (accesses model table (cursorAt data slack 0))
      (tlDeserialize model table (cursorAt data slack 0)) (parse model table data) := by
  have hblock : (cursorAt data slack 0).block.length = data.length + slack.length :=
    List.length_append
  exact follows_fuel hfits hscoped ((cursorAt data slack 0).block.length + 1) (data.length + 1)
    (Nat.zero_le _) (by omega) (by omega)

/-- What the parser accepts is decoded to the same object. -/
theorem tlDeserialize_of_parse {tl : Option TlObj} {rest : Bytes}
    (h : parse model table data = some (tl, rest)) :
    ∃ next, tlDeserialize model table (cursorAt data slack 0) =
      some (tl, cursorAt data slack next) ∧ rest = data.drop next := by
  obtain ⟨⟨_, _⟩, hdecoded, rfl, next, -, -, rfl, hrest⟩ :=
    (@follows_tlDeserialize _ _ slack hfits _ hscoped).agrees h
  exact ⟨next, hdecoded, hrest⟩

end Objects

section Inside

variable (model : DataModel) (table : List Method) (data slack : Bytes)

/-- `tl_deserialize` of a buffer that holds `data` reads nothing behind it, and at every point the
offset and the remaining size make up its length. -/
def StaysInside : Prop :=
  ∀ access ∈ accesses model table (cursorAt data slack 0), access.Inside data.length

instance : Decidable (StaysInside model table data slack) :=
  inferInstanceAs (Decidable (∀ access ∈ accesses model table (cursorAt data slack 0),
    access.Inside data.length))

variable {model table data slack}

/-- Exactly the buffers that begin with a complete object are decoded inside their bounds. -/
theorem staysInside_iff (hfits : data.length + 1 < 2 ^ 32)
    (hscoped : ∀ method ∈ table, Scoped 0 method.args) :
    StaysInside model table data slack ↔ (parse model table data).isSome :=
  (follows_tlDeserialize hfits hscoped).permitted_iff

end Inside

/-! ## An error, and an error whose text is too short -/

/-- `error#c4b9f9bb`. -/
def errorMethod : Method where
  name := "error"
  id := 0xc4b9f9bb
  args := [⟨"code", some "int", 0, 0⟩, ⟨"text", some "string", 0, 0⟩]
  isMtproto := false

/-- An error `400` with the text `no`, whose length is given as `len`. -/
def errorBytes (len : UInt8) : Bytes := le32 0xc4b9f9bb ++ le32 400 ++ [len, 110, 111, 0]

theorem errorBytes_staysInside : StaysInside .lp64 [errorMethod] (errorBytes 2) [0] :=
  (staysInside_iff (by decide) (by decide)).mpr (by decide +kernel)

/-- A length of 200 is followed out of the buffer. -/
theorem longErrorBytes_not_staysInside :
    ¬ StaysInside .lp64 [errorMethod] (errorBytes 200) (List.replicate 300 0) := by
  decide +kernel

end LibTg.Tl
