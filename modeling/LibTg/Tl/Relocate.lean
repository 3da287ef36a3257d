import LibTg.Tl.Deserialize

/-!
# Decoding does not depend on the place in memory

A message is decoded where it stands: at the start of a packet, inside another object, or in the
buffer of a decompressor. A decoder that succeeds on a block of exactly the bytes of a message
gives the same object when these bytes stand anywhere in a larger block, since it looks at nothing
but the bytes at its cursor.
-/

namespace LibTg.Tl

variable {model : DataModel} {before after : Bytes}

/-- The block of `inner` stands in the block of `outer`, and the cursors point to the same byte. -/
structure Relocated (model : DataModel) (before after : Bytes) (inner outer : Cursor) : Prop where
  block : outer.block = before ++ (inner.block ++ after)
  off : outer.off = ptrAdd model inner.off before.length
  size : outer.size = inner.size
  fits : outer.block.length < 2 ^ 32

/-- What `read` gives at a cursor, `reread` gives at a cursor in a larger block. -/
def Relocates (model : DataModel) (before after : Bytes) {Result : Type*}
    (read reread : Cursor → Option (Result × Cursor)) : Prop :=
  ∀ inner outer result next, Relocated model before after inner outer →
    read inner = some (result, next) →
    ∃ moved, reread outer = some (result, moved) ∧ Relocated model before after next moved

theorem Relocated.read {inner outer : Cursor} (h : Relocated model before after inner outer)
    {count : ℕ} {bytes : Bytes} (hread : inner.read count = some bytes) :
    outer.read count = some bytes := by
  rw [Cursor.read] at hread ⊢
  split at hread
  case isFalse => cases hread
  case isTrue hbounds =>
    have hfits := h.fits
    rw [h.block, List.length_append, List.length_append] at hfits
    have hoff : outer.off = inner.off + before.length := by
      rw [h.off]
      cases model with
      | ilp32 =>
        simp only [ptrAdd]
        omega
      | lp64 => rfl
    have hstart : outer.off.toNat = before.length + inner.off.toNat := by omega
    rw [if_pos (by rw [h.block, List.length_append, List.length_append]; omega), ← hread, h.block,
      hstart, List.drop_append, List.drop_eq_nil_of_le (Nat.le_add_right _ _), List.nil_append,
      Nat.add_sub_cancel_left, List.drop_append_of_le_length (by omega),
      List.take_append_of_le_length (by rw [List.length_drop]; omega)]

theorem Relocated.addBuf {inner outer : Cursor} (h : Relocated model before after inner outer)
    {count : ℕ} {bytes : Bytes} (hread : inner.addBuf count = some bytes) :
    outer.addBuf count = some bytes := by
  rw [Cursor.addBuf, Option.bind_eq_bind, Option.bind_eq_some_iff] at hread ⊢
  obtain ⟨data, hdata, hcopy⟩ := hread
  exact ⟨data, h.read hdata, hcopy⟩

theorem Relocated.advance {inner outer : Cursor} (h : Relocated model before after inner outer)
    (count : ℤ) :
    Relocated model before after (inner.advance model count) (outer.advance model count) where
  block := h.block
  off := by
    rw [Cursor.advance, Cursor.advance, h.off]
    cases model with
    | ilp32 =>
      simp only [ptrAdd]
      omega
    | lp64 =>
      simp only [ptrAdd]
      omega
  size := by rw [Cursor.advance, Cursor.advance, h.size]
  fits := h.fits

/-! ## Composition -/

section Compose

variable {First Second : Type*} {read reread : Cursor → Option (First × Cursor)}

theorem Relocates.bind (h : Relocates model before after read reread)
    {next renext : First → Cursor → Option (Second × Cursor)}
    (hnext : ∀ first, Relocates model before after (next first) (renext first)) :
    Relocates model before after (fun cursor ↦ (read cursor).bind fun result ↦ next result.1 result.2)
      (fun cursor ↦ (reread cursor).bind fun result ↦ renext result.1 result.2) := by
  intro inner outer result final hinner hread
  rw [Option.bind_eq_some_iff] at hread
  obtain ⟨⟨first, middle⟩, hfirst, hsecond⟩ := hread
  obtain ⟨moved, hmoved, hmiddle⟩ := h inner outer first middle hinner hfirst
  obtain ⟨last, hlast, hfinal⟩ := hnext first middle moved result final hmiddle hsecond
  refine ⟨last, ?_, hfinal⟩
  dsimp only
  rw [hmoved, Option.bind_some, hlast]

theorem Relocates.map (h : Relocates model before after read reread) (f : First → Second) :
    Relocates model before after (fun cursor ↦ (read cursor).map (Prod.map f id))
      (fun cursor ↦ (reread cursor).map (Prod.map f id)) := by
  intro inner outer result final hinner hread
  rw [Option.map_eq_some_iff] at hread
  obtain ⟨⟨first, middle⟩, hfirst, heq⟩ := hread
  obtain ⟨moved, hmoved, hmiddle⟩ := h inner outer first middle hinner hfirst
  cases heq
  refine ⟨moved, ?_, hmiddle⟩
  dsimp only
  rw [hmoved, Option.map_some]
  rfl

theorem relocates_pure (result : First) :
    Relocates model before after (fun cursor ↦ some (result, cursor))
      (fun cursor ↦ some (result, cursor)) := by
  intro inner outer found final hinner hread
  cases hread
  exact ⟨outer, rfl, hinner⟩

end Compose

/-! ## The readers -/

theorem relocates_ui32 :
    Relocates model before after (deserializeUi32 model) (deserializeUi32 model) := by
  intro inner outer result next hinner hread
  rw [deserializeUi32, Option.bind_eq_bind, Option.bind_eq_some_iff] at hread
  obtain ⟨bytes, hbytes, heq⟩ := hread
  cases heq
  exact ⟨_, by rw [deserializeUi32, hinner.read hbytes]; rfl, hinner.advance 4⟩

theorem relocates_ui64 :
    Relocates model before after (deserializeUi64 model) (deserializeUi64 model) := by
  intro inner outer result next hinner hread
  rw [deserializeUi64, Option.bind_eq_bind, Option.bind_eq_some_iff] at hread
  obtain ⟨bytes, hbytes, heq⟩ := hread
  cases heq
  exact ⟨_, by rw [deserializeUi64, hinner.read hbytes]; rfl, hinner.advance 8⟩

theorem relocates_double :
    Relocates model before after (deserializeDouble model) (deserializeDouble model) :=
  relocates_ui64

theorem relocates_buf (size : ℤ) :
    Relocates model before after (deserializeBuf model · size) (deserializeBuf model · size) := by
  intro inner outer result next hinner hread
  dsimp only at hread
  rw [deserializeBuf, Option.bind_eq_bind, Option.bind_eq_some_iff] at hread
  obtain ⟨bytes, hbytes, heq⟩ := hread
  cases heq
  refine ⟨_, ?_, hinner.advance size⟩
  dsimp only
  rw [deserializeBuf, hinner.addBuf hbytes]
  rfl

theorem relocates_tail (len offset : ℕ) :
    Relocates model before after (deserializeTail model · len offset)
      (deserializeTail model · len offset) := by
  intro inner outer result next hinner hread
  dsimp only at hread
  rw [deserializeTail, Option.bind_eq_bind, Option.bind_eq_some_iff] at hread
  obtain ⟨bytes, hbytes, heq⟩ := hread
  cases heq
  have hend : Relocated model before after
      (if (4 - (len + offset) % 4) % 4 ≠ 0 then
        (inner.advance model len).advance model ((4 - (len + offset) % 4) % 4 : ℕ)
      else inner.advance model len)
      (if (4 - (len + offset) % 4) % 4 ≠ 0 then
        (outer.advance model len).advance model ((4 - (len + offset) % 4) % 4 : ℕ)
      else outer.advance model len) := by
    split
    · exact (hinner.advance len).advance _
    · exact hinner.advance len
  refine ⟨_, ?_, hend⟩
  dsimp only
  rw [deserializeTail, hinner.addBuf hbytes]
  rfl

theorem relocates_bytes :
    Relocates model before after (deserializeBytes model) (deserializeBytes model) := by
  intro inner outer result next hinner hread
  rw [deserializeBytes, Option.bind_eq_bind, Option.bind_eq_some_iff] at hread
  obtain ⟨first, hfirst, htail⟩ := hread
  rw [deserializeBytes, hinner.addBuf hfirst, Option.bind_eq_bind, Option.bind_some]
  dsimp only at htail ⊢
  split at htail
  case isTrue hshort =>
    rw [if_pos hshort]
    exact relocates_tail _ _ _ _ result next (hinner.advance 1) htail
  case isFalse hlong =>
    rw [if_neg hlong]
    exact relocates_tail _ _ _ _ result next (hinner.advance 4) htail

theorem relocates_mtpMessage :
    Relocates model before after (deserializeMtpMessage model) (deserializeMtpMessage model) :=
  relocates_ui64.bind fun msgId ↦ relocates_ui32.bind fun seqno ↦ relocates_ui32.bind fun bytes ↦
    (relocates_buf (intOfUi32 bytes)).bind fun body ↦
      relocates_pure (⟨longOfUi64 model msgId, intOfUi32 seqno, intOfUi32 bytes, body⟩ : MtpMessage)

/-- Two ends of the statements of an argument, at cursors that point to the same byte. -/
inductive FlowRelocated (model : DataModel) (before after : Bytes) : Flow → Flow → Prop
  | next (field : Field) {inner outer : Cursor} (h : Relocated model before after inner outer) :
    FlowRelocated model before after (.next field inner) (.next field outer)
  | stop (field : Field) {inner outer : Cursor} (h : Relocated model before after inner outer) :
    FlowRelocated model before after (.stop field inner) (.stop field outer)

/-- A value that is read like any other result. -/
theorem Relocates.flow {Result : Type} {read reread : Cursor → Option (Result × Cursor)}
    (h : Relocates model before after read reread) (field : Result → Field) {inner outer : Cursor}
    (hinner : Relocated model before after inner outer) {flow : Flow}
    (hread : (read inner).map (fun result ↦ Flow.next (field result.1) result.2) = some flow) :
    ∃ moved, (reread outer).map (fun result ↦ Flow.next (field result.1) result.2) = some moved ∧
      FlowRelocated model before after flow moved := by
  rw [Option.map_eq_some_iff] at hread
  obtain ⟨⟨result, middle⟩, hresult, heq⟩ := hread
  obtain ⟨moved, hmoved, hmiddle⟩ := h inner outer result middle hinner hresult
  subst heq
  exact ⟨_, by rw [hmoved, Option.map_some], .next _ hmiddle⟩

theorem relocates_len :
    Relocates model before after (deserializeLen model) (deserializeLen model) := by
  intro inner outer result next hinner hread
  rw [deserializeLen, Option.bind_eq_bind, Option.bind_eq_some_iff] at hread
  obtain ⟨⟨first, middle⟩, hfirst, hrest⟩ := hread
  obtain ⟨moved, hmoved, hmiddle⟩ := relocates_ui32 inner outer first middle hinner hfirst
  rw [deserializeLen, hmoved, Option.bind_eq_bind, Option.bind_some]
  dsimp only at hrest ⊢
  split at hrest
  case isTrue hid =>
    rw [if_pos hid]
    exact relocates_ui32 middle moved result next hmiddle hrest
  case isFalse hid =>
    rw [if_neg hid]
    cases hrest
    exact ⟨moved, rfl, hmiddle⟩

section Object

variable {readObject rereadObject : ObjectReader}
  (hobject : Relocates model before after readObject rereadObject)

include hobject

theorem relocates_elem (elem : String) :
    Relocates model before after (deserializeElem model readObject elem)
      (deserializeElem model rereadObject elem) := by
  unfold deserializeElem
  split
  · exact relocates_ui32.map _
  split
  · exact relocates_ui32.map _
  split
  · exact relocates_ui64.map _
  split
  · exact relocates_double.map _
  split
  · exact relocates_bytes.map _
  split
  · exact relocates_mtpMessage.map _
  · exact hobject.map _

theorem relocates_elems (elem : String) (count : ℕ) :
    Relocates model before after (deserializeElems model readObject elem count)
      (deserializeElems model rereadObject elem count) := by
  induction count with
  | zero => exact relocates_pure []
  | succ count ih =>
    exact (relocates_elem hobject elem).bind fun first ↦ ih.bind fun rest ↦
      relocates_pure (first :: rest)

theorem relocated_vector (elem : String) {inner outer : Cursor}
    (hinner : Relocated model before after inner outer) {flow : Flow}
    (hread : deserializeVector model readObject elem inner = some flow) :
    ∃ moved, deserializeVector model rereadObject elem outer = some moved ∧
      FlowRelocated model before after flow moved := by
  rw [deserializeVector, Option.bind_eq_bind, Option.bind_eq_some_iff] at hread
  obtain ⟨⟨len, middle⟩, hlen, hrest⟩ := hread
  obtain ⟨moved, hmoved, hmiddle⟩ := relocates_len inner outer len middle hinner hlen
  rw [deserializeVector, hmoved, Option.bind_eq_bind, Option.bind_some]
  dsimp only at hrest ⊢
  split at hrest
  case isTrue hbad =>
    rw [if_pos hbad]
    cases hrest
    exact ⟨_, rfl, .stop _ hmiddle⟩
  case isFalse hgood =>
    rw [if_neg hgood]
    rw [Option.bind_eq_bind, Option.bind_eq_some_iff] at hrest
    obtain ⟨⟨elems, final⟩, helems, heq⟩ := hrest
    obtain ⟨last, hlast, hfinal⟩ :=
      relocates_elems hobject elem len.toNat middle moved elems final hmiddle helems
    rw [hlast]
    cases heq
    exact ⟨_, rfl, .next _ hfinal⟩

theorem relocated_value (type : String) {inner outer : Cursor}
    (hinner : Relocated model before after inner outer) {flow : Flow}
    (hread : deserializeValue model readObject type inner = some flow) :
    ∃ moved, deserializeValue model rereadObject type outer = some moved ∧
      FlowRelocated model before after flow moved := by
  unfold deserializeValue at hread ⊢
  dsimp only at hread ⊢
  split at hread
  case isTrue h =>
    rw [if_pos h]
    exact relocates_ui32.flow _ hinner hread
  case isFalse h =>
  rw [if_neg h]
  split at hread
  case isTrue h =>
    rw [if_pos h]
    cases hread
    exact ⟨_, rfl, .next _ hinner⟩
  case isFalse h =>
  rw [if_neg h]
  split at hread
  case isTrue h =>
    rw [if_pos h]
    exact relocates_ui32.flow (fun value ↦ .bool (value ≠ 0)) hinner hread
  case isFalse h =>
  rw [if_neg h]
  split at hread
  case isTrue h =>
    rw [if_pos h]
    exact relocates_ui64.flow _ hinner hread
  case isFalse h =>
  rw [if_neg h]
  split at hread
  case isTrue h =>
    rw [if_pos h]
    exact relocates_double.flow _ hinner hread
  case isFalse h =>
  rw [if_neg h]
  split at hread
  case isTrue h =>
    rw [if_pos h]
    exact relocates_bytes.flow _ hinner hread
  case isFalse h =>
  rw [if_neg h]
  split at hread
  case isTrue h =>
    rw [if_pos h]
    exact (relocates_buf 16).flow _ hinner hread
  case isFalse h =>
  rw [if_neg h]
  split at hread
  case isTrue h =>
    rw [if_pos h]
    exact (relocates_buf 32).flow _ hinner hread
  case isFalse h =>
  rw [if_neg h]
  cases hvector : vectorElem type with
  | some elem =>
    rw [hvector] at hread
    exact relocated_vector hobject elem hinner hread
  | none =>
    rw [hvector] at hread
    exact hobject.flow _ hinner hread

theorem relocates_args (args : List Arg) (flags : List UInt32) :
    Relocates model before after (deserializeArgs model readObject flags args)
      (deserializeArgs model rereadObject flags args) := by
  induction args generalizing flags with
  | nil => exact relocates_pure []
  | cons arg rest ih =>
    have hskip : Relocates model before after
        (fun cursor ↦ (deserializeArgs model readObject flags rest cursor).bind fun result ↦
          some (zeroField arg :: result.1, result.2))
        (fun cursor ↦ (deserializeArgs model rereadObject flags rest cursor).bind fun result ↦
          some (zeroField arg :: result.1, result.2)) :=
      (ih flags).bind fun fields ↦ relocates_pure (zeroField arg :: fields)
    intro inner outer result next hinner hread
    rw [deserializeArgs] at hread ⊢
    cases htype : arg.type with
    | none =>
      simp only [htype] at hread ⊢
      split at hread
      case isTrue hflags =>
        rw [if_pos hflags]
        have hword : Relocates model before after
            (fun cursor ↦ (deserializeUi32 model cursor).bind fun word ↦
              (deserializeArgs model readObject (flags ++ [word.1]) rest word.2).bind fun result ↦
                some (zeroField arg :: result.1, result.2))
            (fun cursor ↦ (deserializeUi32 model cursor).bind fun word ↦
              (deserializeArgs model rereadObject (flags ++ [word.1]) rest word.2).bind fun result ↦
                some (zeroField arg :: result.1, result.2)) :=
          relocates_ui32.bind fun word ↦ (ih (flags ++ [word])).bind fun fields ↦
            relocates_pure (zeroField arg :: fields)
        exact hword inner outer result next hinner hread
      case isFalse hflags =>
        rw [if_neg hflags]
        exact hskip inner outer result next hinner hread
    | some type =>
      simp only [htype] at hread ⊢
      rw [Option.bind_eq_bind, Option.bind_eq_some_iff] at hread
      obtain ⟨present, hpresent, hargs⟩ := hread
      rw [hpresent, Option.bind_eq_bind, Option.bind_some]
      cases present with
      | false => exact hskip inner outer result next hinner hargs
      | true =>
        rw [if_pos rfl, Option.bind_eq_bind, Option.bind_eq_some_iff] at hargs
        obtain ⟨flow, hflow, hfields⟩ := hargs
        obtain ⟨moved, hmoved, hrelated⟩ := relocated_value hobject type hinner hflow
        rw [if_pos rfl, hmoved, Option.bind_eq_bind, Option.bind_some]
        cases hrelated with
        | next field hmiddle =>
          have hgo : Relocates model before after _ _ :=
            (ih flags).bind fun fields ↦ relocates_pure (field :: fields)
          exact hgo _ _ result next hmiddle hfields
        | stop field hmiddle =>
          cases hfields
          exact ⟨_, rfl, hmiddle⟩

theorem relocates_method (method : Method) :
    Relocates model before after (deserializeMethod model readObject method)
      (deserializeMethod model rereadObject method) := by
  intro inner outer result next hinner hread
  rw [deserializeMethod, Option.bind_eq_bind, Option.bind_eq_some_iff] at hread
  obtain ⟨buf, hbuf, hrest⟩ := hread
  rw [Option.bind_eq_bind, Option.bind_eq_some_iff] at hrest
  obtain ⟨⟨id, middle⟩, hid, hbody⟩ := hrest
  obtain ⟨moved, hmoved, hmiddle⟩ := relocates_ui32 inner outer id middle hinner hid
  rw [deserializeMethod, hinner.size, hinner.addBuf hbuf, Option.bind_eq_bind, Option.bind_some,
    hmoved, Option.bind_eq_bind, Option.bind_some]
  dsimp only at hbody ⊢
  split at hbody
  case isTrue hname =>
    rw [if_pos hname]
    rw [Option.bind_eq_bind, Option.bind_eq_some_iff] at hbody
    obtain ⟨⟨len, third⟩, hlen, hdata⟩ := hbody
    obtain ⟨moved, hmoved, hthird⟩ := relocates_ui32 middle moved len third hmiddle hlen
    rw [Option.bind_eq_some_iff] at hdata
    obtain ⟨data, hdata, hargs⟩ := hdata
    rw [hmoved, Option.bind_eq_bind, Option.bind_some]
    dsimp only
    rw [hthird.size, hthird.addBuf hdata, Option.bind_some]
    have hgo : Relocates model before after _ _ :=
      (relocates_args hobject method.args []).bind fun fields ↦
        relocates_pure (TlObj.mk id buf (.int len :: .buf data :: fields))
    exact hgo third moved result next hthird hargs
  case isFalse hname =>
    rw [if_neg hname]
    have hgo : Relocates model before after _ _ :=
      (relocates_args hobject method.args []).bind fun fields ↦
        relocates_pure (TlObj.mk id buf fields)
    exact hgo middle moved result next hmiddle hbody

end Object

/-! ## Objects -/

/-- More fuel, and a larger block, give the same object. -/
theorem relocates_tlDeserializeFuel (table : List Method) {fuel more : ℕ} (hle : fuel ≤ more) :
    Relocates model before after (tlDeserializeFuel model table fuel)
      (tlDeserializeFuel model table more) := by
  induction fuel generalizing more with
  | zero =>
    intro inner outer result next hinner hread
    cases hread
  | succ fuel ih =>
    obtain ⟨more, rfl⟩ : ∃ less, more = less + 1 := ⟨more - 1, by omega⟩
    intro inner outer result next hinner hread
    rw [tlDeserializeFuel, Option.bind_eq_bind, Option.bind_eq_some_iff] at hread
    obtain ⟨bytes, hbytes, hrest⟩ := hread
    rw [tlDeserializeFuel, hinner.read hbytes, Option.bind_eq_bind, Option.bind_some]
    split at hrest
    case isTrue hzero =>
      rw [if_pos hzero]
      cases hrest
      exact ⟨outer, rfl, hinner⟩
    case isFalse hid =>
      rw [if_neg hid]
      cases hfun : getFun table (getUi32 bytes) with
      | none =>
        rw [hfun] at hrest
        cases hrest
        exact ⟨outer, rfl, hinner⟩
      | some method =>
        rw [hfun] at hrest
        have hgo : Relocates model before after _ _ :=
          (relocates_method (ih (Nat.le_of_succ_le_succ hle)) method).bind fun tl ↦
            relocates_pure (some tl)
        exact hgo inner outer result next hinner hrest

/-- The bytes of a message that `tl_deserialize` reads without leaving them, as the given object or
as `NULL`. -/
def Decodes (model : DataModel) (table : List Method) (bytes : Bytes) (tl : Option TlObj) : Prop :=
  ∃ cursor, tlDeserialize model table (cursorAt bytes [] 0) = some (tl, cursor)

/-- A message at the end of a buffer is read as on its own, whatever stands before it and after the
buffer. -/
theorem Decodes.at_end {table : List Method} {bytes : Bytes} {tl : Option TlObj}
    (h : Decodes model table bytes tl) (before slack : Bytes) {fuel : ℕ} (hfuel : bytes.length < fuel)
    (hfits : (before ++ bytes ++ slack).length < 2 ^ 32) :
    ∃ cursor, tlDeserializeFuel model table fuel
      (cursorAt (before ++ bytes) slack before.length) = some (tl, cursor) := by
  obtain ⟨cursor, hcursor⟩ := h
  have hstart : Relocated model before slack (cursorAt bytes [] 0)
      (cursorAt (before ++ bytes) slack before.length) := by
    constructor
    · rw [cursorAt, cursorAt, List.append_nil, List.append_assoc]
    · rw [List.length_append, List.length_append] at hfits
      cases model with
      | ilp32 =>
        simp only [cursorAt, ptrAdd]
        omega
      | lp64 =>
        simp only [cursorAt, ptrAdd]
        omega
    · rw [cursorAt, cursorAt, List.length_append, Nat.add_sub_cancel_left, Nat.sub_zero]
    · rw [cursorAt]
      exact hfits
  have henough : (cursorAt bytes [] 0).block.length + 1 ≤ fuel := by
    rw [cursorAt, List.append_nil]
    exact hfuel
  obtain ⟨moved, hmoved, -⟩ :=
    relocates_tlDeserializeFuel table henough _ _ tl cursor hstart hcursor
  exact ⟨moved, hmoved⟩

/-- A message at the start of a block is read as on its own. -/
theorem Decodes.at_start {table : List Method} {bytes : Bytes} {tl : Option TlObj}
    (h : Decodes model table bytes tl) (slack : Bytes)
    (hfits : (bytes ++ slack).length < 2 ^ 32) :
    ∃ cursor, tlDeserialize model table (cursorAt bytes slack 0) = some (tl, cursor) := by
  have hfuel : bytes.length < (cursorAt bytes slack 0).block.length + 1 := by
    rw [cursorAt, List.length_append]
    omega
  exact h.at_end [] slack hfuel hfits

end LibTg.Tl
