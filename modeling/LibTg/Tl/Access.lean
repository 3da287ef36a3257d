import LibTg.Tl.Deserialize

/-!
# The bytes that the decoders read

For every deserializer of `tl/deserialize.c` and every emitted decoder, the list of its accesses to
the buffer: where the cursor stands, how many bytes are read there, and where the cursor stands
afterwards. A list ends with the access that has left the block, if there is one.
-/

namespace LibTg.Tl

/-- The offset of a cursor and the remaining size make up the length of the buffer. -/
def Cursor.InStep (length : ℕ) (cursor : Cursor) : Prop :=
  0 ≤ cursor.off ∧ cursor.off + cursor.size.toNat = length

/-- What bytes are read for: the value of a field or its length, a constructor id that
`tl_deserialize` looks up, or a dump. -/
inductive Purpose where
  | value
  | id
  | dump
  deriving DecidableEq

/-- Reading `count` bytes at `before` and going on at `after`. -/
structure Access where
  before : Cursor
  count : ℕ
  after : Cursor
  purpose : Purpose
  deriving DecidableEq

/-- The access stays inside a buffer of the given length, the cursor is in step before and after it,
and the size does not wrap. -/
def Access.Inside (length : ℕ) (access : Access) : Prop :=
  access.before.InStep length ∧ access.before.off + access.count ≤ length ∧
    access.after.InStep length ∧ access.after.size.toNat ≤ access.before.size.toNat

instance (length : ℕ) (cursor : Cursor) : Decidable (cursor.InStep length) :=
  inferInstanceAs (Decidable (_ ∧ _))

instance (length : ℕ) (access : Access) : Decidable (access.Inside length) :=
  inferInstanceAs (Decidable (_ ∧ _ ∧ _ ∧ _))

/-- `buf_add(data, count)`. -/
def accessCopy (cursor : Cursor) (count : ℕ) : Access := ⟨cursor, count, cursor, .value⟩

section Deserialize

variable (model : DataModel)

/-- `data += count; size -= count`. -/
def accessSkip (cursor : Cursor) (count : ℕ) : Access :=
  ⟨cursor, 0, cursor.advance model count, .value⟩

/-- The accesses of `deserialize_ui32`. -/
def accessesUi32 (cursor : Cursor) : List Access := [⟨cursor, 4, cursor.advance model 4, .value⟩]

/-- The accesses of `deserialize_ui64` and of `deserialize_double`. -/
def accessesUi64 (cursor : Cursor) : List Access := [⟨cursor, 8, cursor.advance model 8, .value⟩]

/-- The accesses of `deserialize_buf`. -/
def accessesBuf (cursor : Cursor) (size : ℤ) : List Access :=
  [⟨cursor, (UInt32.ofInt size).toNat, cursor.advance model size, .value⟩]

/-- The accesses of the end of `deserialize_bytes`. -/
def accessesTail (cursor : Cursor) (len offset : ℕ) : List Access :=
  accessCopy cursor len :: (cursor.addBuf len).elim [] fun _ ↦
    let next := cursor.advance model len
    let pad := (4 - (len + offset) % 4) % 4
    accessSkip model cursor len :: if pad ≠ 0 then [accessSkip model next pad] else []

/-- The accesses of `deserialize_bytes`. -/
def accessesBytes (cursor : Cursor) : List Access :=
  accessCopy cursor 4 :: (cursor.addBuf 4).elim [] fun byte ↦
    let first := byte.headD 0
    if first ≤ 253 then
      accessSkip model cursor 1 :: accessesTail model (cursor.advance model 1) first.toNat 1
    else
      accessSkip model cursor 4 ::
        accessesTail model (cursor.advance model 4) (leNat (byte.drop 1)) 0

/-- The accesses of `deserialize_mtp_message`. -/
def accessesMtpMessage (cursor : Cursor) : List Access :=
  accessesUi64 model cursor ++ (deserializeUi64 model cursor).elim [] fun msgId ↦
    accessesUi32 model msgId.2 ++ (deserializeUi32 model msgId.2).elim [] fun seqno ↦
      accessesUi32 model seqno.2 ++ (deserializeUi32 model seqno.2).elim [] fun bytes ↦
        accessesBuf model bytes.2 (intOfUi32 bytes.1)

section Fields

variable (readObject : ObjectReader) (objectAccesses : Cursor → List Access)

/-- The accesses of the body of the loop over the elements of a vector. -/
def accessesElem (elem : String) (cursor : Cursor) : List Access :=
  if elem = "int" ∨ elem = "bool" then accessesUi32 model cursor
  else if elem = "long" ∨ elem = "double" then accessesUi64 model cursor
  else if elem = "string" ∨ elem = "bytes" then accessesBytes model cursor
  else if elem = "%Message" then accessesMtpMessage model cursor
  else objectAccesses cursor

/-- The accesses of the loop over the elements of a vector. -/
def accessesElems (elem : String) : ℕ → Cursor → List Access
  | 0, _ => []
  | count + 1, cursor =>
    accessesElem model objectAccesses elem cursor ++
      (deserializeElem model readObject elem cursor).elim [] fun first ↦
        accessesElems elem count first.2

/-- The accesses for the length of a vector. -/
def accessesLen (cursor : Cursor) : List Access :=
  accessesUi32 model cursor ++ (deserializeUi32 model cursor).elim [] fun first ↦
    if first.1 = idVector then accessesUi32 model first.2 else []

/-- The accesses of the statements for a vector argument. -/
def accessesVector (elem : String) (cursor : Cursor) : List Access :=
  accessesLen model cursor ++ (deserializeLen model cursor).elim [] fun len ↦
    if intOfUi32 len.1 < 0 ∨ 10000 < intOfUi32 len.1 then []
    else accessesElems model readObject objectAccesses elem len.1.toNat len.2

/-- The accesses of the statements for a present argument. -/
def accessesValue (type : String) (cursor : Cursor) : List Access :=
  if type = "int" ∨ type = "bool" then accessesUi32 model cursor
  else if type = "true" then []
  else if type = "long" ∨ type = "double" then accessesUi64 model cursor
  else if type = "string" ∨ type = "bytes" then accessesBytes model cursor
  else if type = "int128" then accessesBuf model cursor 16
  else if type = "int256" then accessesBuf model cursor 32
  else
    match vectorElem type with
    | some elem => accessesVector model readObject objectAccesses elem cursor
    | none => objectAccesses cursor

/-- The accesses of the statements for the arguments. -/
def accessesArgs : List UInt32 → List Arg → Cursor → List Access
  | _, [], _ => []
  | flags, arg :: rest, cursor =>
    match arg.type with
    | none =>
      if arg.isFlags then
        accessesUi32 model cursor ++ (deserializeUi32 model cursor).elim [] fun word ↦
          accessesArgs (flags ++ [word.1]) rest word.2
      else accessesArgs flags rest cursor
    | some type =>
      match argPresent flags arg with
      | none => []
      | some false => accessesArgs flags rest cursor
      | some true =>
        accessesValue model readObject objectAccesses type cursor ++
          (deserializeValue model readObject type cursor).elim [] fun
            | .next _ cursor => accessesArgs flags rest cursor
            | .stop _ _ => []

/-- The accesses of the function that `append_deserialize_table` emits for a constructor. -/
def accessesMethod (method : Method) (cursor : Cursor) : List Access :=
  [accessCopy cursor cursor.size.toNat] ++ (cursor.addBuf cursor.size.toNat).elim [] fun _ ↦
    accessesUi32 model cursor ++ (deserializeUi32 model cursor).elim [] fun id ↦
      if method.name = "vector" then
        accessesUi32 model id.2 ++ (deserializeUi32 model id.2).elim [] fun len ↦
          [accessCopy len.2 len.2.size.toNat] ++ (len.2.addBuf len.2.size.toNat).elim [] fun _ ↦
            accessesArgs model readObject objectAccesses [] method.args len.2
      else accessesArgs model readObject objectAccesses [] method.args id.2

end Fields

variable (table : List Method)

/-- The accesses of `tl_deserialize`, up to a nesting depth of `fuel`. An unknown id is reported with
a dump of the buffer. -/
def accessesFuel : ℕ → Cursor → List Access
  | 0, cursor => [⟨cursor, 4, cursor, .id⟩]
  | fuel + 1, cursor =>
    [⟨cursor, 4, cursor, .id⟩] ++ (cursor.read 4).elim [] fun bytes ↦
      if getUi32 bytes = 0 then []
      else
        match getFun table (getUi32 bytes) with
        | none => [⟨cursor, cursor.size.toNat, cursor, .dump⟩]
        | some method =>
          accessesMethod model (tlDeserializeFuel model table fuel) (accessesFuel fuel) method cursor

/-- The accesses of `tl_deserialize`. -/
def accesses (cursor : Cursor) : List Access :=
  accessesFuel model table (cursor.block.length + 1) cursor

end Deserialize

end LibTg.Tl
