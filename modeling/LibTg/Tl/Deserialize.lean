import LibTg.Tl.Cursor
import LibTg.Tl.Schema

/-!
# The emitted decoders (`append_deserialize_table`)

For every constructor `append_deserialize_table` emits a C function `tl_deserialize_<name>` that
fills the fields of a zeroed struct from a buffer, and an entry of `tl_deserialize_table` that maps
the constructor id to the function. `tlDeserialize` looks an id up in this table. Objects inside an
object are read by a recursive call.
-/

namespace LibTg.Tl

mutual

/-- A `tl_t`: the constructor id, the copy of the buffer it was read from, and its fields. -/
inductive TlObj where
  | mk (id : UInt32) (buf : Bytes) (fields : List Field)

/-- One field of the struct behind a `tl_t`, in the place of the argument it comes from. A flags
word has no field; `none` stands in its place. -/
inductive Field where
  | none
  | int (value : UInt32)
  | long (value : UInt64)
  | double (bits : UInt64)
  | bool (value : Bool)
  | buf (bytes : Bytes)
  | message (message : MtpMessage)
  | object (tl : Option TlObj)
  | vector (len : UInt32) (elems : List Field)

end

def TlObj.id : TlObj → UInt32
  | .mk id _ _ => id

def TlObj.buf : TlObj → Bytes
  | .mk _ buf _ => buf

/-- The other fields. -/
def TlObj.fields : TlObj → List Field
  | .mk _ _ fields => fields

/-- The field of an argument in a zeroed struct. -/
def zeroField (arg : Arg) : Field :=
  match arg.type with
  | none => if arg.isFlags then .none else .int 0
  | some type =>
    if type = "int" then .int 0
    else if type = "true" ∨ type = "bool" then .bool false
    else if type = "long" then .long 0
    else if type = "double" then .double 0
    else if type = "string" ∨ type = "bytes" ∨ type = "int128" ∨ type = "int256" then .buf []
    else if (vectorElem type).isSome then .vector 0 []
    else .object none

section Deserialize

variable (model : DataModel)

/-- What reading an object can give: nothing for a fault, `none` for `NULL`. -/
abbrev ObjectReader := Cursor → Option (Option TlObj × Cursor)

section Fields

variable (readObject : ObjectReader)

/-- The body of the loop over the elements of a vector. -/
def deserializeElem (elem : String) (cursor : Cursor) : Option (Field × Cursor) :=
  if elem = "int" then (deserializeUi32 model cursor).map (Prod.map .int id)
  else if elem = "bool" then (deserializeUi32 model cursor).map (Prod.map (.bool <| · ≠ 0) id)
  else if elem = "long" then (deserializeUi64 model cursor).map (Prod.map .long id)
  else if elem = "double" then (deserializeDouble model cursor).map (Prod.map .double id)
  else if elem = "string" ∨ elem = "bytes" then
    (deserializeBytes model cursor).map (Prod.map .buf id)
  else if elem = "%Message" then (deserializeMtpMessage model cursor).map (Prod.map .message id)
  else (readObject cursor).map (Prod.map .object id)

/-- The loop over the elements of a vector. -/
def deserializeElems (elem : String) : ℕ → Cursor → Option (List Field × Cursor)
  | 0, cursor => some ([], cursor)
  | count + 1, cursor => do
    let (first, cursor) ← deserializeElem model readObject elem cursor
    let (rest, cursor) ← deserializeElems elem count cursor
    some (first :: rest, cursor)

/-- How the statements of one argument end: the function goes on, or it returns at once because of
a vector length that is negative or above 10000. -/
inductive Flow where
  | next (field : Field) (cursor : Cursor)
  | stop (field : Field) (cursor : Cursor)

/-- The length of a vector. The vector constructor is skipped if it is there. -/
def deserializeLen (cursor : Cursor) : Option (UInt32 × Cursor) := do
  let first ← deserializeUi32 model cursor
  if first.1 = idVector then deserializeUi32 model first.2 else some first

/-- The statements for a vector argument. -/
def deserializeVector (elem : String) (cursor : Cursor) : Option Flow := do
  let (len, cursor) ← deserializeLen model cursor
  if intOfUi32 len < 0 ∨ 10000 < intOfUi32 len then some (.stop (.vector len []) cursor)
  else do
    let (elems, cursor) ← deserializeElems model readObject elem len.toNat cursor
    some (.next (.vector len elems) cursor)

/-- The statements for a present argument. -/
def deserializeValue (type : String) (cursor : Cursor) : Option Flow :=
  let next {α : Type} (field : α → Field) (read : Option (α × Cursor)) : Option Flow :=
    read.map fun result ↦ .next (field result.1) result.2
  if type = "int" then next .int (deserializeUi32 model cursor)
  else if type = "true" then some (.next (.bool true) cursor)
  else if type = "bool" then next (.bool <| · ≠ 0) (deserializeUi32 model cursor)
  else if type = "long" then next .long (deserializeUi64 model cursor)
  else if type = "double" then next .double (deserializeDouble model cursor)
  else if type = "string" ∨ type = "bytes" then next .buf (deserializeBytes model cursor)
  else if type = "int128" then next .buf (deserializeBuf model cursor 16)
  else if type = "int256" then next .buf (deserializeBuf model cursor 32)
  else
    match vectorElem type with
    | some elem => deserializeVector model readObject elem cursor
    | none => next .object (readObject cursor)

/-- The test `(flagK & (1 << b)) == (1 << b)` for an argument under a flag, with the flags words
read so far; without a variable `flagK` there is no program. -/
def argPresent (flags : List UInt32) (arg : Arg) : Option Bool :=
  if arg.flagn = 0 then some true
  else (flags[arg.flagn - 1]?).map fun word ↦ word &&& flagBit arg.flagb = flagBit arg.flagb

/-- The statements for the arguments, with the flags words read so far. -/
def deserializeArgs : List UInt32 → List Arg → Cursor → Option (List Field × Cursor)
  | _, [], cursor => some ([], cursor)
  | flags, arg :: rest, cursor =>
    match arg.type with
    | none =>
      if arg.isFlags then do
        let (word, cursor) ← deserializeUi32 model cursor
        let (fields, cursor) ← deserializeArgs (flags ++ [word]) rest cursor
        some (zeroField arg :: fields, cursor)
      else do
        let (fields, cursor) ← deserializeArgs flags rest cursor
        some (zeroField arg :: fields, cursor)
    | some type => do
      if ← argPresent flags arg then
        match ← deserializeValue model readObject type cursor with
        | .next field cursor => do
          let (fields, cursor) ← deserializeArgs flags rest cursor
          some (field :: fields, cursor)
        | .stop field cursor => some (field :: rest.map zeroField, cursor)
      else do
        let (fields, cursor) ← deserializeArgs flags rest cursor
        some (zeroField arg :: fields, cursor)

section Args

variable {model : DataModel} {readObject : ObjectReader} {flags : List UInt32} {arg : Arg}
  {rest : List Arg}

theorem deserializeArgs_flags (htype : arg.type = none) (hflags : arg.isFlags = true)
    (cursor : Cursor) :
    deserializeArgs model readObject flags (arg :: rest) cursor =
      (deserializeUi32 model cursor).bind fun word ↦
        (deserializeArgs model readObject (flags ++ [word.1]) rest word.2).map
          (Prod.map (zeroField arg :: ·) id) := by
  simp only [deserializeArgs, htype, hflags, if_true, Option.bind_eq_bind, Option.map_eq_bind]
  rfl

theorem deserializeArgs_untyped (htype : arg.type = none) (hflags : arg.isFlags = false)
    (cursor : Cursor) :
    deserializeArgs model readObject flags (arg :: rest) cursor =
      (deserializeArgs model readObject flags rest cursor).map
        (Prod.map (zeroField arg :: ·) id) := by
  simp only [deserializeArgs, htype, hflags, Bool.false_eq_true, if_false, Option.bind_eq_bind,
    Option.map_eq_bind]
  rfl

theorem deserializeArgs_absent {type : String} (htype : arg.type = some type)
    (hpresent : argPresent flags arg = some false) (cursor : Cursor) :
    deserializeArgs model readObject flags (arg :: rest) cursor =
      (deserializeArgs model readObject flags rest cursor).map
        (Prod.map (zeroField arg :: ·) id) := by
  simp only [deserializeArgs, htype, hpresent, Bool.false_eq_true, if_false, Option.bind_eq_bind,
    Option.bind_some, Option.map_eq_bind]
  rfl

theorem deserializeArgs_present {type : String} (htype : arg.type = some type)
    (hpresent : argPresent flags arg = some true) (cursor : Cursor) :
    deserializeArgs model readObject flags (arg :: rest) cursor =
      (deserializeValue model readObject type cursor).bind fun
        | .next field cursor =>
          (deserializeArgs model readObject flags rest cursor).map (Prod.map (field :: ·) id)
        | .stop field cursor => some (field :: rest.map zeroField, cursor) := by
  simp only [deserializeArgs, htype, hpresent, if_true, Option.bind_eq_bind, Option.bind_some,
    Option.map_eq_bind]
  rfl

end Args

/-- The function that `append_deserialize_table` emits for a constructor. The constructor `vector`
has two more fields, its length and a copy of the remaining bytes. -/
def deserializeMethod (method : Method) (cursor : Cursor) : Option (TlObj × Cursor) := do
  let buf ← cursor.addBuf cursor.size.toNat
  let (id, cursor) ← deserializeUi32 model cursor
  if method.name = "vector" then
    let (len, cursor) ← deserializeUi32 model cursor
    let data ← cursor.addBuf cursor.size.toNat
    let (fields, cursor) ← deserializeArgs model readObject [] method.args cursor
    some (.mk id buf (.int len :: .buf data :: fields), cursor)
  else
    let (fields, cursor) ← deserializeArgs model readObject [] method.args cursor
    some (.mk id buf fields, cursor)

end Fields

/-- `get_fun`: the first entry of the table with this id. -/
def getFun (table : List Method) (id : UInt32) : Option Method :=
  table.find? fun method ↦ method.id = id

/-- `tl_deserialize`, up to a nesting depth of `fuel`. -/
def tlDeserializeFuel (table : List Method) : ℕ → ObjectReader
  | 0, _ => none
  | fuel + 1, cursor => do
    let bytes ← cursor.read 4
    if getUi32 bytes = 0 then some (none, cursor)
    else
      match getFun table (getUi32 bytes) with
      | none => some (none, cursor)
      | some method => do
        let (tl, cursor) ←
          deserializeMethod model (tlDeserializeFuel table fuel) method cursor
        some (some tl, cursor)

/-- `tl_deserialize`. Every nested object takes four bytes of the block for its id, so that its
length bounds the nesting depth. -/
def tlDeserialize (table : List Method) (cursor : Cursor) : Option (Option TlObj × Cursor) :=
  tlDeserializeFuel model table (cursor.block.length + 1) cursor

end Deserialize

end LibTg.Tl
