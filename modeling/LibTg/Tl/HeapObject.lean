import LibTg.Data.Ledger
import LibTg.Tl.Deserialize
import LibTg.Tl.Emitters

/-!
# What the emitted functions do to the heap

The members of a struct are found by their names, which the struct declares, the decoder assigns and
the destructor reads. Blocks are numbered in the order in which they are allocated. A decoder allocates
the object, the copies that its readers make, and an array for every vector that is not empty;
allocations succeed. What `deserialize_bytes` allocates for itself is not part of any object.

A `HeapObj` holds the values of its members in the order of the struct. The constructor whose decoder
has made it and the flags words that were read stand there as history.
-/

namespace LibTg.Tl

mutual

/-- A struct in the heap. -/
inductive HeapObj where
  | mk (block : ℕ) (method : Method) (flags : List UInt32) (values : List HeapValue)

/-- The value of a member or of an element. `zero` is what `NEW` has left there. -/
inductive HeapValue where
  | zero
  | word (value : UInt32)
  | long (value : UInt64)
  | double (bits : UInt64)
  | bool (value : Bool)
  | buf (block : ℕ) (bytes : Bytes)
  | message (message : MtpMessage) (block : ℕ)
  | pointer (object : Option HeapObj)
  | array (block : ℕ) (elems : List HeapValue)

end

/-- The block of the struct. -/
def HeapObj.block : HeapObj → ℕ
  | .mk block _ _ _ => block

/-- The constructor that the object was made for. -/
def HeapObj.method : HeapObj → Method
  | .mk _ method _ _ => method

/-- The flags words that its decoder has read. -/
def HeapObj.flags : HeapObj → List UInt32
  | .mk _ _ flags _ => flags

/-- The values of the members. -/
def HeapObj.values : HeapObj → List HeapValue
  | .mk _ _ _ values => values

/-- `tl->_id`, at the beginning of every struct. -/
def HeapObj.id (obj : HeapObj) : UInt32 :=
  match obj.values with
  | .word id :: _ => id
  | _ => 0

/-- `tl->_buf`, behind the id. -/
def HeapObj.buf (obj : HeapObj) : Bytes :=
  match obj.values with
  | _ :: .buf _ bytes :: _ => bytes
  | _ => []

mutual

/-- The blocks that can be reached from an object. -/
def HeapObj.owned : HeapObj → List ℕ
  | .mk block _ _ values => block :: HeapValue.ownedAll values

/-- The blocks that can be reached from a value. -/
def HeapValue.owned : HeapValue → List ℕ
  | .buf block _ => [block]
  | .message _ block => [block]
  | .pointer (some obj) => obj.owned
  | .array block elems => block :: HeapValue.ownedAll elems
  | _ => []

/-- The blocks that can be reached from several values. -/
def HeapValue.ownedAll : List HeapValue → List ℕ
  | [] => []
  | value :: rest => value.owned ++ HeapValue.ownedAll rest

end

/-! ## The members of a struct -/

/-- The members of a struct with their values. -/
abbrev Memory := List (List Char × HeapValue)

/-- A struct that has just been allocated. -/
def Memory.new (method : Method) : Memory :=
  (appendStruct method).map fun member ↦ (member.name, .zero)

/-- `obj->name = value`, for a name that is declared. -/
def Memory.set (memory : Memory) (name : List Char) (value : HeapValue) : Option Memory :=
  if name ∈ memory.map Prod.fst then
    some (memory.map fun member ↦ if member.1 = name then (name, value) else member)
  else none

/-- `tl->name`, for a name that is declared. -/
def Memory.get (memory : Memory) (name : List Char) : Option HeapValue := memory.lookup name

/-- The struct behind a pointer that has been cast to the type for a constructor. -/
def HeapObj.memory (obj : HeapObj) (method : Method) : Memory :=
  ((appendStruct method).map Member.name).zip obj.values

/-! ## The decoder -/

section Decode

variable (model : DataModel)

/-- What reading an object can give, with the number of the next block before and after it. -/
abbrev HeapReader := Cursor → ℕ → Option (Option HeapObj × Cursor × ℕ)

/-- The state of a decoder: the flags words, `obj`, `buf`, and the number of the next block. -/
structure Decoding where
  flags : List UInt32
  memory : Memory
  cursor : Cursor
  next : ℕ

/-- How an assignment ends: the function goes on, or it returns because of the length of a vector. -/
inductive Ending where
  | next (decoding : Decoding)
  | stop (decoding : Decoding)

section Statements

variable (readObject : HeapReader)

def readValue : Reader → Cursor → ℕ → Option (HeapValue × Cursor × ℕ)
  | .ui32, cursor, next => (deserializeUi32 model cursor).map fun (value, cursor) ↦
      (.word value, cursor, next)
  | .ui64, cursor, next => (deserializeUi64 model cursor).map fun (value, cursor) ↦
      (.long value, cursor, next)
  | .double, cursor, next => (deserializeDouble model cursor).map fun (bits, cursor) ↦
      (.double bits, cursor, next)
  | .bytes, cursor, next => (deserializeBytes model cursor).map fun (bytes, cursor) ↦
      (.buf next bytes, cursor, next + 1)
  | .buf size, cursor, next => (deserializeBuf model cursor size).map fun (bytes, cursor) ↦
      (.buf next bytes, cursor, next + 1)
  | .copy, cursor, next => (cursor.addBuf cursor.size.toNat).map fun bytes ↦
      (.buf next bytes, cursor, next + 1)
  | .message, cursor, next => (deserializeMtpMessage model cursor).map fun (message, cursor) ↦
      (.message message next, cursor, next + 1)
  | .object, cursor, next => (readObject cursor next).map fun (object, cursor, next) ↦
      (.pointer object, cursor, next)

/-- The loop over the elements of a vector. -/
def readValues (reader : Reader) : ℕ → Cursor → ℕ → Option (List HeapValue × Cursor × ℕ)
  | 0, cursor, next => some ([], cursor, next)
  | count + 1, cursor, next => do
    let (first, cursor, next) ← readValue model readObject reader cursor next
    let (rest, cursor, next) ← readValues reader count cursor next
    some (first :: rest, cursor, next)

def runAssign : Assign → Decoding → Option Ending
  | .true member, decoding => do
    let memory ← decoding.memory.set member (.bool Bool.true)
    some (.next { decoding with memory })
  | .read member reader, decoding => do
    let (value, cursor, next) ← readValue model readObject reader decoding.cursor decoding.next
    let memory ← decoding.memory.set member value
    some (.next { decoding with memory, cursor, next })
  | .vector len array _ reader, decoding => do
    let (count, cursor) ← deserializeLen model decoding.cursor
    let memory ← decoding.memory.set len (.word count)
    if intOfUi32 count < 0 ∨ 10000 < intOfUi32 count then
      some (.stop { decoding with memory, cursor })
    else if count = 0 then some (.next { decoding with memory, cursor })
    else do
      let (elems, cursor, next) ←
        readValues model readObject reader count.toNat cursor (decoding.next + 1)
      let memory ← memory.set array (.array decoding.next elems)
      some (.next { decoding with memory, cursor, next })

/-- The test of a flag. Without a variable `flagK` there is no program. -/
def flagTest (flags : List UInt32) (flagn flagb : ℕ) : Option Bool :=
  if flagn = 0 then some true
  else (flags[flagn - 1]?).map fun word ↦ word &&& flagBit flagb = flagBit flagb

def runDecodeStmts : List DecodeStmt → Decoding → Option Decoding
  | [], decoding => some decoding
  | .flags :: rest, decoding => do
    let (word, cursor) ← deserializeUi32 model decoding.cursor
    runDecodeStmts rest { decoding with flags := decoding.flags ++ [word], cursor }
  | .assign flagn flagb assign :: rest, decoding => do
    if ← flagTest decoding.flags flagn flagb then
      match ← runAssign model readObject assign decoding with
      | .next decoding => runDecodeStmts rest decoding
      | .stop decoding => some decoding
    else runDecodeStmts rest decoding

/-- The emitted decoder of a constructor. A struct that declares a name twice does not compile. -/
def heapDeserializeMethod (method : Method) (cursor : Cursor) (next : ℕ) :
    Option (HeapObj × Cursor × ℕ) := do
  if ((appendStruct method).map Member.name).Nodup then
    let decoding ← runDecodeStmts model readObject (appendDeserializeTable method)
      ⟨[], Memory.new method, cursor, next + 1⟩
    some (.mk next method decoding.flags (decoding.memory.map Prod.snd), decoding.cursor,
      decoding.next)
  else none

end Statements

/-- `tl_deserialize`, up to a nesting depth of `fuel`. -/
def heapDeserializeFuel (table : List Method) : ℕ → HeapReader
  | 0, _, _ => none
  | fuel + 1, cursor, next => do
    let bytes ← cursor.read 4
    if getUi32 bytes = 0 then some (none, cursor, next)
    else
      match getFun table (getUi32 bytes) with
      | none => some (none, cursor, next)
      | some method => do
        let (obj, cursor, next) ←
          heapDeserializeMethod model (heapDeserializeFuel table fuel) method cursor next
        some (some obj, cursor, next)

end Decode

/-! ## The destructor -/

section Free

variable (tlFree : HeapObj → Option (List ℕ))

/-- The blocks that a call releases. A `mtp_message_t` has no member `body_`. -/
def callFree : FreeCall → HeapValue → Option (List ℕ)
  | .tlFree, .zero => some []
  | .tlFree, .pointer none => some []
  | .tlFree, .pointer (some obj) => tlFree obj
  | .bufFree, .zero => some []
  | .bufFree, .buf block _ => some [block]
  | _, _ => none

/-- What is released for a value, if there is a call for it. -/
def freeValue : Option FreeCall → HeapValue → Option (List ℕ)
  | none, _ => some []
  | some call, value => callFree tlFree call value

/-- What is released for the elements of an array. -/
def freeAll (call : Option FreeCall) : List HeapValue → Option (List ℕ)
  | [] => some []
  | value :: rest => Holding.releaseBoth (freeValue tlFree call value) (freeAll call rest)

/-- The length of a vector, an `int`. -/
def HeapValue.length : HeapValue → ℤ
  | .word count => intOfUi32 count
  | _ => 0

/-- The loop over a vector. Without an array there is nothing that it can read. -/
def freeLoop (call : Option FreeCall) (length : ℤ) (array : HeapValue) : Option (List ℕ) :=
  if call = none ∨ length ≤ 0 then some []
  else
    match array with
    | .array _ elems =>
      if length ≤ elems.length then freeAll tlFree call (elems.take length.toNat) else none
    | _ => none

def freeArray : HeapValue → Option (List ℕ)
  | .zero => some []
  | .array block _ => some [block]
  | _ => none

/-- The blocks that a statement of a destructor releases. -/
def runFreeStmt (memory : Memory) : FreeStmt → Option (List ℕ)
  | .call freeCall member => (memory.get member).bind (callFree tlFree freeCall)
  | .vector len array call =>
    (memory.get len).bind fun count ↦ (memory.get array).bind fun cells ↦
      Holding.releaseBoth (freeLoop tlFree call count.length cells) (freeArray cells)

/-- The statements of a destructor. -/
def runFreeStmts (memory : Memory) : List FreeStmt → Option (List ℕ)
  | [] => some []
  | stmt :: rest => Holding.releaseBoth (runFreeStmt tlFree memory stmt) (runFreeStmts memory rest)

/-- The emitted destructor of a constructor. -/
def freeMethod (method : Method) (obj : HeapObj) : Option (List ℕ) :=
  Holding.releaseBoth (runFreeStmts tlFree (obj.memory method) (appendFree method))
    (some [obj.block])

end Free

/-- `tl_free`, up to a nesting depth of `fuel`. The table of the destructors is in the order of the
table of the decoders. -/
def tlFreeFuel (table : List Method) : ℕ → HeapObj → Option (List ℕ)
  | 0, _ => none
  | fuel + 1, obj =>
    match getFun table obj.id with
    | none => some []
    | some method => freeMethod (tlFreeFuel table fuel) method obj

end LibTg.Tl
