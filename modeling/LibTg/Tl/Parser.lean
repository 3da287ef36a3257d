import LibTg.Tl.Deserialize

/-!
# Complete objects

The format that the emitted decoders are for, as a parser of byte strings. It takes every part from
the front of the rest of the input, and fails where the rest is too short for it. What it accepts
begins with a complete object: every length in it fits what comes after it.

An object with an unknown id has no length of its own. The parser ends it where it starts, which is
where the decoders go on.
-/

namespace LibTg.Tl

/-- The first `count` bytes, and the rest. -/
def takeBytes (count : ℕ) (input : Bytes) : Option (Bytes × Bytes) :=
  if count ≤ input.length then some (input.take count, input.drop count) else none

/-- A 32-bit word. -/
def parseUi32 (input : Bytes) : Option (UInt32 × Bytes) :=
  (takeBytes 4 input).map (Prod.map getUi32 id)

/-- A 64-bit word. -/
def parseUi64 (input : Bytes) : Option (UInt64 × Bytes) :=
  (takeBytes 8 input).map (Prod.map getUi64 id)

/-- A string of `len` bytes behind `offset` bytes of a word, filled up to whole words. -/
def parsePadded (len offset : ℕ) (input : Bytes) : Option (Bytes × Bytes) := do
  let (bytes, rest) ← takeBytes len input
  let (_, rest) ← takeBytes ((4 - (len + offset) % 4) % 4) rest
  some (bytes, rest)

/-- A string with its length in front. -/
def parseBytes (input : Bytes) : Option (Bytes × Bytes) := do
  let (word, _) ← takeBytes 4 input
  let first := word.headD 0
  if first ≤ 253 then parsePadded first.toNat 1 (input.drop 1)
  else parsePadded (leNat (word.drop 1)) 0 (input.drop 4)

section Model

variable (model : DataModel)

/-- A body that the cursor can be moved over: an `int` cannot hold a length from `2 ^ 31` on, so that
a 64-bit target would move it back. -/
def BodyLengthOk (len : UInt32) : Prop := model = .lp64 → len.toNat < 2 ^ 31

instance (len : UInt32) : Decidable (BodyLengthOk model len) :=
  inferInstanceAs (Decidable (_ → _))

def parseBody (len : UInt32) (input : Bytes) : Option (Bytes × Bytes) :=
  if BodyLengthOk model len then takeBytes len.toNat input else none

/-- A message of a container. -/
def parseMtpMessage (input : Bytes) : Option (MtpMessage × Bytes) := do
  let (msgId, rest) ← parseUi64 input
  let (seqno, rest) ← parseUi32 rest
  let (bytes, rest) ← parseUi32 rest
  let (body, rest) ← parseBody model bytes rest
  some (⟨longOfUi64 model msgId, intOfUi32 seqno, intOfUi32 bytes, body⟩, rest)

section Fields

variable (parseObject : Bytes → Option (Option TlObj × Bytes))

/-- An element of a vector. -/
def parseElem (elem : String) (input : Bytes) : Option (Field × Bytes) :=
  if elem = "int" then (parseUi32 input).map (Prod.map .int id)
  else if elem = "bool" then (parseUi32 input).map (Prod.map (.bool <| · ≠ 0) id)
  else if elem = "long" then (parseUi64 input).map (Prod.map .long id)
  else if elem = "double" then (parseUi64 input).map (Prod.map .double id)
  else if elem = "string" ∨ elem = "bytes" then (parseBytes input).map (Prod.map .buf id)
  else if elem = "%Message" then (parseMtpMessage model input).map (Prod.map .message id)
  else (parseObject input).map (Prod.map .object id)

/-- The elements of a vector. -/
def parseElems (elem : String) : ℕ → Bytes → Option (List Field × Bytes)
  | 0, input => some ([], input)
  | count + 1, input => do
    let (first, rest) ← parseElem model parseObject elem input
    let (others, rest) ← parseElems elem count rest
    some (first :: others, rest)

/-- The length of a vector, with or without the constructor in front. -/
def parseLen (input : Bytes) : Option (UInt32 × Bytes) := do
  let first ← parseUi32 input
  if first.1 = idVector then parseUi32 first.2 else some first

/-- A field and the rest of the input; after `stop` the object has no more fields. -/
inductive Part where
  | next (field : Field) (rest : Bytes)
  | stop (field : Field) (rest : Bytes)

/-- A vector. One with a length that the decoders refuse ends its object. -/
def parseVector (elem : String) (input : Bytes) : Option Part := do
  let (len, rest) ← parseLen input
  if intOfUi32 len < 0 ∨ 10000 < intOfUi32 len then some (.stop (.vector len []) rest)
  else do
    let (elems, rest) ← parseElems model parseObject elem len.toNat rest
    some (.next (.vector len elems) rest)

/-- A present argument. -/
def parseValue (type : String) (input : Bytes) : Option Part :=
  let next {α : Type} (field : α → Field) (parsed : Option (α × Bytes)) : Option Part :=
    parsed.map fun result ↦ .next (field result.1) result.2
  if type = "int" then next .int (parseUi32 input)
  else if type = "true" then some (.next (.bool true) input)
  else if type = "bool" then next (.bool <| · ≠ 0) (parseUi32 input)
  else if type = "long" then next .long (parseUi64 input)
  else if type = "double" then next .double (parseUi64 input)
  else if type = "string" ∨ type = "bytes" then next .buf (parseBytes input)
  else if type = "int128" then next .buf (takeBytes 16 input)
  else if type = "int256" then next .buf (takeBytes 32 input)
  else
    match vectorElem type with
    | some elem => parseVector model parseObject elem input
    | none => next .object (parseObject input)

/-- The arguments of a constructor, with the flags words so far. -/
def parseArgs : List UInt32 → List Arg → Bytes → Option (List Field × Bytes)
  | _, [], input => some ([], input)
  | flags, arg :: rest, input =>
    match arg.type with
    | none =>
      if arg.isFlags then do
        let (word, input) ← parseUi32 input
        let (fields, input) ← parseArgs (flags ++ [word]) rest input
        some (zeroField arg :: fields, input)
      else do
        let (fields, input) ← parseArgs flags rest input
        some (zeroField arg :: fields, input)
    | some type => do
      if ← argPresent flags arg then
        match ← parseValue model parseObject type input with
        | .next field input => do
          let (fields, input) ← parseArgs flags rest input
          some (field :: fields, input)
        | .stop field input => some (field :: rest.map zeroField, input)
      else do
        let (fields, input) ← parseArgs flags rest input
        some (zeroField arg :: fields, input)

/-- An object of a known constructor. -/
def parseMethod (method : Method) (input : Bytes) : Option (TlObj × Bytes) := do
  let (id, rest) ← parseUi32 input
  if method.name = "vector" then
    let (len, rest) ← parseUi32 rest
    let (fields, final) ← parseArgs model parseObject [] method.args rest
    some (.mk id input (.int len :: .buf rest :: fields), final)
  else
    let (fields, final) ← parseArgs model parseObject [] method.args rest
    some (.mk id input fields, final)

end Fields

variable (table : List Method)

/-- An object, up to a nesting depth of `fuel`. -/
def parseFuel : ℕ → Bytes → Option (Option TlObj × Bytes)
  | 0, _ => none
  | fuel + 1, input => do
    let (id, _) ← parseUi32 input
    if id = 0 then some (none, input)
    else
      match getFun table id with
      | none => some (none, input)
      | some method => do
        let (tl, rest) ← parseMethod model (parseFuel fuel) method input
        some (some tl, rest)

/-- An object. Every nested object takes four bytes for its id. -/
def parse (input : Bytes) : Option (Option TlObj × Bytes) :=
  parseFuel model table (input.length + 1) input

end Model

end LibTg.Tl
