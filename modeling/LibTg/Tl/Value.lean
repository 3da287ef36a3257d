import LibTg.Tl.Deserialize
import LibTg.Tl.FlagWords

/-!
# Value trees and their encoding

A value tree says what an object is, apart from bytes: for every argument a number, a string, a
vector, another object, or nothing. `encode` runs the emitted encoders on a tree from the leaves
up, for a buffer whose block is never moved. `Value.wire` is the byte string that we expect.
-/

namespace LibTg.Tl

/-- A value for one argument. An absent optional argument and a flags word have `absent`; a `true`
argument has a `flag`; `raw` is an `int128` or `int256`. -/
inductive Value where
  | absent
  | flag (value : Bool)
  | int (value : UInt32)
  | long (value : UInt64)
  | double (bits : UInt64)
  | string (text : Bytes)
  | bytes (data : Bytes)
  | raw (data : Bytes)
  | vector (elems : List Value)
  | object (method : Method) (fields : List Value)

/-- Whether a value is there. -/
def Value.present : Value → Bool
  | .absent => false
  | .flag value => value
  | _ => true

/-! ## Well-typed trees -/

/-- A type name that both generators treat as an object. -/
def IsObjectType (type : String) : Prop :=
  type ∉ ["int", "true", "bool", "long", "double", "string", "bytes", "int128", "int256"] ∧
    vectorElem type = none

/-- A type name that may stand between `Vector<` and `>`. -/
def IsElemType (type : String) : Prop :=
  type ∉ ["true", "bool", "int128", "int256", "%Message"] ∧ vectorElem type = none

/-- Arguments that share one flag bit are all present or all absent. -/
def SharedBits (pairs : List (Arg × Value)) : Prop :=
  ∀ first ∈ pairs, ∀ second ∈ pairs, first.1.flagn ≠ 0 → first.1.flagn = second.1.flagn →
    first.1.flagb = second.1.flagb → first.2.present = second.2.present

section WellTyped

variable (table : List Method)

mutual

/-- A value that is there, for an argument of the given type. -/
def Value.WellTyped : Bool → String → Value → Prop
  | _, _, .absent => False
  | _, _, .flag _ => False
  | _, type, .int _ => type = "int"
  | _, type, .long _ => type = "long"
  | _, type, .double _ => type = "double"
  | isMtproto, type, .string text =>
    type = "string" ∧ isMtproto = false ∧ (0 : UInt8) ∉ text ∧ text.length < 2 ^ 24
  | isMtproto, type, .bytes data =>
    (type = "bytes" ∨ (type = "string" ∧ isMtproto = true)) ∧ data.length < 2 ^ 24
  | _, type, .raw data =>
    (type = "int128" ∧ data.length = 16) ∨ (type = "int256" ∧ data.length = 32)
  | _, type, .vector elems =>
    ∃ elem, vectorElem type = some elem ∧ IsElemType elem ∧ elems.length ≤ 10000 ∧
      Value.ElemsWellTyped elem elems
  | _, type, .object method fields =>
    IsObjectType type ∧ method ∈ table ∧
      Value.FieldsWellTyped method.isMtproto method.args fields ∧
      SharedBits (method.args.zip fields)

/-- The elements of a vector. -/
def Value.ElemsWellTyped : String → List Value → Prop
  | _, [] => True
  | elem, value :: rest => Value.WellTyped false elem value ∧ Value.ElemsWellTyped elem rest

/-- The values for a list of arguments. A `true` stands under a flag and an `int128` or `int256`
does not; only an argument under a flag may be absent. -/
def Value.FieldsWellTyped : Bool → List Arg → List Value → Prop
  | _, [], [] => True
  | isMtproto, arg :: args, value :: rest =>
    (match arg.type with
      | none => value = .absent
      | some type =>
        if type = "true" then arg.flagn ≠ 0 ∧ (value = .flag true ∨ value = .flag false)
        else if type = "int128" ∨ type = "int256" then
          arg.flagn = 0 ∧ Value.WellTyped isMtproto type value
        else (arg.flagn ≠ 0 ∧ value = .absent) ∨ Value.WellTyped isMtproto type value) ∧
      Value.FieldsWellTyped isMtproto args rest
  | _, _, _ => False

end

/-- A constructor with a value for each of its arguments. -/
def WellTypedObject (method : Method) (fields : List Value) : Prop :=
  method ∈ table ∧ Value.FieldsWellTyped table method.isMtproto method.args fields ∧
    SharedBits (method.args.zip fields)

/-- A table of constructors with distinct nonzero ids, none of them `vector`, in which every
argument under a flag comes after the flags word it names. -/
structure TableOk : Prop where
  ids_nodup : (table.map Method.id).Nodup
  id_ne_zero : ∀ method ∈ table, method.id ≠ 0
  name_ne_vector : ∀ method ∈ table, method.name ≠ "vector"
  args_scoped : ∀ method ∈ table, Scoped 0 method.args

end WellTyped

/-! ## The encoders on a tree -/

mutual

/-- The C value that a caller passes for a value, built with the emitted encoders. -/
def Value.toArg : Value → Option CArg
  | .absent => some .null
  | .flag value => some (.bool value)
  | .int value => some (.one (.u32 value))
  | .long value => some (.one (.u64 value))
  | .double bits => some (.one (.f64 bits))
  | .string text => some (.one (.cstr text))
  | .bytes data => some (.one (.buf data))
  | .raw data => some (.one (.buf data))
  | .vector elems => do
    let args ← Value.toArgs elems
    let elems ← args.mapM CArg.toOne
    some (.vec elems)
  | .object method fields => do
    let args ← Value.toArgs fields
    let buf ← tlMethod (fun _ ↦ false) method args
    some (.one (.buf buf.bytes))

/-- The C values for a list of values. -/
def Value.toArgs : List Value → Option (List CArg)
  | [] => some []
  | value :: rest => do
    let arg ← Value.toArg value
    let args ← Value.toArgs rest
    some (arg :: args)

end

/-- What the emitted encoders compute for an object. -/
def encode (method : Method) (fields : List Value) : Option Bytes := do
  let args ← Value.toArgs fields
  let buf ← tlMethod (fun _ ↦ false) method args
  some buf.bytes

/-! ## The expected bytes -/

/-- The `k`-th flags word with the bits of all present arguments. -/
def flagsWord (pairs : List (Arg × CArg)) (k : ℕ) : UInt32 :=
  pairs.foldr (fun pair word ↦
    if k ≠ 0 ∧ pair.1.flagn = k ∧ pair.2.present = true then word ||| flagBit pair.1.flagb
    else word) 0

/-- The layout of a constructor with its flags words filled in. -/
def methodFormat (method : Method) (args : List CArg) : Bytes :=
  emitted method (flagsWord (method.args.zip args)) (method.args.zip args)

mutual

/-- The C value that we expect for a value. -/
def Value.arg : Value → CArg
  | .absent => .null
  | .flag value => .bool value
  | .int value => .one (.u32 value)
  | .long value => .one (.u64 value)
  | .double bits => .one (.f64 bits)
  | .string text => .one (.cstr text)
  | .bytes data => .one (.buf data)
  | .raw data => .one (.buf data)
  | .vector elems => .vec ((Value.argList elems).filterMap CArg.toOne)
  | .object method fields => .one (.buf (methodFormat method (Value.argList fields)))

/-- The C values that we expect for a list of values. -/
def Value.argList : List Value → List CArg
  | [] => []
  | value :: rest => Value.arg value :: Value.argList rest

end

/-- The bytes that we expect for an object. -/
def wire (method : Method) (fields : List Value) : Bytes :=
  methodFormat method (Value.argList fields)

end LibTg.Tl
