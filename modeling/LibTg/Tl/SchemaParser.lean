import LibTg.Data.Decimal
import LibTg.Data.Tokens
import LibTg.Tl.Buf
import LibTg.Tl.Schema

/-!
# Reading a schema file (`tl_generator/tl_parser.c`)

The file is read line by line; a line with an `=` in it is a declaration. It is taken apart by
`strtok`, at `=` into the declaration and its return type, at `#` and spaces into the name, the id
and the arguments, and at `:` and `?` inside an argument. A `Char` stands for one byte of the file.

Every function below begins with a call of `strtok` that passes a string, so that it never reads
what another function has left in the hidden state; the state is a variable `last` of each function.
A step that the C program makes through a null pointer or past the end of an array has no result.
-/

namespace LibTg.Tl

/-- The entry of `method_t.args` that a declaration is read into. -/
structure ParsedArg where
  name : List Char
  type : Option (List Char)
  flagn : ℤ
  flagb : ℤ
  deriving DecidableEq, Repr

/-- The `struct method_t` of the parser; `args` has `argc` entries. -/
structure ParsedMethod where
  name : Option (List Char)
  id : UInt32
  ret : Option (List Char)
  args : List ParsedArg
  nflags : ℕ
  deriving DecidableEq, Repr

/-- `memset(&m, 0, sizeof(m))`. -/
def ParsedMethod.zero : ParsedMethod := ⟨none, 0, none, [], 0⟩

/-- The length of `method_t.args`. -/
def maxArgs : ℕ := 64

/-- What a string holds after `strtok` has cut it behind its first token. -/
def strtokView (delim : Char → Bool) (text : List Char) : List Char :=
  text.takeWhile delim ++ (text.dropWhile delim).takeWhile (! delim ·)

/-! ## One argument -/

/-- The name of an argument counts as the name of a flags word. -/
def countsAsFlags (name : List Char) : Bool :=
  (strstr "flags".toList name).isSome && decide (name.length < 7)

/-- `sscanf(flag, "flags.%d", …)`. -/
def scanFlagBit (flag : List Char) : Option ℤ :=
  if "flags.".toList.isPrefixOf flag then (scanInt (flag.drop 6)).map Prod.fst else none

/-- `sscanf(flag, "flags%d.%d", …)` into a word number and a bit that are set so far. -/
def scanFlagWord (flag : List Char) (flagn flagb : ℤ) : ℤ × ℤ :=
  if "flags".toList.isPrefixOf flag then
    match scanInt (flag.drop 5) with
    | none => (flagn, flagb)
    | some (word, '.' :: rest) => (word, ((scanInt rest).map Prod.fst).getD flagb)
    | some (word, _) => (word, flagb)
  else (flagn, flagb)

/-- The flags word and the bit of an optional argument. -/
def scanFlags (flag : List Char) : ℤ × ℤ :=
  match scanFlagBit flag with
  | some bit => (1, bit)
  | none => scanFlagWord flag 1 0

/-- `parse_method_args`, for the next entry of `m->args`. Without a flag the type is `ftype`, as `strtok`
has left it. -/
def parseMethodArgs (m : ParsedMethod) (buf : List Char) : Option ParsedMethod := do
  if maxArgs ≤ m.args.length then none
  else
    let (name, last) := strtok (· = ':') buf
    let name ← name
    let nflags := if countsAsFlags name then m.nflags + 1 else m.nflags
    let (ftype, last) := strtok (· = ':') last
    let (flag, last) := strtok (· = '?') (ftype.getD last)
    let (type, _) := strtok (· = '?') last
    match type with
    | some type =>
      let flag ← flag
      let (flagn, flagb) := scanFlags flag
      some { m with args := m.args ++ [⟨name, some type, flagn, flagb⟩], nflags := nflags }
    | none =>
      let type := ftype.map (strtokView (· = '?'))
      some { m with args := m.args ++ [⟨name, type, 0, 0⟩], nflags := nflags }

/-! ## One declaration -/

/-- The body of the loop of `parse_method_id_and_args`. -/
def parseIdOrArg (state : ParsedMethod × ℕ) (arg : List Char) : Option (ParsedMethod × ℕ) :=
  let (m, idx) := state
  if idx = 1 then some ({ m with id := (scanHex arg).getD m.id }, idx + 1)
  else if arg = "{X:Type}".toList then some (m, idx)
  else (parseMethodArgs m arg).map fun m ↦ (m, idx)

def parseMethodIdAndArgs (m : ParsedMethod) (buf : List Char) (idx : ℕ) : Option ParsedMethod :=
  ((strtokForeach (· = ' ') (buf.length + 1) buf).foldlM parseIdOrArg (m, idx)).map Prod.fst

/-- The name without the `//` in front of it. -/
def skipSlashes (name : List Char) : Option (List Char) :=
  match name with
  | ['/'] => none
  | '/' :: _ :: rest => some rest
  | _ => some name

/-- The declaration of `vector`, which ends the loop of `parse_method`. -/
def parseVectorDecl (m : ParsedMethod) (str : List Char) : ParsedMethod :=
  let (arg, last) := strtok (· = ' ') str
  { m with
    id := (arg.bind scanHex).getD m.id
    ret := (strtok (· ∈ "{t:}".toList) last).1 }

/-- The loop of `parse_method` over the pieces between `#`. -/
def parsePieces : ℕ → ParsedMethod → List (List Char) → Option ParsedMethod
  | _, m, [] => some m
  | idx, m, str :: rest =>
    if idx = 0 then do
      let name ← skipSlashes str
      parsePieces (idx + 1) { m with name := some name } rest
    else if (strstr "{t:Type}".toList str).isSome then some (parseVectorDecl m str)
    else do
      let m ← parseMethodIdAndArgs m str idx
      parsePieces (idx + 1) m rest

/-- `parse_method`, which returns 0. -/
def parseMethodDecl (m : ParsedMethod) (buf : List Char) : Option ParsedMethod :=
  parsePieces 0 m (strtokForeach (· = '#') (buf.length + 1) buf)

/-- `parse_method_return`. Its result is overwritten by that of `parse_method`. -/
def parseMethodReturn (m : ParsedMethod) (buf : List Char) : ParsedMethod :=
  match (strtok (· ∈ " ;".toList) buf).1 with
  | none => m
  | some ret => { m with ret := some ret }

/-! ## The file -/

/-- What the body of the loop over the lines does: nothing, return, or call the callback. -/
inductive LineResult where
  | skip
  | stop
  | call (m : ParsedMethod)
  deriving DecidableEq, Repr

/-- The body of the loop of `parse_schema`, for the string that `fgets` has left in the buffer. -/
def parseLine (buf : List Char) : Option LineResult :=
  if buf.head? ∈ [none, some ' ', some '\n'] then some .skip
  else
    let (method, last) := strtok (· = '=') buf
    match method, (strtok (· = '=') last).1 with
    | none, _ => some .stop
    | some _, none => some .skip
    | some method, some ret => do
      let m ← parseMethodDecl (parseMethodReturn .zero ret) method
      let name ← m.name
      if '?' ∈ name then some .skip
      else if m.id = 0 then some .skip
      else some (.call m)

/-- The characters that `fgets` takes, at most `count` and none behind a line break, and the rest. -/
def readLine : ℕ → List Char → List Char × List Char
  | 0, text => ([], text)
  | _, [] => ([], [])
  | count + 1, c :: rest =>
    if c = '\n' then ([c], rest)
    else ((c :: (readLine count rest).1), (readLine count rest).2)

/-- A call of the callback: with a declaration, or with an error. -/
inductive SchemaCall where
  | method (m : ParsedMethod)
  | error (text : String)
  deriving DecidableEq, Repr

section Callback

variable (callback : ℕ → SchemaCall → ℤ)

/-- `parse_schema` from the `i`-th line on, when the callback has been called `count` times: the
calls made and the result. Every round takes a character, so that `fuel` can be the length. -/
def parseSchema : ℕ → ℕ → ℕ → List Char → Option (List SchemaCall × ℕ)
  | 0, _, _, _ => none
  | fuel + 1, i, count, text =>
    if text = [] then some ([], 0)
    else
      let (line, rest) := readLine (bufsiz * 2 - 1) text
      match parseLine (line.takeWhile (· ≠ '\x00')) with
      | none => none
      | some .skip => parseSchema fuel (i + 1) count rest
      | some .stop => some ([], i)
      | some (.call m) =>
        if callback count (.method m) ≠ 0 then some ([.method m], 0)
        else (parseSchema fuel (i + 1) (count + 1) rest).map fun later ↦
          (.method m :: later.1, later.2)

/-- `tl_parse`, for the contents of the file if it can be opened. -/
def tlParse (file : Option (List Char)) : Option (List SchemaCall × ℕ) :=
  match file with
  | none => some ([.error "can't open file"], 1)
  | some text => parseSchema callback (text.length + 1) 1 0 text

end Callback

end LibTg.Tl
