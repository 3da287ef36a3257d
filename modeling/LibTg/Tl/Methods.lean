import LibTg.Tl.Schema
import LibTg.Tl.Serialize

/-!
# The emitted encoders (`append_methods`)

For every constructor `append_methods` emits a C function `tl_<name>` that writes the constructor id
and then its arguments into a growing buffer. `tlMethod` is what that function computes. A flags
word is first written as zero; the function keeps a pointer to it (`flagK`) and sets bits through
the pointer when it comes to an argument under that flag. The pointer names the block it was taken
in, so a bit set through it is lost once `realloc` has moved the buffer to another block.

`valueFormat` says which bytes an argument contributes; `appendArg` is the emitted statement.
-/

namespace LibTg.Tl

/-- One C value: a `uint32_t`, a `uint64_t`, a `double` by its bits, a `buf_t` or a `char *`. -/
inductive CElem where
  | u32 (value : UInt32)
  | u64 (value : UInt64)
  | f64 (bits : UInt64)
  | buf (bytes : Bytes)
  | cstr (string : Bytes)
  deriving DecidableEq, Repr

/-- What a caller passes for one argument. `null` is the `NULL` of an absent optional argument; a
flags word is not a parameter of the emitted function and has `null` in its place. -/
inductive CArg where
  | null
  | bool (value : Bool)
  | one (value : CElem)
  | vec (elems : List CElem)
  deriving DecidableEq, Repr

/-- The test `if (x_)` that the emitted code makes for an argument under a flag. -/
def CArg.present : CArg → Bool
  | .null => false
  | .bool value => value
  | .one _ => true
  | .vec _ => true

/-- `count` bytes from a buffer's `data`; its block is zeroed past the contents. -/
def takeData (bytes : Bytes) (count : ℕ) : Bytes := (bytes ++ List.replicate count 0).take count

/-- The argument as a `buf_t`, where the emitted code uses it as one. -/
def CArg.toBuf : CArg → Option Bytes
  | .one (.buf bytes) => some bytes
  | _ => none

/-- The argument as a single value. -/
def CArg.toOne : CArg → Option CElem
  | .one value => some value
  | _ => none

/-- The argument as an array and its `_len`. -/
def CArg.toVec : CArg → Option (List CElem)
  | .vec elems => some elems
  | _ => none

/-! ## The bytes of an argument -/

/-- The bytes of one value of the given type, alone or as a vector element. -/
def elemFormat (type : String) (elem : CElem) : Option Bytes :=
  if type = "bytes" then
    match elem with
    | .buf bytes => some (tlBytes bytes)
    | _ => none
  else if type = "string" then
    match elem with
    | .cstr string => some (tlBytes (string.takeWhile (· ≠ 0)))
    | _ => none
  else if type = "int" ∨ type = "bool" then
    match elem with
    | .u32 value => some (le32 value)
    | _ => none
  else if type = "long" then
    match elem with
    | .u64 value => some (le64 value)
    | _ => none
  else if type = "double" then
    match elem with
    | .f64 bits => some (le64 bits)
    | _ => none
  else
    match elem with
    | .buf bytes => some bytes
    | _ => none

/-- The bytes of a vector: its constructor, its length and its elements. -/
def vectorFormat (count : ℕ) (chunks : List Bytes) : Bytes :=
  le32 idVector ++ (le32 (UInt32.ofNat count) ++ chunks.flatten)

/-- The bytes of a present argument of the given type. -/
def valueFormat (isMtproto : Bool) (type : String) (value : CArg) : Option Bytes :=
  if type = "int128" then value.toBuf.map (takeData · 16)
  else if type = "int256" then value.toBuf.map (takeData · 32)
  else if type = "string" ∧ isMtproto then value.toBuf.map tlBytes
  else
    match vectorElem type with
    | some elem => value.toVec.bind fun elems ↦
        (elems.mapM (elemFormat elem)).map (vectorFormat elems.length)
    | none => value.toOne.bind (elemFormat type)

section Realloc

variable (moves : ℕ → Bool)

/-- The `buf_cat` argument that the emitted code computes for one value; the scalar branches and
the vector loop of `append_methods` treat a value of one type in the same way. -/
def elemChunk (type : String) (elem : CElem) : Option Bytes :=
  if type = "bytes" then
    match elem with
    | .buf bytes => (serializeBytes moves bytes).map Buf.bytes
    | _ => none
  else if type = "string" then
    match elem with
    | .cstr string => (serializeString moves string).map Buf.bytes
    | _ => none
  else if type = "int" ∨ type = "bool" then
    match elem with
    | .u32 value => some (le32 value)
    | _ => none
  else if type = "long" then
    match elem with
    | .u64 value => some (le64 value)
    | _ => none
  else if type = "double" then
    match elem with
    | .f64 bits => some (le64 bits)
    | _ => none
  else
    match elem with
    | .buf bytes => some bytes
    | _ => none

/-- The `buf_cat` arguments of the statements emitted for a present argument, in order. -/
def valueChunks (isMtproto : Bool) (type : String) (value : CArg) : Option (List Bytes) :=
  if type = "int128" then value.toBuf.map fun bytes ↦ [takeData bytes 16]
  else if type = "int256" then value.toBuf.map fun bytes ↦ [takeData bytes 32]
  else if type = "string" ∧ isMtproto then value.toBuf.bind fun bytes ↦
    (serializeStr moves bytes).map fun buf ↦ [buf.bytes]
  else
    match vectorElem type with
    | some elem => value.toVec.bind fun elems ↦
        (elems.mapM (elemChunk moves elem)).map fun chunks ↦
          le32 idVector :: le32 (UInt32.ofNat elems.length) :: chunks
    | none => value.toOne.bind fun elem ↦ (elemChunk moves type elem).map fun chunk ↦ [chunk]

/-! ## The emitted function -/

/-- A pointer into the buffer: the block it was taken in and the offset there. -/
structure Ptr where
  block : ℕ
  off : ℕ
  deriving DecidableEq, Repr

/-- The local variables of an emitted function: `buf` and the pointers `flag1`, `flag2`, …. -/
structure Emit where
  buf : Buf
  flags : List Ptr

/-- `*ptr |= (1 << bit)`. A store through a pointer into a block that `realloc` has moved away
changes a dead block, so nothing of the buffer. -/
def orWord (buf : Buf) (ptr : Ptr) (bit : ℕ) : Option Buf :=
  if ptr.block = buf.block then
    if hfits : ptr.off + 4 ≤ buf.mem.length then
      some
        { buf with
          mem := overwrite buf.mem ptr.off
            (le32 (getUi32 ((buf.mem.drop ptr.off).take 4) ||| flagBit bit))
          mem_length := by
            rw [length_overwrite (by simpa using hfits)]
            exact buf.mem_length }
    else none
  else some buf

/-- The statement `*flagK |= (1 << bit)`; without a variable `flagK` there is no program. -/
def setFlag (s : Emit) (flagn bit : ℕ) : Option Emit := do
  let ptr ← s.flags[flagn - 1]?
  let buf ← orWord s.buf ptr bit
  some { s with buf := buf }

/-- The statements emitted for one argument. -/
def appendArg (isMtproto : Bool) (s : Emit) (arg : Arg) (value : CArg) : Option Emit :=
  match arg.type with
  | none =>
    if arg.isFlags then do
      let buf ← bufCat moves s.buf (le32 0)
      some ⟨buf, s.flags ++ [⟨s.buf.block, s.buf.size⟩]⟩
    else some s
  | some type =>
    if type = "true" then
      if arg.flagn ≠ 0 ∧ value.present then setFlag s arg.flagn arg.flagb else some s
    else if arg.flagn ≠ 0 ∧ ¬ value.present then some s
    else do
      let chunks ← valueChunks moves isMtproto type value
      let buf ← bufCatAll moves s.buf chunks
      if arg.flagn ≠ 0 then setFlag { s with buf := buf } arg.flagn arg.flagb
      else some { s with buf := buf }

/-- The statements emitted for a list of arguments. -/
def appendArgs (isMtproto : Bool) (s : Emit) (pairs : List (Arg × CArg)) : Option Emit :=
  pairs.foldlM (fun s pair ↦ appendArg moves isMtproto s pair.1 pair.2) s

/-- The function that `append_methods` emits for a constructor. -/
def tlMethod (method : Method) (args : List CArg) : Option Buf := do
  let buf ← bufAdd moves (le32 method.id)
  let s ← appendArgs moves method.isMtproto ⟨buf, []⟩ (method.args.zip args)
  some s.buf

/-! ## The chunks of an argument are its bytes -/

theorem serializeBytes_map_eq_some {bytes chunk : Bytes}
    (h : (serializeBytes moves bytes).map Buf.bytes = some chunk) : chunk = tlBytes bytes := by
  obtain ⟨buf, hbuf, rfl⟩ := Option.map_eq_some_iff.mp h
  exact (serializeBytes_inv moves hbuf).bytes_eq

theorem serializeBytes_map_of_fits (bytes : Bytes) (hfits : (tlBytes bytes).length + 1 < 2 ^ 32) :
    (serializeBytes moves bytes).map Buf.bytes = some (tlBytes bytes) := by
  obtain ⟨buf, hbuf, hholds⟩ := serializeBytes_spec moves bytes hfits
  rw [hbuf, Option.map_some, hholds.bytes_eq]

theorem elemFormat_of_elemChunk {type : String} {elem : CElem} {chunk : Bytes}
    (h : elemChunk moves type elem = some chunk) : elemFormat type elem = some chunk := by
  unfold elemChunk at h
  cases elem <;> grind [elemFormat, serializeString, serializeBytes_map_eq_some]

theorem elemChunk_of_elemFormat {type : String} {elem : CElem} {chunk : Bytes}
    (h : elemFormat type elem = some chunk) (hfits : chunk.length + 1 < 2 ^ 32) :
    elemChunk moves type elem = some chunk := by
  unfold elemFormat at h
  cases elem <;> grind [elemChunk, serializeString, serializeBytes_map_of_fits]

theorem mapM_elemFormat_of_elemChunk {type : String} {elems : List CElem} {chunks : List Bytes}
    (h : elems.mapM (elemChunk moves type) = some chunks) :
    elems.mapM (elemFormat type) = some chunks := by
  induction elems generalizing chunks with
  | nil => exact h
  | cons elem rest ih =>
    simp only [List.mapM_cons, Option.bind_eq_bind, Option.bind_eq_some_iff, Option.pure_def,
      Option.some.injEq] at h ⊢
    obtain ⟨chunk, hchunk, later, hlater, rfl⟩ := h
    exact ⟨chunk, elemFormat_of_elemChunk moves hchunk, later, ih hlater, rfl⟩

theorem mapM_elemChunk_of_elemFormat {type : String} {elems : List CElem} {chunks : List Bytes}
    (h : elems.mapM (elemFormat type) = some chunks) (hfits : chunks.flatten.length + 1 < 2 ^ 32) :
    elems.mapM (elemChunk moves type) = some chunks := by
  induction elems generalizing chunks with
  | nil => exact h
  | cons elem rest ih =>
    simp only [List.mapM_cons, Option.bind_eq_bind, Option.bind_eq_some_iff, Option.pure_def,
      Option.some.injEq] at h ⊢
    obtain ⟨chunk, hchunk, later, hlater, rfl⟩ := h
    rw [List.flatten_cons, List.length_append] at hfits
    exact ⟨chunk, elemChunk_of_elemFormat moves hchunk (by omega), later,
      ih hlater (by omega), rfl⟩

theorem valueFormat_of_valueChunks {isMtproto : Bool} {type : String} {value : CArg}
    {chunks : List Bytes} (h : valueChunks moves isMtproto type value = some chunks) :
    valueFormat isMtproto type value = some chunks.flatten := by
  unfold valueChunks at h
  unfold valueFormat
  split_ifs at h ⊢
  · obtain ⟨bytes, hbytes, rfl⟩ := Option.map_eq_some_iff.mp h
    simp [hbytes]
  · obtain ⟨bytes, hbytes, rfl⟩ := Option.map_eq_some_iff.mp h
    simp [hbytes]
  · obtain ⟨bytes, hbytes, hmap⟩ := Option.bind_eq_some_iff.mp h
    obtain ⟨buf, hbuf, rfl⟩ := Option.map_eq_some_iff.mp hmap
    simp [hbytes, (serializeStr_inv moves hbuf).bytes_eq]
  · split at h
    · obtain ⟨elems, helems, hmap⟩ := Option.bind_eq_some_iff.mp h
      obtain ⟨later, hlater, rfl⟩ := Option.map_eq_some_iff.mp hmap
      simp [helems, mapM_elemFormat_of_elemChunk moves hlater, vectorFormat]
    · obtain ⟨elem, helem, hmap⟩ := Option.bind_eq_some_iff.mp h
      obtain ⟨chunk, hchunk, rfl⟩ := Option.map_eq_some_iff.mp hmap
      simp [helem, elemFormat_of_elemChunk moves hchunk]

theorem valueChunks_of_valueFormat {isMtproto : Bool} {type : String} {value : CArg}
    {bytes : Bytes} (h : valueFormat isMtproto type value = some bytes)
    (hfits : bytes.length + 1 < 2 ^ 32) :
    ∃ chunks, valueChunks moves isMtproto type value = some chunks ∧ chunks.flatten = bytes := by
  unfold valueFormat at h
  unfold valueChunks
  split_ifs at h ⊢
  · obtain ⟨data, hdata, rfl⟩ := Option.map_eq_some_iff.mp h
    exact ⟨[takeData data 16], by simp [hdata], by simp⟩
  · obtain ⟨data, hdata, rfl⟩ := Option.map_eq_some_iff.mp h
    exact ⟨[takeData data 32], by simp [hdata], by simp⟩
  · obtain ⟨data, hdata, rfl⟩ := Option.map_eq_some_iff.mp h
    obtain ⟨buf, hbuf, hholds⟩ := serializeStr_spec moves data hfits
    exact ⟨[buf.bytes], by simp [hdata, hbuf], by simp [hholds.bytes_eq]⟩
  · split at h
    · obtain ⟨elems, helems, hmap⟩ := Option.bind_eq_some_iff.mp h
      obtain ⟨chunks, hchunks, rfl⟩ := Option.map_eq_some_iff.mp hmap
      have hlater : chunks.flatten.length + 1 < 2 ^ 32 := by
        simp only [vectorFormat, List.length_append] at hfits
        omega
      refine ⟨le32 idVector :: le32 (UInt32.ofNat elems.length) :: chunks, ?_, ?_⟩
      · rw [helems, Option.bind_some, mapM_elemChunk_of_elemFormat moves hchunks hlater,
          Option.map_some]
      · simp [vectorFormat]
    · obtain ⟨elem, helem, hformat⟩ := Option.bind_eq_some_iff.mp h
      exact ⟨[bytes], by simp [helem, elemChunk_of_elemFormat moves hformat hfits], by simp⟩

end Realloc

end LibTg.Tl
