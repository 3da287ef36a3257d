import LibTg.Tl.Value
import Mathlib.Data.List.TakeWhile

/-!
# Round trip of the emitted encoders and decoders

What the encoders write for a well-typed tree, the decoder reads back, at any nesting depth and in
front of any further bytes. The proof has two halves. `encode_eq_wire` says that the encoders write
`wire`; it goes through the buffer programs. `tlDeserialize_wire` says that the decoder reads `wire`
back; it is an induction over the bytes that are left to read.
-/

namespace LibTg.Tl

/-! ## Flags words -/

theorem flagsWord_testBit {pairs : List (Arg × CArg)} (hflagb : ∀ pair ∈ pairs, pair.1.flagb < 32)
    (k bit : ℕ) :
    (flagsWord pairs k).toNat.testBit bit = true ↔ ∃ pair ∈ pairs, Sets pair k bit := by
  induction pairs with
  | nil => simp [flagsWord]
  | cons head rest ih =>
    have hrest := ih fun pair hmem ↦ hflagb pair (List.mem_cons_of_mem _ hmem)
    have hhead := hflagb head List.mem_cons_self
    rw [flagsWord, List.foldr_cons, ← flagsWord]
    simp only [List.mem_cons, exists_eq_or_imp]
    split
    · rename_i hset
      rw [UInt32.toNat_or, Nat.testBit_or, flagBit_testBit _ _ hhead, Bool.or_eq_true, hrest,
        decide_eq_true_eq, or_comm]
      simp only [Sets, hset.1, hset.2.1, hset.2.2, ne_eq, not_false_eq_true, true_and, and_true]
    · rename_i hskip
      have hnot : ¬ Sets head k bit := fun h ↦ hskip ⟨h.1, h.2.1, h.2.2.2⟩
      simp only [hrest, hnot, false_or]

theorem flagb_lt_of_scoped {seen : ℕ} {args : List Arg} (h : Scoped seen args) :
    ∀ arg ∈ args, arg.flagb < 32 := by
  induction args generalizing seen with
  | nil => simp
  | cons head rest ih =>
    obtain ⟨-, hhead, hrest⟩ := h
    intro arg hmem
    rcases List.mem_cons.mp hmem with rfl | hlater
    · exact hhead
    · exact ih hrest arg hlater

/-- While the block is never moved, the emitted encoder returns the layout with all its flags. -/
theorem tlMethod_still {method : Method} {args : List CArg}
    (hlength : method.args.length = args.length) (hscoped : Scoped 0 method.args)
    (haccepts : ∀ pair ∈ method.args.zip args, Accepts method.isMtproto pair)
    (hfits : (methodFormat method args).length + 1 < 2 ^ 32) :
    ∃ buf, tlMethod (fun _ ↦ false) method args = some buf ∧
      buf.bytes = methodFormat method args := by
  rw [methodFormat, length_emitted] at hfits
  obtain ⟨words, buf, hbuf, hholds, hwords⟩ :=
    tlMethod_spec (fun _ ↦ false) method args hlength hscoped haccepts hfits
  have hflagb : ∀ pair ∈ method.args.zip args, pair.1.flagb < 32 := by
    intro pair hmem
    exact flagb_lt_of_scoped hscoped pair.1 (List.of_mem_zip hmem).1
  have heq : words = flagsWord (method.args.zip args) := by
    funext k
    apply UInt32.toNat_inj.mp
    apply Nat.eq_of_testBit_eq
    intro bit
    rw [Bool.eq_iff_iff, flagsWord_testBit hflagb k bit]
    constructor
    · exact hwords.sets_of_bit k bit
    · rintro ⟨pair, hmem, hsets⟩
      exact hwords.bit_of_still (fun _ ↦ rfl) k bit pair hmem hsets
  exact ⟨buf, hbuf, by rw [hholds.bytes_eq, heq, methodFormat]⟩

/-! ## Formats of well-typed values -/

section Format

variable {table : List Method}

theorem present_arg (value : Value) : value.arg.present = value.present := by
  cases value <;> simp [Value.arg, CArg.present, Value.present]

theorem length_argList (values : List Value) :
    (Value.argList values).length = values.length := by
  induction values with
  | nil => rfl
  | cons value rest ih => rw [Value.argList, List.length_cons, List.length_cons, ih]

theorem length_of_fieldsWellTyped {isMtproto : Bool} {args : List Arg} {fields : List Value}
    (h : Value.FieldsWellTyped table isMtproto args fields) : args.length = fields.length := by
  induction args generalizing fields with
  | nil =>
    cases fields with
    | nil => rfl
    | cons => simp [Value.FieldsWellTyped] at h
  | cons arg args ih =>
    cases fields with
    | nil => simp [Value.FieldsWellTyped] at h
    | cons value rest =>
      rw [Value.FieldsWellTyped] at h
      rw [List.length_cons, List.length_cons, ih h.2]

theorem elemFormat_object {type : String} (h : IsObjectType type) (bytes : Bytes) :
    elemFormat type (.buf bytes) = some bytes := by
  obtain ⟨hnames, -⟩ := h
  simp only [List.mem_cons, List.not_mem_nil, not_or] at hnames
  simp [elemFormat, hnames]

theorem valueFormat_object {type : String} (h : IsObjectType type) (isMtproto : Bool)
    (bytes : Bytes) : valueFormat isMtproto type (.one (.buf bytes)) = some bytes := by
  have hformat := elemFormat_object h bytes
  obtain ⟨hnames, hvector⟩ := h
  simp only [List.mem_cons, List.not_mem_nil, not_or] at hnames
  simp [valueFormat, hnames, hvector, CArg.toOne, hformat]

/-- A single value is written in the same way alone and as an element. -/
theorem valueFormat_elem {elem : String} (h : IsElemType elem) (single : CElem) :
    valueFormat false elem (.one single) = elemFormat elem single := by
  obtain ⟨hnames, hvector⟩ := h
  simp only [List.mem_cons, List.not_mem_nil, not_or] at hnames
  simp [valueFormat, hnames, hvector, CArg.toOne]

theorem valueFormat_vector {type elem : String} (h : vectorElem type = some elem)
    (isMtproto : Bool) (elems : List CElem) :
    valueFormat isMtproto type (.vec elems) =
      (elems.mapM (elemFormat elem)).map (vectorFormat elems.length) := by
  have hnames : type ≠ "int128" ∧ type ≠ "int256" ∧ type ≠ "string" := by
    refine ⟨?_, ?_, ?_⟩ <;> rintro rfl <;> simp [vectorElem, strstr] at h
  simp [valueFormat, hnames, h, CArg.toVec]

theorem takeData_of_length_eq {bytes : Bytes} {count : ℕ} (h : bytes.length = count) :
    takeData bytes count = bytes := List.take_left' h

theorem takeWhile_of_not_mem {text : Bytes} (h : (0 : UInt8) ∉ text) :
    text.takeWhile (· ≠ 0) = text := by
  rw [List.takeWhile_eq_self_iff]
  intro byte hmem
  rw [decide_eq_true_eq]
  rintro rfl
  exact h hmem

/-- A well-typed element is passed as a single C value, and it has bytes. -/
theorem exists_elemFormat {elem : String} {value : Value} (helem : IsElemType elem)
    (h : value.WellTyped table false elem) :
    ∃ single chunk, value.arg = .one single ∧ elemFormat elem single = some chunk := by
  cases value <;> simp only [Value.WellTyped] at h
  case int value => exact ⟨.u32 value, le32 value, rfl, by simp [h, elemFormat]⟩
  case long value => exact ⟨.u64 value, le64 value, rfl, by simp [h, elemFormat]⟩
  case double bits => exact ⟨.f64 bits, le64 bits, rfl, by simp [h, elemFormat]⟩
  case string text =>
    exact ⟨.cstr text, tlBytes (text.takeWhile (· ≠ 0)), rfl, by simp [h.1, elemFormat]⟩
  case bytes data =>
    have htype : elem = "bytes" := h.1.resolve_right fun hstring ↦ by simp at hstring
    exact ⟨.buf data, tlBytes data, rfl, by simp [htype, elemFormat]⟩
  case raw data =>
    have hnames := helem.1
    rcases h with ⟨rfl, -⟩ | ⟨rfl, -⟩ <;> simp at hnames
  case vector elems =>
    obtain ⟨inner, hinner, -⟩ := h
    rw [helem.2] at hinner
    cases hinner
  case object method fields =>
    exact ⟨_, _, rfl, elemFormat_object h.1 _⟩

/-- The elements of a well-typed vector are all single C values, and they have bytes. -/
theorem exists_elemsFormat {elem : String} {elems : List Value} (helem : IsElemType elem)
    (h : Value.ElemsWellTyped table elem elems) :
    ∃ (singles : List CElem) (chunks : List Bytes),
      Value.argList elems = singles.map .one ∧ singles.length = elems.length ∧
      singles.mapM (elemFormat elem) = some chunks := by
  induction elems with
  | nil => exact ⟨[], [], rfl, rfl, rfl⟩
  | cons value rest ih =>
    rw [Value.ElemsWellTyped] at h
    obtain ⟨single, chunk, hsingle, hchunk⟩ := exists_elemFormat helem h.1
    obtain ⟨singles, chunks, hsingles, hlength, hchunks⟩ := ih h.2
    refine ⟨single :: singles, chunk :: chunks, ?_, ?_, ?_⟩
    · rw [Value.argList, hsingle, hsingles, List.map_cons]
    · rw [List.length_cons, List.length_cons, hlength]
    · simp [hchunk, hchunks]

theorem filterMap_toOne (singles : List CElem) :
    (singles.map CArg.one).filterMap CArg.toOne = singles := by
  rw [List.filterMap_map]
  exact List.filterMap_some

theorem mapM_toOne (singles : List CElem) :
    (singles.map CArg.one).mapM CArg.toOne = some singles := by
  induction singles with
  | nil => rfl
  | cons single rest ih =>
    rw [List.map_cons, List.mapM_cons, ih]
    rfl

/-- A well-typed value has bytes, and an array is not too long for an `int`. -/
theorem exists_valueFormat {isMtproto : Bool} {type : String} {value : Value}
    (h : value.WellTyped table isMtproto type) :
    (valueFormat isMtproto type value.arg).isSome = true ∧
      ∀ elems, value.arg.toVec = some elems → elems.length < 2 ^ 31 := by
  cases value <;> simp only [Value.WellTyped] at h
  case int => simp [h, Value.arg, valueFormat, vectorElem, strstr, elemFormat, CArg.toOne, CArg.toVec]
  case long => simp [h, Value.arg, valueFormat, vectorElem, strstr, elemFormat, CArg.toOne, CArg.toVec]
  case double =>
    simp [h, Value.arg, valueFormat, vectorElem, strstr, elemFormat, CArg.toOne, CArg.toVec]
  case string =>
    simp [h.1, h.2.1, Value.arg, valueFormat, vectorElem, strstr, elemFormat, CArg.toOne, CArg.toVec]
  case bytes =>
    rcases h.1 with rfl | ⟨rfl, rfl⟩ <;>
      simp [Value.arg, valueFormat, vectorElem, strstr, elemFormat, CArg.toOne, CArg.toBuf,
        CArg.toVec]
  case raw =>
    rcases h with ⟨rfl, -⟩ | ⟨rfl, -⟩ <;>
      simp [Value.arg, valueFormat, CArg.toBuf, CArg.toVec]
  case vector elems =>
    obtain ⟨elem, hvector, helem, hlength, helems⟩ := h
    obtain ⟨singles, chunks, hsingles, hsame, hchunks⟩ := exists_elemsFormat helem helems
    rw [Value.arg, hsingles, filterMap_toOne, valueFormat_vector hvector, hchunks]
    refine ⟨rfl, ?_⟩
    intro found hfound
    cases hfound
    omega
  case object =>
    rw [Value.arg, valueFormat_object h.1]
    exact ⟨rfl, fun elems hnone ↦ by cases hnone⟩

/-- The value of one argument: it is nothing or a flag, or else it is there. -/
theorem fieldWellTyped_cases {isMtproto : Bool} {arg : Arg} {args : List Arg} {value : Value}
    {rest : List Value} (h : Value.FieldsWellTyped table isMtproto (arg :: args) (value :: rest)) :
    (arg.type = none ∧ value = .absent) ∨
    (arg.type = some "true" ∧ arg.flagn ≠ 0 ∧ ∃ given, value = .flag given) ∨
    (∃ type, arg.type = some type ∧ type ≠ "true" ∧ arg.flagn ≠ 0 ∧ value = .absent) ∨
    (∃ type, arg.type = some type ∧ type ≠ "true" ∧ value.WellTyped table isMtproto type) := by
  rw [Value.FieldsWellTyped] at h
  have hfirst := h.1
  cases htype : arg.type with
  | none =>
    rw [htype] at hfirst
    exact Or.inl ⟨rfl, hfirst⟩
  | some type =>
    rw [htype] at hfirst
    simp only at hfirst
    split at hfirst
    · rename_i htrue
      subst htrue
      rcases hfirst with ⟨hflagn, rfl | rfl⟩
      · exact Or.inr (Or.inl ⟨rfl, hflagn, true, rfl⟩)
      · exact Or.inr (Or.inl ⟨rfl, hflagn, false, rfl⟩)
    · rename_i htrue
      split at hfirst
      · exact Or.inr (Or.inr (Or.inr ⟨type, rfl, htrue, hfirst.2⟩))
      · rcases hfirst with ⟨hflagn, rfl⟩ | hwell
        · exact Or.inr (Or.inr (Or.inl ⟨type, rfl, htrue, hflagn, rfl⟩))
        · exact Or.inr (Or.inr (Or.inr ⟨type, rfl, htrue, hwell⟩))

theorem accepts_of_fieldsWellTyped {isMtproto : Bool} {args : List Arg} {fields : List Value}
    (h : Value.FieldsWellTyped table isMtproto args fields) :
    ∀ pair ∈ args.zip (Value.argList fields), Accepts isMtproto pair := by
  induction args generalizing fields with
  | nil => simp
  | cons arg args ih =>
    cases fields with
    | nil => simp [Value.argList]
    | cons value rest =>
      have hcases := fieldWellTyped_cases h
      rw [Value.FieldsWellTyped] at h
      intro pair hmem
      rw [Value.argList, List.zip_cons_cons] at hmem
      rcases List.mem_cons.mp hmem with rfl | hlater
      · rw [Accepts]
        rcases hcases with ⟨htype, rfl⟩ | ⟨htype, -, given, rfl⟩ | ⟨type, htype, htrue, hflagn, rfl⟩ |
          ⟨type, htype, htrue, hwell⟩
        · simp [htype, Value.arg]
        · cases given <;> simp [htype, Value.arg]
        · simp [htype, htrue, hflagn, Value.arg]
        · simp only [htype, if_neg htrue]
          exact Or.inr (exists_valueFormat hwell)
      · exact ih h.2 pair hlater

end Format

/-! ## The encoders write the expected bytes -/

section Encode

variable {table : List Method}

theorem length_wire (method : Method) (fields : List Value) :
    (wire method fields).length =
      4 + argsLength method.isMtproto (method.args.zip (Value.argList fields)) := by
  rw [wire, methodFormat, length_emitted]

theorem present_of_wellTyped {isMtproto : Bool} {type : String} {value : Value}
    (h : value.WellTyped table isMtproto type) : value.present = true := by
  cases value <;> first | rfl | simp [Value.WellTyped] at h

theorem argBytes_of_wellTyped {isMtproto : Bool} {arg : Arg} {type : String} {value : Value}
    (htype : arg.type = some type) (htrue : type ≠ "true")
    (h : value.WellTyped table isMtproto type) :
    argBytes isMtproto arg value.arg = (valueFormat isMtproto type value.arg).getD [] := by
  simp [argBytes, htype, htrue, present_arg, present_of_wellTyped h]

/-- One call of an emitted encoder, for arguments that have been built. -/
theorem tlMethod_wire (htable : TableOk table) {method : Method} {fields : List Value}
    (h : WellTypedObject table method fields) (hfits : (wire method fields).length + 1 < 2 ^ 32) :
    ∃ buf, tlMethod (fun _ ↦ false) method (Value.argList fields) = some buf ∧
      buf.bytes = wire method fields := by
  have hlength : method.args.length = (Value.argList fields).length := by
    rw [length_argList]
    exact length_of_fieldsWellTyped h.2.1
  exact tlMethod_still hlength (htable.args_scoped method h.1)
    (accepts_of_fieldsWellTyped h.2.1) hfits

mutual

/-- The C value of a well-typed value is built as expected, if its bytes fit a buffer. -/
theorem toArg_eq (htable : TableOk table) (isMtproto : Bool) (type : String) (value : Value)
    (h : value.WellTyped table isMtproto type)
    (hfits : ∀ chunk, valueFormat isMtproto type value.arg = some chunk →
      chunk.length + 1 < 2 ^ 32) : value.toArg = some value.arg := by
  match value, h, hfits with
  | .int _, _, _ => rfl
  | .long _, _, _ => rfl
  | .double _, _, _ => rfl
  | .string _, _, _ => rfl
  | .bytes _, _, _ => rfl
  | .raw _, _, _ => rfl
  | .vector elems, h, hfits =>
    simp only [Value.WellTyped] at h
    obtain ⟨elem, hvector, helem, -, helems⟩ := h
    obtain ⟨singles, chunks, hsingles, -, hchunks⟩ := exists_elemsFormat helem helems
    have hbytes : valueFormat isMtproto type (Value.vector elems).arg =
        some (vectorFormat singles.length chunks) := by
      rw [Value.arg, hsingles, filterMap_toOne, valueFormat_vector hvector, hchunks,
        Option.map_some]
    have hflat := hfits _ hbytes
    simp only [vectorFormat, List.length_append] at hflat
    have hargs := toArgs_elems htable elem elems helem helems singles chunks hsingles hchunks (by omega)
    rw [Value.toArg, hargs, Value.arg, hsingles, filterMap_toOne]
    simp only [Option.bind_eq_bind, Option.bind_some, mapM_toOne]
  | .object method fields, h, hfits =>
    simp only [Value.WellTyped] at h
    obtain ⟨htype, hobject⟩ := h
    have hwire := hfits (wire method fields) (by
      rw [Value.arg, valueFormat_object htype, wire])
    have hargs := toArgs_fields htable method.isMtproto method.args fields hobject.2.1 (by
      rw [length_wire] at hwire
      omega)
    obtain ⟨buf, hbuf, hbytes⟩ := tlMethod_wire htable hobject hwire
    rw [Value.toArg, hargs, Value.arg, ← wire, ← hbytes]
    simp [hbuf]

/-- The C values of the elements of a vector. -/
theorem toArgs_elems (htable : TableOk table) (elem : String) (elems : List Value) (helem : IsElemType elem)
    (h : Value.ElemsWellTyped table elem elems) (singles : List CElem) (chunks : List Bytes)
    (hsingles : Value.argList elems = singles.map .one)
    (hchunks : singles.mapM (elemFormat elem) = some chunks)
    (hfits : chunks.flatten.length + 1 < 2 ^ 32) :
    Value.toArgs elems = some (Value.argList elems) := by
  match elems, h, singles, hsingles, hchunks with
  | [], _, _, _, _ => rfl
  | value :: rest, h, single :: later, hsingles, hchunks =>
    rw [Value.ElemsWellTyped] at h
    rw [Value.argList, List.map_cons, List.cons.injEq] at hsingles
    simp only [List.mapM_cons, Option.bind_eq_bind, Option.bind_eq_some_iff, Option.pure_def,
      Option.some.injEq] at hchunks
    obtain ⟨chunk, hchunk, others, hothers, rfl⟩ := hchunks
    rw [List.flatten_cons, List.length_append] at hfits
    have hfirst := toArg_eq htable false elem value h.1 (by
      intro found hfound
      rw [hsingles.1, valueFormat_elem helem, hchunk, Option.some.injEq] at hfound
      rw [← hfound]
      omega)
    have hrest := toArgs_elems htable elem rest helem h.2 later others hsingles.2 hothers (by omega)
    rw [Value.toArgs, hfirst, hrest, Value.argList]
    rfl

/-- The C values of the arguments of a constructor. -/
theorem toArgs_fields (htable : TableOk table) (isMtproto : Bool) (args : List Arg) (fields : List Value)
    (h : Value.FieldsWellTyped table isMtproto args fields)
    (hfits : argsLength isMtproto (args.zip (Value.argList fields)) + 1 < 2 ^ 32) :
    Value.toArgs fields = some (Value.argList fields) := by
  match args, fields, h, hfits with
  | [], [], _, _ => rfl
  | [], _ :: _, h, _ => simp [Value.FieldsWellTyped] at h
  | arg :: args, [], h, _ => simp [Value.FieldsWellTyped] at h
  | arg :: args, value :: rest, h, hfits =>
    have hcases := fieldWellTyped_cases h
    rw [Value.FieldsWellTyped] at h
    have hlater := h.2
    have hsplit : argsLength isMtproto ((arg :: args).zip (Value.argList (value :: rest))) =
        argsLength isMtproto [(arg, value.arg)] +
          argsLength isMtproto (args.zip (Value.argList rest)) := argsLength_append [_] _
    rw [hsplit, argsLength_singleton] at hfits
    have hrest := toArgs_fields htable isMtproto args rest hlater (by omega)
    have hfirst : value.toArg = some value.arg := by
      rcases hcases with ⟨-, rfl⟩ | ⟨-, -, given, rfl⟩ | ⟨-, -, -, -, rfl⟩ | ⟨type, htype, htrue, hwell⟩
      · rfl
      · rfl
      · rfl
      · apply toArg_eq htable isMtproto type value hwell
        intro chunk hchunk
        have hbytes := argBytes_of_wellTyped htype htrue hwell
        rw [hchunk, Option.getD_some] at hbytes
        have hflags : ¬ arg.isFlags = true := by simp [Arg.isFlags, htype]
        rw [if_neg hflags, hbytes] at hfits
        omega
    rw [Value.toArgs, hfirst, hrest, Value.argList]
    rfl

end

/-- The emitted encoders write the expected bytes, if they fit a buffer. -/
theorem encode_eq_wire (htable : TableOk table) {method : Method} {fields : List Value}
    (h : WellTypedObject table method fields) (hfits : (wire method fields).length + 1 < 2 ^ 32) :
    encode method fields = some (wire method fields) := by
  have hargs := toArgs_fields htable method.isMtproto method.args fields h.2.1 (by
    rw [length_wire] at hfits
    omega)
  obtain ⟨buf, hbuf, hbytes⟩ := tlMethod_wire htable h hfits
  rw [encode, hargs, ← hbytes]
  simp [hbuf]

end Encode

/-! ## The decoder reads the expected bytes back -/

mutual

/-- The field shows the value. -/
inductive Shows : Value → Field → Prop
  | flag (value : Bool) : Shows (.flag value) (.bool value)
  | int (value : UInt32) : Shows (.int value) (.int value)
  | long (value : UInt64) : Shows (.long value) (.long value)
  | double (bits : UInt64) : Shows (.double bits) (.double bits)
  | string (text : Bytes) : Shows (.string text) (.buf text)
  | bytes (data : Bytes) : Shows (.bytes data) (.buf data)
  | raw (data : Bytes) : Shows (.raw data) (.buf data)
  | vector {elems : List Value} {fields : List Field} (h : ShowsElems elems fields) :
    Shows (.vector elems) (.vector (UInt32.ofNat elems.length) fields)
  | object {method : Method} {values : List Value} {fields : List Field} (buf : Bytes)
    (h : ShowsArgs method.args values fields) :
    Shows (.object method values) (.object (some (.mk method.id buf fields)))

/-- The elements of an array show the elements of a vector. -/
inductive ShowsElems : List Value → List Field → Prop
  | nil : ShowsElems [] []
  | cons {value : Value} {field : Field} {values : List Value} {fields : List Field}
    (h : Shows value field) (hrest : ShowsElems values fields) :
    ShowsElems (value :: values) (field :: fields)

/-- The fields of a struct show the values of the arguments; an absent one has a zero field. -/
inductive ShowsArgs : List Arg → List Value → List Field → Prop
  | nil : ShowsArgs [] [] []
  | absent {args : List Arg} {values : List Value} {fields : List Field} (arg : Arg)
    (hrest : ShowsArgs args values fields) :
    ShowsArgs (arg :: args) (.absent :: values) (zeroField arg :: fields)
  | cons {args : List Arg} {value : Value} {field : Field} {values : List Value}
    {fields : List Field} (arg : Arg) (h : Shows value field)
    (hrest : ShowsArgs args values fields) :
    ShowsArgs (arg :: args) (value :: values) (field :: fields)

end

/-- The object shows the constructor with its values. -/
def ShowsObject (method : Method) (values : List Value) (tl : TlObj) : Prop :=
  tl.id = method.id ∧ ShowsArgs method.args values tl.fields

/-- A flags word is the next one that is known. -/
theorem words_concat {words : ℕ → UInt32} {flags : List UInt32}
    (hflags : ∀ k, k < flags.length → flags[k]? = some (words (k + 1))) :
    ∀ k, k < (flags ++ [words (flags.length + 1)]).length →
      (flags ++ [words (flags.length + 1)])[k]? = some (words (k + 1)) := by
  intro k hk
  rw [List.length_append, List.length_singleton] at hk
  rcases Nat.lt_succ_iff_lt_or_eq.mp hk with hlt | rfl
  · rw [List.getElem?_append_left hlt]
    exact hflags k hlt
  · rw [List.getElem?_append_right le_rfl, Nat.sub_self, List.getElem?_cons_zero]

section Decode

variable {model : DataModel} {table : List Method} {data slack : Bytes}

/-- From position `base` on, `readObject` reads every well-typed object back. -/
def ReadsObjects (table : List Method) (data slack : Bytes) (readObject : ObjectReader)
    (base : ℕ) : Prop :=
  ∀ pos method fields rest, base ≤ pos → pos ≤ data.length → WellTypedObject table method fields →
    data.drop pos = wire method fields ++ rest →
    ∃ tl, readObject (cursorAt data slack pos) =
        some (some tl, cursorAt data slack (pos + (wire method fields).length)) ∧
      ShowsObject method fields tl

theorem shows_object {method : Method} {values : List Value} {tl : TlObj}
    (h : ShowsObject method values tl) : Shows (.object method values) (.object (some tl)) := by
  obtain ⟨id, buf, fields⟩ := tl
  obtain ⟨rfl, hargs⟩ := h
  exact Shows.object buf hargs

variable {readObject : ObjectReader} {base pos : ℕ} {rest : Bytes}
  (hread : ReadsObjects table data slack readObject base) (hfits : data.length + 1 < 2 ^ 32)
  (hbase : base ≤ pos) (hpos : pos ≤ data.length)

include hread hfits hbase hpos

theorem deserializeElem_spec {elem : String} {value : Value} {single : CElem} {chunk : Bytes}
    (helem : IsElemType elem) (h : value.WellTyped table false elem)
    (harg : value.arg = .one single) (hchunk : elemFormat elem single = some chunk)
    (hdrop : data.drop pos = chunk ++ rest) :
    ∃ field, deserializeElem model readObject elem (cursorAt data slack pos) =
        some (field, cursorAt data slack (pos + chunk.length)) ∧ Shows value field := by
  cases value <;> simp only [Value.WellTyped, Value.arg, CArg.one.injEq] at h harg
  case int value =>
    subst h harg
    cases hchunk
    refine ⟨.int value, ?_, Shows.int value⟩
    simp [deserializeElem, deserializeUi32_spec hpos hfits hdrop]
  case long value =>
    subst h harg
    cases hchunk
    refine ⟨.long value, ?_, Shows.long value⟩
    simp [deserializeElem, deserializeUi64_spec hpos hfits hdrop]
  case double bits =>
    subst h harg
    cases hchunk
    refine ⟨.double bits, ?_, Shows.double bits⟩
    simp [deserializeElem, deserializeDouble_spec hpos hfits hdrop]
  case string text =>
    obtain ⟨rfl, -, hnul, hlong⟩ := h
    subst harg
    cases hchunk
    rw [takeWhile_of_not_mem hnul] at hdrop ⊢
    refine ⟨.buf text, ?_, Shows.string text⟩
    simp [deserializeElem, deserializeBytes_spec hpos hfits hdrop hlong]
  case bytes bytes =>
    obtain ⟨htype, hlong⟩ := h
    obtain rfl : elem = "bytes" := htype.resolve_right fun hstring ↦ by simp at hstring
    subst harg
    cases hchunk
    refine ⟨.buf bytes, ?_, Shows.bytes bytes⟩
    simp [deserializeElem, deserializeBytes_spec hpos hfits hdrop hlong]
  case raw bytes =>
    have hnames := helem.1
    rcases h with ⟨rfl, -⟩ | ⟨rfl, -⟩ <;> simp at hnames
  case vector elems => cases harg
  case object method fields =>
    obtain ⟨htype, hobject⟩ := h
    subst harg
    rw [elemFormat_object htype, Option.some.injEq] at hchunk
    subst hchunk
    obtain ⟨tl, htl, hshows⟩ := hread pos method fields rest hbase hpos hobject hdrop
    refine ⟨.object (some tl), ?_, shows_object hshows⟩
    have hnames := htype.1
    have helems := helem.1
    simp only [List.mem_cons, List.not_mem_nil, not_or] at hnames helems
    simp [deserializeElem, hnames, helems, htl, wire]

theorem deserializeElems_spec {elem : String} {elems : List Value} {singles : List CElem}
    {chunks : List Bytes} (helem : IsElemType elem) (h : Value.ElemsWellTyped table elem elems)
    (hsingles : Value.argList elems = singles.map .one)
    (hchunks : singles.mapM (elemFormat elem) = some chunks)
    (hdrop : data.drop pos = chunks.flatten ++ rest) :
    ∃ fields, deserializeElems model readObject elem elems.length (cursorAt data slack pos) =
        some (fields, cursorAt data slack (pos + chunks.flatten.length)) ∧
      ShowsElems elems fields := by
  induction elems generalizing singles chunks pos with
  | nil =>
    cases singles with
    | nil =>
      cases hchunks
      exact ⟨[], rfl, ShowsElems.nil⟩
    | cons => cases hsingles
  | cons value later ih =>
    cases singles with
    | nil => cases hsingles
    | cons single singles =>
      rw [Value.ElemsWellTyped] at h
      rw [Value.argList, List.map_cons, List.cons.injEq] at hsingles
      simp only [List.mapM_cons, Option.bind_eq_bind, Option.bind_eq_some_iff, Option.pure_def,
        Option.some.injEq] at hchunks
      obtain ⟨chunk, hchunk, others, hothers, rfl⟩ := hchunks
      rw [List.flatten_cons, List.append_assoc] at hdrop
      obtain ⟨field, hfield, hshows⟩ :=
        deserializeElem_spec hread hfits hbase hpos helem h.1 hsingles.1 hchunk hdrop
      obtain ⟨fields, hfields, hrest⟩ := ih (by omega) (add_le_length_of_drop_eq hdrop hpos) h.2
        hsingles.2 hothers (drop_add_of_drop_eq hdrop)
      refine ⟨field :: fields, ?_, ShowsElems.cons hshows hrest⟩
      rw [List.length_cons, deserializeElems, hfield]
      simp only [Option.bind_eq_bind, Option.bind_some, hfields, List.flatten_cons,
        List.length_append, Nat.add_assoc]

/-- A vector of at most 10000 elements is read back whole. -/
theorem deserializeVector_spec {elem : String} {elems : List Value} {singles : List CElem}
    {chunks : List Bytes} (helem : IsElemType elem) (h : Value.ElemsWellTyped table elem elems)
    (hlength : elems.length ≤ 10000) (hsingles : Value.argList elems = singles.map .one)
    (hchunks : singles.mapM (elemFormat elem) = some chunks)
    (hdrop : data.drop pos = vectorFormat singles.length chunks ++ rest) :
    ∃ field, deserializeVector model readObject elem (cursorAt data slack pos) =
        some (.next field
          (cursorAt data slack (pos + (vectorFormat singles.length chunks).length))) ∧
      Shows (.vector elems) field := by
  have hcount : singles.length = elems.length := by
    have hlengths := congrArg List.length hsingles
    rw [length_argList, List.length_map] at hlengths
    exact hlengths.symm
  rw [hcount] at hdrop ⊢
  rw [vectorFormat, List.append_assoc, List.append_assoc] at hdrop
  have hid : deserializeUi32 model (cursorAt data slack pos) = _ :=
    deserializeUi32_spec hpos hfits hdrop
  have hposId := add_le_length_of_drop_eq hdrop hpos
  have hdropId := drop_add_of_drop_eq hdrop
  rw [length_le32] at hposId hdropId
  have hlen : deserializeUi32 model (cursorAt data slack (pos + 4)) = _ :=
    deserializeUi32_spec hposId hfits hdropId
  have hposLen := add_le_length_of_drop_eq hdropId hposId
  have hdropLen := drop_add_of_drop_eq hdropId
  rw [length_le32] at hposLen hdropLen
  have hbaseLen : base ≤ pos + 4 + 4 := by omega
  obtain ⟨fields, hfields, hshows⟩ :
      ∃ fields, deserializeElems model readObject elem elems.length _ = _ ∧ _ :=
    deserializeElems_spec hread hfits hbaseLen hposLen helem h hsingles hchunks hdropLen
  have htoNat : (UInt32.ofNat elems.length).toNat = elems.length := by
    rw [UInt32.toNat_ofNat']
    omega
  have hvalue : intOfUi32 (UInt32.ofNat elems.length) = elems.length := by
    rw [intOfUi32_of_lt (by omega), htoNat]
  have hend : pos + 4 + 4 + chunks.flatten.length =
      pos + (vectorFormat elems.length chunks).length := by
    simp only [vectorFormat, List.length_append, length_le32]
    omega
  have hlenAll : deserializeLen model (cursorAt data slack pos) =
      some (UInt32.ofNat elems.length, cursorAt data slack (pos + 4 + 4)) := by
    rw [deserializeLen, hid, Option.bind_eq_bind, Option.bind_some, if_pos rfl]
    exact hlen
  refine ⟨.vector (UInt32.ofNat elems.length) fields, ?_, Shows.vector hshows⟩
  rw [deserializeVector, hlenAll]
  rw [Option.bind_eq_bind, Option.bind_some]
  dsimp only
  rw [hvalue, if_neg (by omega), htoNat, hfields, hend, Option.bind_eq_bind, Option.bind_some]

theorem deserializeValue_spec {isMtproto : Bool} {type : String} {value : Value} {chunk : Bytes}
    (h : value.WellTyped table isMtproto type)
    (hchunk : valueFormat isMtproto type value.arg = some chunk)
    (hdrop : data.drop pos = chunk ++ rest) :
    ∃ field, deserializeValue model readObject type (cursorAt data slack pos) =
        some (.next field (cursorAt data slack (pos + chunk.length))) ∧ Shows value field := by
  cases value <;> simp only [Value.WellTyped, Value.arg] at h hchunk
  case int value =>
    subst h
    simp [valueFormat, vectorElem, strstr, elemFormat, CArg.toOne] at hchunk
    subst hchunk
    refine ⟨.int value, ?_, Shows.int value⟩
    simp [deserializeValue, deserializeUi32_spec hpos hfits hdrop]
  case long value =>
    subst h
    simp [valueFormat, vectorElem, strstr, elemFormat, CArg.toOne] at hchunk
    subst hchunk
    refine ⟨.long value, ?_, Shows.long value⟩
    simp [deserializeValue, deserializeUi64_spec hpos hfits hdrop]
  case double bits =>
    subst h
    simp [valueFormat, vectorElem, strstr, elemFormat, CArg.toOne] at hchunk
    subst hchunk
    refine ⟨.double bits, ?_, Shows.double bits⟩
    simp [deserializeValue, deserializeDouble_spec hpos hfits hdrop]
  case string text =>
    obtain ⟨rfl, rfl, hnul, hlong⟩ := h
    have htext := takeWhile_of_not_mem hnul
    simp only [ne_eq, decide_not] at htext
    simp [valueFormat, vectorElem, strstr, elemFormat, CArg.toOne, htext] at hchunk
    subst hchunk
    refine ⟨.buf text, ?_, Shows.string text⟩
    simp [deserializeValue, deserializeBytes_spec hpos hfits hdrop hlong]
  case bytes bytes =>
    obtain ⟨htype, hlong⟩ := h
    have hbytes : chunk = tlBytes bytes := by
      rcases htype with rfl | ⟨rfl, rfl⟩ <;>
        simp [valueFormat, vectorElem, strstr, elemFormat, CArg.toOne, CArg.toBuf] at hchunk <;>
        exact hchunk.symm
    subst hbytes
    refine ⟨.buf bytes, ?_, Shows.bytes bytes⟩
    rcases htype with rfl | ⟨rfl, rfl⟩ <;>
      simp [deserializeValue, deserializeBytes_spec hpos hfits hdrop hlong]
  case raw bytes =>
    have hbytes : chunk = bytes := by
      rcases h with ⟨rfl, hlength⟩ | ⟨rfl, hlength⟩ <;>
        simp [valueFormat, CArg.toBuf, takeData_of_length_eq hlength] at hchunk <;>
        exact hchunk.symm
    subst hbytes
    have hbuf : deserializeBuf model (cursorAt data slack pos) chunk.length = _ :=
      deserializeBuf_spec hpos hfits hdrop
    refine ⟨.buf chunk, ?_, Shows.raw chunk⟩
    rcases h with ⟨rfl, hlength⟩ | ⟨rfl, hlength⟩ <;>
      rw [hlength] at hbuf ⊢ <;> simp at hbuf <;> simp [deserializeValue, hbuf]
  case vector elems =>
    obtain ⟨elem, hvector, helem, hlength, helems⟩ := h
    obtain ⟨singles, chunks, hsingles, -, hchunks⟩ := exists_elemsFormat helem helems
    rw [hsingles, filterMap_toOne, valueFormat_vector hvector, hchunks, Option.map_some,
      Option.some.injEq] at hchunk
    subst hchunk
    obtain ⟨field, hfield, hshows⟩ :
        ∃ field, deserializeVector model readObject elem (cursorAt data slack pos) = _ ∧ _ :=
      deserializeVector_spec hread hfits hbase hpos helem helems hlength hsingles hchunks hdrop
    refine ⟨field, ?_, hshows⟩
    have hnames : ∀ name ∈ ["int", "true", "bool", "long", "double", "string", "bytes", "int128",
        "int256"], type ≠ name := by
      rintro name hname rfl
      revert hvector
      simp only [List.mem_cons, List.not_mem_nil, or_false] at hname
      rcases hname with rfl | rfl | rfl | rfl | rfl | rfl | rfl | rfl | rfl <;>
        simp [vectorElem, strstr]
    simp only [List.mem_cons, List.not_mem_nil, or_false, forall_eq_or_imp, forall_eq] at hnames
    simp [deserializeValue, hnames, hvector, hfield]
  case object method fields =>
    obtain ⟨htype, hobject⟩ := h
    rw [valueFormat_object htype, Option.some.injEq] at hchunk
    subst hchunk
    obtain ⟨tl, htl, hshows⟩ := hread pos method fields rest hbase hpos hobject hdrop
    refine ⟨.object (some tl), ?_, shows_object hshows⟩
    obtain ⟨hnames, hvector⟩ := htype
    simp only [List.mem_cons, List.not_mem_nil, not_or] at hnames
    simp [deserializeValue, hnames, hvector, htl, wire]

omit hread hfits hbase hpos in
theorem argPresent_spec {words : ℕ → UInt32} {flags : List UInt32} {arg : Arg} {value : Value}
    (hflagn : arg.flagn ≤ flags.length)
    (hflags : ∀ k, k < flags.length → flags[k]? = some (words (k + 1)))
    (hbit : arg.flagn ≠ 0 →
      (words arg.flagn &&& flagBit arg.flagb = flagBit arg.flagb ↔ value.present = true))
    (hpresent : arg.flagn = 0 → value.present = true) :
    argPresent flags arg = some value.present := by
  rw [argPresent]
  split
  · rename_i hzero
    rw [hpresent hzero]
  · rename_i hne
    have hindex := hflags (arg.flagn - 1) (by omega)
    rw [Nat.sub_add_cancel (Nat.one_le_iff_ne_zero.mpr hne)] at hindex
    rw [hindex, Option.map_some, Option.some.injEq, Bool.eq_iff_iff, decide_eq_true_eq]
    exact hbit hne

/-- The arguments of a constructor. `words` are its flags words, of which `flags` have been read;
the test for an argument under a flag agrees with the value. -/
theorem deserializeArgs_spec {isMtproto : Bool} {words : ℕ → UInt32} {args : List Arg}
    {values : List Value} {flags : List UInt32}
    (h : Value.FieldsWellTyped table isMtproto args values)
    (hscoped : Scoped flags.length args)
    (hflags : ∀ k, k < flags.length → flags[k]? = some (words (k + 1)))
    (hbits : ∀ pair ∈ args.zip values, pair.1.flagn ≠ 0 →
      (words pair.1.flagn &&& flagBit pair.1.flagb = flagBit pair.1.flagb ↔
        pair.2.present = true))
    (hdrop : data.drop pos =
      argsLayout isMtproto words flags.length (args.zip (Value.argList values)) ++ rest) :
    ∃ fields, deserializeArgs model readObject flags args (cursorAt data slack pos) =
        some (fields, cursorAt data slack
          (pos + argsLength isMtproto (args.zip (Value.argList values)))) ∧
      ShowsArgs args values fields := by
  induction args generalizing values flags pos with
  | nil =>
    cases values with
    | nil => exact ⟨[], rfl, ShowsArgs.nil⟩
    | cons => simp [Value.FieldsWellTyped] at h
  | cons arg args ih =>
    cases values with
    | nil => simp [Value.FieldsWellTyped] at h
    | cons value later =>
      have hcases := fieldWellTyped_cases h
      rw [Value.FieldsWellTyped] at h
      obtain ⟨hflagn, hflagb, hscopedRest⟩ := hscoped
      have hfirstBit := hbits (arg, value) (by simp)
      have hrestBits : ∀ pair ∈ args.zip later, pair.1.flagn ≠ 0 → _ :=
        fun pair hmem ↦ hbits pair (by simp [hmem])
      have hsplit : argsLength isMtproto ((arg :: args).zip (Value.argList (value :: later))) =
          argsLength isMtproto [(arg, value.arg)] +
            argsLength isMtproto (args.zip (Value.argList later)) := argsLength_append [_] _
      rw [hsplit, argsLength_singleton, ← Nat.add_assoc]
      rw [Value.argList, List.zip_cons_cons, argsLayout] at hdrop
      by_cases hword : arg.isFlags = true
      · rw [if_pos hword, List.append_assoc] at hdrop
        rw [if_pos hword]
        have hvalue : value = .absent := by
          rcases hcases with ⟨-, rfl⟩ | ⟨hsome, -⟩ | ⟨type, hsome, -⟩ | ⟨type, hsome, -⟩
          · rfl
          all_goals simp [type_of_isFlags hword] at hsome
        have hposWord := add_le_length_of_drop_eq hdrop hpos
        have hdropWord := drop_add_of_drop_eq hdrop
        rw [length_le32] at hposWord hdropWord
        have hlength : (flags ++ [words (flags.length + 1)]).length = flags.length + 1 := by simp
        have hscopedWord : Scoped (flags ++ [words (flags.length + 1)]).length args := by
          rw [hlength]
          simpa only [hword, if_true] using hscopedRest
        obtain ⟨fields, hfields, hshows⟩ := ih (by omega) hposWord h.2 hscopedWord
          (words_concat hflags) hrestBits (by rw [hlength]; exact hdropWord)
        refine ⟨zeroField arg :: fields, ?_, hvalue ▸ ShowsArgs.absent arg hshows⟩
        rw [deserializeArgs_flags (type_of_isFlags hword) hword, deserializeUi32_spec hpos hfits hdrop,
          Option.bind_some, hfields]
        rfl
      · rw [if_neg hword, List.append_assoc] at hdrop
        rw [if_neg hword]
        obtain ⟨fields, hfields, hshows⟩ := ih (by omega) (add_le_length_of_drop_eq hdrop hpos) h.2
          (by simpa only [if_neg hword] using hscopedRest) hflags hrestBits
          (drop_add_of_drop_eq hdrop)
        rcases hcases with ⟨htype, rfl⟩ | ⟨htype, hne, given, rfl⟩ | ⟨type, htype, htrue, hne, rfl⟩ |
          ⟨type, htype, htrue, hvalue⟩
        · have hbytes : argBytes isMtproto arg (Value.arg .absent) = [] := by simp [argBytes, htype]
          rw [hbytes, List.length_nil, Nat.add_zero] at hfields ⊢
          refine ⟨zeroField arg :: fields, ?_, ShowsArgs.absent arg hshows⟩
          rw [deserializeArgs_untyped htype (Bool.eq_false_iff.mpr hword), hfields]
          rfl
        · have hbytes : argBytes isMtproto arg (Value.arg (.flag given)) = [] := by
            simp [argBytes, htype]
          have hpresent := argPresent_spec hflagn hflags hfirstBit (fun hzero ↦ absurd hzero hne)
          rw [hbytes, List.length_nil, Nat.add_zero] at hfields ⊢
          refine ⟨.bool given :: fields, ?_, ShowsArgs.cons arg (Shows.flag given) hshows⟩
          cases given with
          | true =>
            have hvalue (cursor : Cursor) : deserializeValue model readObject "true" cursor =
                some (.next (.bool true) cursor) := rfl
            rw [deserializeArgs_present htype hpresent, hvalue, Option.bind_some]
            dsimp only
            rw [hfields]
            rfl
          | false =>
            have hzero : zeroField arg = .bool false := by simp [zeroField, htype]
            rw [deserializeArgs_absent htype hpresent, hfields, hzero]
            rfl
        · have hbytes : argBytes isMtproto arg (Value.arg .absent) = [] := by
            simp [argBytes, htype, htrue, hne, Value.arg, CArg.present]
          have hpresent := argPresent_spec hflagn hflags hfirstBit (fun hzero ↦ absurd hzero hne)
          rw [hbytes, List.length_nil, Nat.add_zero] at hfields ⊢
          refine ⟨zeroField arg :: fields, ?_, ShowsArgs.absent arg hshows⟩
          rw [deserializeArgs_absent htype hpresent, hfields]
          rfl
        · have hbytes := argBytes_of_wellTyped htype htrue hvalue
          obtain ⟨chunk, hchunk⟩ := Option.isSome_iff_exists.mp (exists_valueFormat hvalue).1
          rw [hchunk, Option.getD_some] at hbytes
          have hpresent := argPresent_spec hflagn hflags hfirstBit
            (fun _ ↦ present_of_wellTyped hvalue)
          rw [hbytes] at hfields hdrop ⊢
          obtain ⟨field, hfield, hshowsField⟩ :
              ∃ field, deserializeValue model readObject type (cursorAt data slack pos) = _ ∧ _ :=
            deserializeValue_spec hread hfits hbase hpos hvalue hchunk hdrop
          rw [present_of_wellTyped hvalue] at hpresent
          refine ⟨field :: fields, ?_, ShowsArgs.cons arg hshowsField hshows⟩
          rw [deserializeArgs_present htype hpresent, hfield, Option.bind_some]
          dsimp only
          rw [hfields]
          rfl

end Decode

/-! ## Whole objects -/

section Object

variable {model : DataModel} {table : List Method} {data slack : Bytes}

theorem and_flagBit_eq_iff (word : UInt32) {bit : ℕ} (hbit : bit < 32) :
    word &&& flagBit bit = flagBit bit ↔ word.toNat.testBit bit = true := by
  constructor
  · intro h
    have htest := flagBit_testBit bit bit hbit
    rw [← h, UInt32.toNat_and, Nat.testBit_and, decide_eq_true rfl, Bool.and_eq_true] at htest
    exact htest.1
  · intro h
    apply UInt32.toNat_inj.mp
    apply Nat.eq_of_testBit_eq
    intro index
    rw [UInt32.toNat_and, Nat.testBit_and, flagBit_testBit _ _ hbit]
    by_cases heq : bit = index
    · subst heq
      simp [h]
    · simp [heq]

theorem argList_eq_map (values : List Value) : Value.argList values = values.map Value.arg := by
  induction values with
  | nil => rfl
  | cons value rest ih => rw [Value.argList, ih, List.map_cons]

/-- The flags words of an encoded object say which of its arguments are there. -/
theorem flagsWord_present {method : Method} {values : List Value}
    (hscoped : Scoped 0 method.args) (hshared : SharedBits (method.args.zip values))
    {pair : Arg × Value} (hmem : pair ∈ method.args.zip values) (hne : pair.1.flagn ≠ 0) :
    flagsWord (method.args.zip (Value.argList values)) pair.1.flagn &&& flagBit pair.1.flagb =
      flagBit pair.1.flagb ↔ pair.2.present = true := by
  have hflagb : ∀ pair ∈ method.args.zip (Value.argList values), pair.1.flagb < 32 := by
    intro other hother
    exact flagb_lt_of_scoped hscoped other.1 (List.of_mem_zip hother).1
  rw [and_flagBit_eq_iff _ (flagb_lt_of_scoped hscoped pair.1 (List.of_mem_zip hmem).1),
    flagsWord_testBit hflagb, argList_eq_map, List.zip_map_right]
  constructor
  · rintro ⟨found, hfound, -, hflagn, hflagbEq, hpresent⟩
    obtain ⟨source, hsource, rfl⟩ := List.mem_map.mp hfound
    rw [hshared pair hmem source hsource hne hflagn.symm hflagbEq.symm, ← present_arg]
    exact hpresent
  · intro hpresent
    exact ⟨_, List.mem_map_of_mem hmem, hne, rfl, rfl, by rw [← hpresent]; exact present_arg pair.2⟩

theorem getFun_of_mem (hnodup : (table.map Method.id).Nodup) {method : Method}
    (hmem : method ∈ table) : getFun table method.id = some method := by
  induction table with
  | nil => cases hmem
  | cons head rest ih =>
    rw [List.map_cons, List.nodup_cons] at hnodup
    rw [getFun, List.find?_cons]
    rcases List.mem_cons.mp hmem with rfl | hlater
    · simp
    · have hne : head.id ≠ method.id := by
        intro heq
        exact hnodup.1 (heq ▸ List.mem_map_of_mem hlater)
      simp only [hne, decide_false]
      exact ih hnodup.2 hlater

/-- One emitted decoder, when the objects inside are read back. -/
theorem deserializeMethod_spec (htable : TableOk table) {readObject : ObjectReader} {pos : ℕ}
    {method : Method} {values : List Value} {rest : Bytes}
    (hread : ReadsObjects table data slack readObject (pos + 4))
    (hfits : data.length + 1 < 2 ^ 32) (hpos : pos ≤ data.length)
    (h : WellTypedObject table method values)
    (hdrop : data.drop pos = wire method values ++ rest) :
    ∃ tl, deserializeMethod model readObject method (cursorAt data slack pos) =
        some (tl, cursorAt data slack (pos + (wire method values).length)) ∧
      ShowsObject method values tl := by
  obtain ⟨hmem, hfields, hshared⟩ := h
  have hscoped := htable.args_scoped method hmem
  rw [length_wire, ← Nat.add_assoc]
  rw [wire, methodFormat, emitted, List.append_assoc] at hdrop
  have hposId := add_le_length_of_drop_eq hdrop hpos
  have hdropId := drop_add_of_drop_eq hdrop
  rw [length_le32] at hposId hdropId
  obtain ⟨fields, hrun, hshows⟩ : ∃ fields,
      deserializeArgs model readObject [] method.args (cursorAt data slack (pos + 4)) = _ ∧ _ :=
    deserializeArgs_spec hread hfits le_rfl hposId hfields hscoped (by simp)
      (fun pair hpair hne ↦ flagsWord_present hscoped hshared hpair hne) hdropId
  have hsize : (cursorAt data slack pos).size.toNat = (data.drop pos).length := by
    rw [cursorAt, List.length_drop, UInt32.toNat_ofNat']
    exact Nat.mod_eq_of_lt (by omega)
  have hcopy : (cursorAt data slack pos).addBuf (data.drop pos).length = some (data.drop pos) :=
    addBuf_cursorAt (List.append_nil _).symm hpos hfits
  refine ⟨.mk method.id (data.drop pos) fields, ?_, rfl, hshows⟩
  rw [deserializeMethod, hsize, hcopy, Option.bind_eq_bind, Option.bind_some,
    deserializeUi32_spec hpos hfits hdrop, Option.bind_eq_bind, Option.bind_some]
  dsimp only
  rw [if_neg (htable.name_ne_vector method hmem), hrun, Option.bind_eq_bind, Option.bind_some]

/-- With more fuel than bytes are left, `tl_deserialize` reads every object back. The induction is
on the fuel: a nested object starts at least four bytes later. -/
theorem readsObjects_tlDeserializeFuel (model : DataModel) (slack : Bytes)
    (htable : TableOk table) (hfits : data.length + 1 < 2 ^ 32) (fuel base : ℕ) (hfuel : data.length < base + fuel) :
    ReadsObjects table data slack (tlDeserializeFuel model table fuel) base := by
  induction fuel generalizing base with
  | zero =>
    intro pos method values rest hbase hpos
    omega
  | succ fuel ih =>
    intro pos method values rest hbase hpos h hdrop
    have hinner := ih (pos + 4) (by omega)
    obtain ⟨tl, htl, hshows⟩ : ∃ tl, deserializeMethod model _ method (cursorAt data slack pos) =
        _ ∧ _ := deserializeMethod_spec htable hinner hfits hpos h hdrop
    refine ⟨tl, ?_, hshows⟩
    have hid : data.drop pos = le32 method.id ++
        (argsLayout method.isMtproto (flagsWord (method.args.zip (Value.argList values))) 0
          (method.args.zip (Value.argList values)) ++ rest) := by
      rw [hdrop, wire, methodFormat, emitted, List.append_assoc]
    have hbytes : (cursorAt data slack pos).read _ = _ := read_cursorAt hid hpos
    rw [length_le32] at hbytes
    rw [tlDeserializeFuel, hbytes, Option.bind_eq_bind, Option.bind_some, getUi32_le32,
      if_neg (htable.id_ne_zero method h.1), getFun_of_mem htable.ids_nodup h.1]
    dsimp only
    rw [htl, Option.bind_eq_bind, Option.bind_some]

/-- Round trip. What the emitted encoders return for a well-typed tree, followed by any bytes,
`tl_deserialize` reads back: the fields of the object show the values of the tree, and the cursor
stands at the first of the following bytes. -/
theorem tlDeserialize_encode (model : DataModel) (htable : TableOk table) {method : Method}
    {values : List Value} (h : WellTypedObject table method values) (rest slack : Bytes)
    (hfits : (wire method values ++ rest).length + 1 < 2 ^ 32) :
    ∃ bytes tl, encode method values = some bytes ∧
      tlDeserialize model table (cursorAt (bytes ++ rest) slack 0) =
        some (some tl, cursorAt (bytes ++ rest) slack bytes.length) ∧
      ShowsObject method values tl := by
  have hencode := encode_eq_wire htable h (by
    rw [List.length_append] at hfits
    omega)
  obtain ⟨tl, htl, hshows⟩ := readsObjects_tlDeserializeFuel model slack htable hfits
    ((wire method values ++ rest ++ slack).length + 1) 0
    (by simp only [List.length_append]; omega) 0 method values rest le_rfl (Nat.zero_le _) h rfl
  rw [Nat.zero_add] at htl
  exact ⟨wire method values, tl, hencode, htl, hshows⟩

end Object

/-- Three constructors of the schema: `messages.saveDraft`, `inputPeerSelf#7da07ec9` and
`messageEntityBold#bd610bc9`. -/
def draftTable : List Method :=
  [messagesSaveDraft, ⟨"inputPeerSelf", 0x7da07ec9, [], false⟩,
    ⟨"messageEntityBold", 0xbd610bc9, [⟨"offset", some "int", 0, 0⟩, ⟨"length", some "int", 0, 0⟩],
      false⟩]

/-- A draft `hi` in bold, without web preview and with an effect. -/
def boldDraft : List Value :=
  [.absent, .flag true, .flag false, .absent,
    .object ⟨"inputPeerSelf", 0x7da07ec9, [], false⟩ [], .string [104, 105],
    .vector [.object ⟨"messageEntityBold", 0xbd610bc9,
      [⟨"offset", some "int", 0, 0⟩, ⟨"length", some "int", 0, 0⟩], false⟩ [.int 0, .int 2]],
    .absent, .long 7]

theorem tableOk_draftTable : TableOk draftTable where
  ids_nodup := by decide
  id_ne_zero := by decide
  name_ne_vector := by decide
  args_scoped := by decide

theorem wellTyped_boldDraft : WellTypedObject draftTable messagesSaveDraft boldDraft := by
  have hpeer : vectorElem "InputPeer" = none := by decide
  have hentities : vectorElem "Vector<MessageEntity>" = some "MessageEntity" := by decide
  have hentity : vectorElem "MessageEntity" = none := by decide
  refine ⟨by simp [draftTable], ?_, ?_⟩
  · simp [boldDraft, messagesSaveDraft, Value.FieldsWellTyped, Value.WellTyped,
      Value.ElemsWellTyped, IsObjectType, IsElemType, hpeer, hentities, hentity, draftTable,
      SharedBits]
  · simp [SharedBits, boldDraft, messagesSaveDraft, Value.present]

/-- The bold draft is read back in front of two further bytes. -/
theorem boldDraft_roundTrip :
    ∃ bytes tl, encode messagesSaveDraft boldDraft = some bytes ∧
      tlDeserialize .ilp32 draftTable (cursorAt (bytes ++ [1, 2]) [0] 0) =
        some (some tl, cursorAt (bytes ++ [1, 2]) [0] bytes.length) ∧
      ShowsObject messagesSaveDraft boldDraft tl :=
  tlDeserialize_encode .ilp32 tableOk_draftTable wellTyped_boldDraft [1, 2] [0] (by decide)

end LibTg.Tl
