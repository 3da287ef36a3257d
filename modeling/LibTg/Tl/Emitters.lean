import LibTg.Tl.Schema
import Mathlib.Data.List.Nodup
import Mathlib.Data.List.Pairwise
import Mathlib.Data.List.Count

/-!
# The emitted struct, decoder and destructor (`tl_generator/generator.c`)

For every constructor `append_struct` writes a struct, `append_deserialize_table` a function that
fills it, and `append_free` a function that releases it. Each goes through the arguments on its own
and prints the names of the members again. Here are the members, assignments and calls that are
printed; `fieldsAgree_iff` says when the members that are assigned are the ones that are declared.

`append_struct` and `append_free` put a name into an array of 64 characters, and `append_struct` does
so with the declaration of a length. The block of this second array has ended when the declaration is
printed; the text is taken to be still there. Nothing else is cut while names are shorter than 60
characters.
-/

namespace LibTg.Tl

/-- `STR(buf, len, ...)`: what is left of a text in an array of `size` characters. -/
def str (size : ℕ) (text : List Char) : List Char := text.take (size - 2)

/-- The types in the emitted program. `tl` is `tl_t *`, and `message` is `mtp_message_t`. -/
inductive CType where
  | int
  | uint32
  | uint64
  | double
  | bool
  | buf
  | string
  | tl
  | message
  | pointer (elem : CType)
  deriving DecidableEq, Repr

/-- `string_t` is another name of `buf_t`. -/
def CType.resolve : CType → CType
  | .string => .buf
  | .pointer elem => .pointer elem.resolve
  | type => type

/-- A member has the type of what it is assigned. An `int` holds a `uint32_t` with the same bits. -/
def CType.Takes (declared assigned : CType) : Prop :=
  declared.resolve = assigned.resolve ∨ declared = .int ∧ assigned = .uint32

/-- A member of a struct, or an assignment to it. -/
structure Member where
  name : List Char
  type : CType
  deriving DecidableEq, Repr

/-- The types that none of the emitters takes for an object. -/
def baseTypes : List String :=
  ["bytes", "string", "true", "bool", "int", "long", "int128", "int256", "%Message", "double"]

/-! ## The struct -/

/-- The type that is declared for a type of the schema. -/
def structType (type : String) : CType :=
  if type ∉ baseTypes then .tl
  else if type = "bytes" ∨ type = "int256" ∨ type = "int128" then .buf
  else if type = "string" then .string
  else if type = "long" then .uint64
  else if type = "int" then .uint32
  else if type = "%Message" then .message
  else if type = "double" then .double
  else .bool

/-- The name of the member for an argument, as `append_struct` and `append_free` print it. -/
def memberName (arg : Arg) : List Char := str 64 (arg.name.toList ++ ['_'])

/-- The name of the length that `append_struct` declares behind a vector, by `"; int %slen"`. The array
of this text ends with the block before the text is printed; the model takes it to be there still. -/
def declaredLen (name : List Char) : List Char :=
  (str 64 ("; int ".toList ++ name ++ "len".toList)).drop "; int ".length

/-- What `append_struct` declares for an argument. -/
def appendStructArg (arg : Arg) : List Member :=
  if arg.isFlags then []
  else
    let type := arg.type.getD "int"
    match vectorElem type with
    | some elem =>
      [⟨memberName arg, .pointer (structType elem)⟩, ⟨declaredLen (memberName arg), .int⟩]
    | none => [⟨memberName arg, structType type⟩]

/-- The members of every struct. The one of `vector` has two more. -/
def structHeader (method : Method) : List Member :=
  [⟨"_id".toList, .uint32⟩, ⟨"_buf".toList, .buf⟩] ++
    if method.name = "vector" then [⟨"len_".toList, .uint32⟩, ⟨"data_".toList, .buf⟩] else []

def appendStruct (method : Method) : List Member :=
  structHeader method ++ method.args.flatMap appendStructArg

/-! ## The decoder -/

/-- The functions that read a value from the buffer. `copy` is `buf_add_buf(*buf)`. -/
inductive Reader where
  | ui32
  | ui64
  | double
  | bytes
  | buf (size : ℕ)
  | copy
  | message
  | object
  deriving DecidableEq, Repr

/-- What such a function returns. -/
def Reader.type : Reader → CType
  | .ui32 => .uint32
  | .ui64 => .uint64
  | .double => .double
  | .bytes => .buf
  | .buf _ => .buf
  | .copy => .buf
  | .message => .message
  | .object => .tl

/-- What is emitted for a value: `obj->x_ = true`, `obj->x_ = read(buf)`, or the statements for a
vector, with the type of the array and the function that reads an element. -/
inductive Assign where
  | true (member : List Char)
  | read (member : List Char) (reader : Reader)
  | vector (len array : List Char) (elem : CType) (reader : Reader)
  deriving DecidableEq, Repr

/-- The statements of a decoder: reading the next flags word, and an assignment under the test of a
flag, if `flagn` is not zero. -/
inductive DecodeStmt where
  | flags
  | assign (flagn flagb : ℕ) (assign : Assign)
  deriving DecidableEq, Repr

/-- The array and the reader for the elements of a vector. -/
def elemReader (type : String) : CType × Reader :=
  if type = "int" then (.uint32, .ui32)
  else if type = "bool" then (.bool, .ui32)
  else if type = "long" then (.uint64, .ui64)
  else if type = "double" then (.double, .double)
  else if type = "string" then (.buf, .bytes)
  else if type = "bytes" then (.buf, .bytes)
  else if type = "%Message" then (.message, .message)
  else (.tl, .object)

/-- What is emitted for a value of a type. -/
def assignOf (name : List Char) (type : String) : Assign :=
  if type = "int" then .read (name ++ ['_']) .ui32
  else if type = "true" then .true (name ++ ['_'])
  else if type = "bool" then .read (name ++ ['_']) .ui32
  else if type = "long" then .read (name ++ ['_']) .ui64
  else if type = "double" then .read (name ++ ['_']) .double
  else if type = "string" then .read (name ++ ['_']) .bytes
  else if type = "bytes" then .read (name ++ ['_']) .bytes
  else if type = "int128" then .read (name ++ ['_']) (.buf 16)
  else if type = "int256" then .read (name ++ ['_']) (.buf 32)
  else
    match vectorElem type with
    | some elem =>
      .vector (name ++ "_len".toList) (name ++ ['_']) (elemReader elem).1 (elemReader elem).2
    | none => .read (name ++ ['_']) .object

/-- What `append_deserialize_table` emits for an argument. -/
def appendDeserializeArg (arg : Arg) : List DecodeStmt :=
  match arg.type with
  | none => if arg.isFlags then [.flags] else []
  | some type => [.assign arg.flagn arg.flagb (assignOf arg.name.toList type)]

/-- The assignments at the beginning of a decoder. -/
def decodeHeader (method : Method) : List DecodeStmt :=
  [.assign 0 0 (.read "_buf".toList .copy), .assign 0 0 (.read "_id".toList .ui32)] ++
    if method.name = "vector" then
      [.assign 0 0 (.read "len_".toList .ui32), .assign 0 0 (.read "data_".toList .copy)]
    else []

def appendDeserializeTable (method : Method) : List DecodeStmt :=
  decodeHeader method ++ method.args.flatMap appendDeserializeArg

/-- The members that are assigned, with the types of the values. In a vector the array is assigned
and its elements are. -/
def Assign.members : Assign → List Member
  | .true member => [⟨member, .bool⟩]
  | .read member reader => [⟨member, reader.type⟩]
  | .vector len array elem reader =>
    [⟨len, .uint32⟩, ⟨array, .pointer elem⟩, ⟨array, .pointer reader.type⟩]

/-- The members that a statement assigns. -/
def DecodeStmt.members : DecodeStmt → List Member
  | .flags => []
  | .assign _ _ value => value.members

/-! ## The destructor -/

/-- `tl_free(x)`, `buf_free(x)`, and `buf_free(x.body_)`. -/
inductive FreeCall where
  | tlFree
  | bufFree
  | bufFreeBody
  deriving DecidableEq, Repr

/-- The statements of a destructor: a call for a member, and the loop over a vector, which may have
no body, with the `free` of the array. -/
inductive FreeStmt where
  | call (call : FreeCall) (member : List Char)
  | vector (len array : List Char) (call : Option FreeCall)
  deriving DecidableEq, Repr

/-- The call for a value, or for an element of a vector. -/
def freeCall (type : String) : Option FreeCall :=
  if type ∉ baseTypes then some .tlFree
  else if type = "bytes" ∨ type = "int256" ∨ type = "int128" then some .bufFree
  else if type = "string" then some .bufFree
  else none

/-- What `append_free` emits for an argument. Only the body of a message that is a member itself is
freed, not that of one in a vector. -/
def appendFreeArg (arg : Arg) : List FreeStmt :=
  if arg.isFlags then []
  else
    let type := arg.type.getD "int"
    match vectorElem type with
    | some elem =>
      [.vector (memberName arg ++ "len".toList) (memberName arg) (freeCall elem)]
    | none =>
      if type = "%Message" then [.call .bufFreeBody (memberName arg)]
      else ((freeCall type).map (.call · (memberName arg))).toList

/-- `append_free`. The last statement, `free(tl)`, is not listed. -/
def appendFree (method : Method) : List FreeStmt :=
  (if method.name = "vector" then [.call .bufFree "data_".toList] else []) ++
    method.args.flatMap appendFreeArg ++ [.call .bufFree "_buf".toList]

/-! ## The promise about the members -/

/-- The members that are declared for a name. -/
def declarations (members : List Member) (name : List Char) : List Member :=
  members.filter fun member ↦ member.name = name

/-- Every member that the decoder assigns is declared once, with the type of what is assigned. -/
def FieldsAgree (method : Method) : Prop :=
  ∀ assigned ∈ (appendDeserializeTable method).flatMap DecodeStmt.members,
    ∃ declared, declarations (appendStruct method) assigned.name = [declared] ∧
      declared.type.Takes assigned.type

/-- An argument with a name shorter than 60 characters and one of the types `int`, `long`, `double`,
`string`, `bytes`, `int128`, `int256`, `true`, an object, or a vector of `int`, `long`, `double`,
`string`, `bytes`, objects or messages. Without a type it is a flags word. -/
def Arg.Described (arg : Arg) : Prop :=
  arg.name.toList.length < 60 ∧
    match arg.type with
    | none => arg.isFlags = true
    | some type => type ∉ ["bool", "%Message"] ∧
        ∀ elem ∈ vectorElem type, elem ∉ ["true", "bool", "int128", "int256"]

/-- A constructor with such arguments. -/
def Method.Described (method : Method) : Prop := ∀ arg ∈ method.args, arg.Described

/-- The names that become members. Those of `vector` begin with two that are not arguments. -/
def Method.fieldNames (method : Method) : List (List Char) :=
  (if method.name = "vector" then ["len".toList, "data".toList] else []) ++
    (method.args.filter fun arg ↦ ¬ arg.isFlags).map fun arg ↦ arg.name.toList

def Arg.isVector (arg : Arg) : Bool := (arg.type.bind vectorElem).isSome

/-- The names differ, and those of vectors are shorter than 53 characters. -/
structure NamesFit (method : Method) : Prop where
  nodup : method.fieldNames.Nodup
  short : ∀ arg ∈ method.args, arg.isVector = true → arg.name.toList.length < 53

/-! ## Which members agree -/

theorem declarations_eq_singleton {members : List Member} (hnodup : (members.map Member.name).Nodup)
    {declared : Member} (hmem : declared ∈ members) :
    declarations members declared.name = [declared] := by
  induction members with
  | nil => cases hmem
  | cons first rest ih =>
    rw [List.map_cons, List.nodup_cons] at hnodup
    rw [declarations, List.filter_cons]
    rcases List.mem_cons.mp hmem with rfl | hrest
    · have hnone : rest.filter (fun member ↦ member.name = declared.name) = [] := by
        rw [List.filter_eq_nil_iff]
        intro other hother heq
        exact hnodup.1 (List.mem_map.mpr ⟨other, hother, of_decide_eq_true heq⟩)
      rw [hnone, if_pos (decide_eq_true rfl)]
    · have hne : first.name ≠ declared.name := fun heq ↦
        hnodup.1 (heq ▸ List.mem_map_of_mem hrest)
      rw [if_neg (by rw [decide_eq_true_iff]; exact hne)]
      exact ih hnodup.2 hrest

theorem count_of_declarations {members : List Member} {name : List Char} {declared : Member}
    (h : declarations members name = [declared]) : (members.map Member.name).count name = 1 := by
  have htest : (fun other ↦ other == name) ∘ Member.name =
      fun member : Member ↦ decide (member.name = name) := by
    funext member
    exact beq_eq_decide member.name name
  rw [declarations] at h
  rw [List.count, List.countP_map, List.countP_eq_length_filter, htest, h, List.length_singleton]

theorem memberName_eq {arg : Arg} (hshort : arg.name.toList.length < 60) :
    memberName arg = arg.name.toList ++ ['_'] := by
  apply List.take_of_length_le
  rw [List.length_append, List.length_singleton]
  omega

theorem length_declaration (name : List Char) :
    ("; int ".toList ++ (name ++ ['_']) ++ "len".toList).length = name.length + 10 := by
  simp only [List.length_append, List.length_singleton]
  rw [show "; int ".toList.length = 6 from rfl, show "len".toList.length = 3 from rfl]
  omega

theorem declaredLen_eq {name : List Char} (hshort : name.length < 53) :
    declaredLen (name ++ ['_']) = name ++ "_len".toList := by
  have hlength := length_declaration name
  rw [declaredLen, str, List.take_of_length_le (by omega), List.append_assoc, List.append_assoc]
  exact List.drop_left

/-- The names of the members for an argument. -/
def argNames (arg : Arg) : List (List Char) :=
  if arg.isFlags then []
  else if arg.isVector then [arg.name.toList ++ ['_'], arg.name.toList ++ "_len".toList]
  else [arg.name.toList ++ ['_']]

theorem isFlags_of_type {arg : Arg} {type : String} (htype : arg.type = some type) :
    arg.isFlags = false := by
  rw [Arg.isFlags, htype]
  rfl

/-- The members of a vector. -/
theorem appendStructArg_vector {arg : Arg} {type elem : String} (htype : arg.type = some type)
    (hvector : vectorElem type = some elem) (hshort : arg.name.toList.length < 60) :
    appendStructArg arg = [⟨arg.name.toList ++ ['_'], .pointer (structType elem)⟩,
      ⟨declaredLen (arg.name.toList ++ ['_']), .int⟩] := by
  rw [appendStructArg, isFlags_of_type htype, htype, memberName_eq hshort]
  simp only [Option.getD_some, hvector, Bool.false_eq_true, if_false]

/-- The member of another argument. -/
theorem appendStructArg_scalar {arg : Arg} {type : String} (htype : arg.type = some type)
    (hvector : vectorElem type = none) (hshort : arg.name.toList.length < 60) :
    appendStructArg arg = [⟨arg.name.toList ++ ['_'], structType type⟩] := by
  rw [appendStructArg, isFlags_of_type htype, htype, memberName_eq hshort]
  simp only [Option.getD_some, hvector, Bool.false_eq_true, if_false]

/-- None of these types is a vector. -/
theorem vectorElem_of_base : ∀ type ∈ baseTypes, vectorElem type = none := by
  decide +kernel

/-- What is assigned for a vector, to an array of the declared type. -/
theorem assignOf_vector {type elem : String} (name : List Char)
    (hvector : vectorElem type = some elem) :
    assignOf name type = .vector (name ++ "_len".toList) (name ++ ['_']) (elemReader elem).1
      (elemReader elem).2 := by
  have hbase : type ∉ baseTypes := by
    intro hmem
    rw [vectorElem_of_base type hmem] at hvector
    cases hvector
  simp only [baseTypes, List.mem_cons, List.not_mem_nil, or_false, not_or] at hbase
  simp only [assignOf, hbase, if_false, hvector]

/-- The elements have the type of the array that is declared. -/
theorem elemReader_type {elem : String} (helem : elem ∉ ["true", "bool", "int128", "int256"]) :
    (structType elem).resolve = (elemReader elem).1.resolve ∧
      (elemReader elem).2.type = (elemReader elem).1 := by
  simp only [List.mem_cons, List.not_mem_nil, or_false, not_or] at helem
  unfold elemReader
  split_ifs with hint hbool hlong hdouble hstring hbytes hmessage
  · rw [hint]; decide
  · exact absurd hbool helem.2.1
  · rw [hlong]; decide
  · rw [hdouble]; decide
  · rw [hstring]; decide
  · rw [hbytes]; decide
  · rw [hmessage]; decide
  · have hbase : elem ∉ baseTypes := by
      simp only [baseTypes, List.mem_cons, List.not_mem_nil, or_false]
      tauto
    rw [structType, if_pos hbase]
    exact ⟨rfl, rfl⟩

/-- What is assigned for another value has the type that is declared. -/
theorem assignOf_scalar {type : String} (name : List Char) (hvector : vectorElem type = none)
    (htype : type ∉ ["bool", "%Message"]) :
    ∃ assigned, (assignOf name type).members = [⟨name ++ ['_'], assigned⟩] ∧
      (structType type).resolve = assigned.resolve := by
  simp only [List.mem_cons, List.not_mem_nil, or_false, not_or] at htype
  unfold assignOf
  split_ifs with hint htrue hbool hlong hdouble hstring hbytes hint128 hint256
  · exact ⟨_, rfl, by rw [hint]; decide⟩
  · exact ⟨_, rfl, by rw [htrue]; decide⟩
  · exact absurd hbool htype.1
  · exact ⟨_, rfl, by rw [hlong]; decide⟩
  · exact ⟨_, rfl, by rw [hdouble]; decide⟩
  · exact ⟨_, rfl, by rw [hstring]; decide⟩
  · exact ⟨_, rfl, by rw [hbytes]; decide⟩
  · exact ⟨_, rfl, by rw [hint128]; decide⟩
  · exact ⟨_, rfl, by rw [hint256]; decide⟩
  · rw [hvector]
    refine ⟨_, rfl, ?_⟩
    have hbase : type ∉ baseTypes := by
      simp only [baseTypes, List.mem_cons, List.not_mem_nil, or_false]
      tauto
    rw [structType, if_pos hbase]
    rfl

/-- The type of an argument that has a member. -/
theorem Arg.Described.type_cases {arg : Arg} (h : arg.Described) :
    arg.type = none ∧ arg.isFlags = true ∨ ∃ type, arg.type = some type := by
  obtain ⟨-, htype⟩ := h
  cases harg : arg.type with
  | none =>
    rw [harg] at htype
    exact .inl ⟨rfl, htype⟩
  | some type => exact .inr ⟨type, rfl⟩

theorem appendStructArg_flags {arg : Arg} (hflags : arg.isFlags = true) :
    appendStructArg arg = [] := by
  rw [appendStructArg, if_pos hflags]

theorem isVector_of_type {arg : Arg} {type : String} (htype : arg.type = some type) :
    arg.isVector = (vectorElem type).isSome := by
  rw [Arg.isVector, htype, Option.bind_some]

/-- The declared names, if those of lengths are not cut. -/
theorem names_appendStructArg {arg : Arg} (hdescribed : arg.Described)
    (hshort : arg.isVector = true → arg.name.toList.length < 53) :
    (appendStructArg arg).map Member.name = argNames arg := by
  rcases hdescribed.type_cases with ⟨-, hflags⟩ | ⟨type, htype⟩
  · rw [appendStructArg_flags hflags, argNames, if_pos hflags, List.map_nil]
  · have hvector := isVector_of_type htype
    rw [argNames, isFlags_of_type htype, if_neg Bool.false_ne_true]
    cases helem : vectorElem type with
    | none =>
      rw [helem, Option.isSome_none] at hvector
      rw [appendStructArg_scalar htype helem hdescribed.1, hvector, if_neg Bool.false_ne_true]
      rfl
    | some elem =>
      rw [helem, Option.isSome_some] at hvector
      rw [appendStructArg_vector htype helem hdescribed.1, hvector, if_pos rfl,
        declaredLen_eq (hshort hvector)]
      rfl

theorem mem_argNames {arg : Arg} {name : List Char} (hmem : name ∈ argNames arg) :
    arg.isFlags = false ∧
      (name = arg.name.toList ++ ['_'] ∨ name = arg.name.toList ++ "_len".toList) := by
  unfold argNames at hmem
  split_ifs at hmem with hflags hvector
  · cases hmem
  · simp only [List.mem_cons, List.not_mem_nil, or_false] at hmem
    exact ⟨Bool.eq_false_iff.mpr hflags, hmem⟩
  · exact ⟨Bool.eq_false_iff.mpr hflags, .inl (List.mem_singleton.mp hmem)⟩

theorem getLast?_member (name : List Char) : (name ++ ['_']).getLast? = some '_' :=
  List.getLast?_concat

theorem getLast?_len (name : List Char) : (name ++ "_len".toList).getLast? = some 'n' :=
  List.getLast?_append

/-- The members of different arguments have different names. -/
theorem disjoint_argNames {first second : Arg}
    (hne : first.isFlags = false → second.isFlags = false → first.name.toList ≠ second.name.toList) :
    List.Disjoint (argNames first) (argNames second) := by
  intro name hfirst hsecond
  obtain ⟨hflags, hleft⟩ := mem_argNames hfirst
  obtain ⟨hflags', hright⟩ := mem_argNames hsecond
  have hdifferent := hne hflags hflags'
  rcases hleft with rfl | rfl
  · rcases hright with heq | heq
    · exact hdifferent (List.append_cancel_right heq)
    · have hlast := congrArg List.getLast? heq
      rw [getLast?_member, getLast?_len] at hlast
      cases hlast
  · rcases hright with heq | heq
    · have hlast := congrArg List.getLast? heq
      rw [getLast?_member, getLast?_len] at hlast
      cases hlast
    · exact hdifferent (List.append_cancel_right heq)

theorem nodup_argNames (arg : Arg) : (argNames arg).Nodup := by
  unfold argNames
  split_ifs
  · exact List.nodup_nil
  · rw [List.nodup_cons, List.mem_singleton]
    refine ⟨fun heq ↦ ?_, List.nodup_singleton _⟩
    have hlast := congrArg List.getLast? heq
    rw [getLast?_member, getLast?_len] at hlast
    cases hlast
  · exact List.nodup_singleton _

/-- The names of the header are not those of members for arguments, but for two of them. -/
theorem mem_structHeader {method : Method} {name : List Char}
    (hmem : name ∈ (structHeader method).map Member.name) :
    (name.getLast? ≠ some '_' ∧ name.getLast? ≠ some 'n') ∨
      ∃ field ∈ if method.name = "vector" then ["len".toList, "data".toList] else [],
        name = field ++ ['_'] := by
  rw [structHeader, List.map_append, List.mem_append] at hmem
  rcases hmem with hheader | hvector
  · left
    simp only [List.map_cons, List.map_nil, List.mem_cons, List.not_mem_nil, or_false] at hheader
    rcases hheader with rfl | rfl <;> decide
  · right
    split at hvector
    case isTrue h =>
      rw [if_pos h]
      simp only [List.map_cons, List.map_nil, List.mem_cons, List.not_mem_nil, or_false] at hvector
      rcases hvector with rfl | rfl
      · exact ⟨_, List.mem_cons_self, rfl⟩
      · exact ⟨_, List.mem_cons_of_mem _ List.mem_cons_self, rfl⟩
    case isFalse => cases hvector

/-- Every member is declared under a name of its own. -/
theorem nodup_names {method : Method} (hdescribed : method.Described) (hfit : NamesFit method) :
    ((appendStruct method).map Member.name).Nodup := by
  have hargs : (method.args.flatMap appendStructArg).map Member.name =
      method.args.flatMap argNames := by
    rw [List.map_flatMap]
    exact List.flatMap_congr fun arg harg ↦
      names_appendStructArg (hdescribed arg harg) (hfit.short arg harg)
  obtain ⟨hheader, hnames, hdisjoint⟩ := List.nodup_append.mp hfit.nodup
  rw [appendStruct, List.map_append, hargs, List.nodup_append]
  refine ⟨?_, ?_, ?_⟩
  · rw [structHeader]
    split <;> decide
  · rw [List.nodup_flatMap]
    refine ⟨fun arg _ ↦ nodup_argNames arg, ?_⟩
    rw [List.Nodup, List.pairwise_map, List.pairwise_filter] at hnames
    refine hnames.imp fun hne ↦ disjoint_argNames fun hfirst hsecond ↦ ?_
    exact hne (by simp [hfirst]) (by simp [hsecond])
  · intro first hfirst second hsecond heq
    obtain ⟨arg, harg, hname⟩ := List.mem_flatMap.mp hsecond
    obtain ⟨hflags, hform⟩ := mem_argNames hname
    have hfield : arg.name.toList ∈ (method.args.filter fun arg ↦ ¬ arg.isFlags).map
        fun arg ↦ arg.name.toList :=
      List.mem_map.mpr ⟨arg, List.mem_filter.mpr ⟨harg, by simp [hflags]⟩, rfl⟩
    rw [← heq] at hform
    rcases mem_structHeader hfirst with hlast | ⟨name, hname, rfl⟩
    · rcases hform with rfl | rfl
      · exact hlast.1 (getLast?_member _)
      · exact hlast.2 (getLast?_len _)
    · rcases hform with hsame | hsame
      · exact hdisjoint name hname _ hfield (List.append_cancel_right hsame)
      · have hlast := congrArg List.getLast? hsame
        rw [getLast?_member, getLast?_len] at hlast
        cases hlast

/-- What the header assigns is declared. -/
theorem mem_structHeader_of_assigned {method : Method} {assigned : Member}
    (hassigned : assigned ∈ (decodeHeader method).flatMap DecodeStmt.members) :
    assigned ∈ structHeader method := by
  unfold decodeHeader at hassigned
  unfold structHeader
  split at hassigned
  case isTrue h =>
    rw [if_pos h]
    change assigned ∈ [_, _, _, _] at hassigned
    simp only [List.mem_cons, List.not_mem_nil, or_false] at hassigned
    rcases hassigned with rfl | rfl | rfl | rfl <;> decide
  case isFalse h =>
    rw [if_neg h]
    change assigned ∈ [_, _] at hassigned
    simp only [List.mem_cons, List.not_mem_nil, or_false] at hassigned
    rcases hassigned with rfl | rfl <;> decide

/-- What is assigned for an argument is declared, if the name of a length is not cut. -/
theorem takes_arg {arg : Arg} (hdescribed : arg.Described)
    (hshort : arg.isVector = true → arg.name.toList.length < 53) {assigned : Member}
    (hassigned : assigned ∈ (appendDeserializeArg arg).flatMap DecodeStmt.members) :
    ∃ declared ∈ appendStructArg arg, declared.name = assigned.name ∧
      declared.type.Takes assigned.type := by
  obtain ⟨hname, htypes⟩ := hdescribed
  unfold appendDeserializeArg at hassigned
  cases htype : arg.type with
  | none =>
    rw [htype] at hassigned
    simp only at hassigned
    split at hassigned <;> cases hassigned
  | some type =>
    rw [htype] at hassigned htypes
    rw [List.flatMap_singleton, DecodeStmt.members] at hassigned
    cases hvector : vectorElem type with
    | none =>
      obtain ⟨assignedType, hmembers, hresolve⟩ :=
        assignOf_scalar arg.name.toList hvector htypes.1
      rw [hmembers, List.mem_singleton] at hassigned
      rw [appendStructArg_scalar htype hvector hname, hassigned]
      exact ⟨_, List.mem_singleton_self _, rfl, .inl hresolve⟩
    | some elem =>
      have hlong := hshort (by rw [isVector_of_type htype, hvector]; rfl)
      obtain ⟨harray, hreader⟩ := elemReader_type (htypes.2 elem hvector)
      rw [assignOf_vector _ hvector, Assign.members, hreader] at hassigned
      rw [appendStructArg_vector htype hvector hname, declaredLen_eq hlong]
      simp only [List.mem_cons, List.not_mem_nil, or_false, or_self] at hassigned
      rcases hassigned with rfl | rfl
      · exact ⟨_, List.mem_cons_of_mem _ (List.mem_singleton_self _), rfl, .inr ⟨rfl, rfl⟩⟩
      · exact ⟨_, List.mem_cons_self, rfl, .inl (congrArg CType.pointer harray)⟩

/-- Every argument with a member has one of its name. -/
theorem map_names_sublist {args : List Arg} (hdescribed : ∀ arg ∈ args, arg.Described) :
    ((args.filter fun arg ↦ ¬ arg.isFlags).map fun arg ↦ arg.name.toList ++ ['_']).Sublist
      ((args.flatMap appendStructArg).map Member.name) := by
  induction args with
  | nil => exact List.Sublist.refl _
  | cons arg rest ih =>
    rw [List.forall_mem_cons] at hdescribed
    have hrest := ih hdescribed.2
    rw [List.flatMap_cons, List.map_append, List.filter_cons]
    rcases hdescribed.1.type_cases with ⟨-, hflags⟩ | ⟨type, htype⟩
    · rw [if_neg (by simp [hflags]), appendStructArg_flags hflags]
      exact hrest
    · rw [if_pos (by simp [isFlags_of_type htype]), List.map_cons, ← List.singleton_append]
      apply List.Sublist.append _ hrest
      rw [List.singleton_sublist]
      cases hvector : vectorElem type with
      | none =>
        rw [appendStructArg_scalar htype hvector hdescribed.1.1]
        exact List.mem_cons_self
      | some elem =>
        rw [appendStructArg_vector htype hvector hdescribed.1.1]
        exact List.mem_cons_self

/-- Every field name becomes the name of a member. -/
theorem map_fieldNames_sublist {method : Method} (hdescribed : method.Described) :
    (method.fieldNames.map fun name ↦ name ++ ['_']).Sublist
      ((appendStruct method).map Member.name) := by
  rw [Method.fieldNames, appendStruct, List.map_append, List.map_append, List.map_map]
  apply List.Sublist.append _ (map_names_sublist hdescribed)
  rw [structHeader, List.map_append]
  apply List.Sublist.trans _ (List.sublist_append_right _ _)
  split
  · exact List.Sublist.refl _
  · exact List.nil_sublist _

/-- The member of a field name is assigned. -/
theorem exists_assigned {method : Method} (hdescribed : method.Described) {name : List Char}
    (hname : name ∈ method.fieldNames) :
    ∃ assigned ∈ (appendDeserializeTable method).flatMap DecodeStmt.members,
      assigned.name = name ++ ['_'] := by
  rw [appendDeserializeTable, List.flatMap_append]
  rcases List.mem_append.mp hname with hheader | harg
  · split at hheader
    case isTrue h =>
      rw [decodeHeader, if_pos h]
      simp only [List.mem_cons, List.not_mem_nil, or_false] at hheader
      rcases hheader with rfl | rfl
      · exact ⟨⟨"len_".toList, .uint32⟩, List.mem_append_left _ (by decide), rfl⟩
      · exact ⟨⟨"data_".toList, .buf⟩, List.mem_append_left _ (by decide), rfl⟩
    case isFalse => cases hheader
  · obtain ⟨arg, hmem, rfl⟩ := List.mem_map.mp harg
    obtain ⟨harg, hflags⟩ := List.mem_filter.mp hmem
    obtain ⟨-, htypes⟩ := hdescribed arg harg
    cases htype : arg.type with
    | none =>
      rw [htype] at htypes
      simp [htypes] at hflags
    | some type =>
      rw [htype] at htypes
      have hstmt : .assign arg.flagn arg.flagb (assignOf arg.name.toList type) ∈
          method.args.flatMap appendDeserializeArg := by
        refine List.mem_flatMap.mpr ⟨arg, harg, ?_⟩
        rw [appendDeserializeArg, htype]
        exact List.mem_singleton_self _
      have hassign {assigned : Member}
          (hassigned : assigned ∈ (assignOf arg.name.toList type).members) :
          assigned ∈ (decodeHeader method).flatMap DecodeStmt.members ++
            (method.args.flatMap appendDeserializeArg).flatMap DecodeStmt.members :=
        List.mem_append_right _ (List.mem_flatMap.mpr ⟨_, hstmt, hassigned⟩)
      cases hvector : vectorElem type with
      | none =>
        obtain ⟨assignedType, hmembers, -⟩ := assignOf_scalar arg.name.toList hvector htypes.1
        exact ⟨⟨_, assignedType⟩, hassign (by rw [hmembers]; exact List.mem_singleton_self _), rfl⟩
      | some elem =>
        refine ⟨⟨_, .pointer (elemReader elem).1⟩, hassign ?_, rfl⟩
        rw [assignOf_vector _ hvector]
        exact List.mem_cons_of_mem _ List.mem_cons_self

theorem length_declaredLen_le (name : List Char) : (declaredLen name).length ≤ 56 := by
  rw [declaredLen, str, List.length_drop, List.length_take, show "; int ".length = 6 from rfl]
  omega

/-- A declared name that ends like a length has been cut to 56 characters. -/
theorem length_le_of_declared {method : Method} (hdescribed : method.Described)
    {declared : Member} (hdeclared : declared ∈ appendStruct method)
    (hlast : declared.name.getLast? = some 'n') : declared.name.length ≤ 56 := by
  rcases List.mem_append.mp hdeclared with hheader | harg
  · rcases mem_structHeader (List.mem_map_of_mem hheader) with hnot | ⟨field, -, hname⟩
    · exact absurd hlast hnot.2
    · rw [hname, getLast?_member] at hlast
      cases hlast
  · obtain ⟨arg, hmem, hmember⟩ := List.mem_flatMap.mp harg
    have harg := hdescribed arg hmem
    rcases harg.type_cases with ⟨-, hflags⟩ | ⟨type, htype⟩
    · rw [appendStructArg_flags hflags] at hmember
      cases hmember
    · cases hvector : vectorElem type with
      | none =>
        rw [appendStructArg_scalar htype hvector harg.1, List.mem_singleton] at hmember
        rw [hmember, getLast?_member] at hlast
        cases hlast
      | some elem =>
        rw [appendStructArg_vector htype hvector harg.1, List.mem_cons,
          List.mem_singleton] at hmember
        rcases hmember with hmember | hmember
        · rw [hmember, getLast?_member] at hlast
          cases hlast
        · rw [hmember]
          exact length_declaredLen_le _

theorem NamesFit.of_fieldsAgree {method : Method} (hdescribed : method.Described)
    (hagree : FieldsAgree method) : NamesFit method where
  nodup := by
    have hinjective : Function.Injective fun name : List Char ↦ name ++ ['_'] :=
      fun _ _ heq ↦ List.append_cancel_right heq
    rw [← List.nodup_map_iff hinjective, List.nodup_iff_count_le_one]
    intro name
    by_cases hname : name ∈ method.fieldNames.map fun name ↦ name ++ ['_']
    · obtain ⟨field, hfield, rfl⟩ := List.mem_map.mp hname
      obtain ⟨assigned, hassigned, heq⟩ := exists_assigned hdescribed hfield
      obtain ⟨declared, hdeclared, -⟩ := hagree assigned hassigned
      rw [heq] at hdeclared
      calc _ ≤ ((appendStruct method).map Member.name).count (field ++ ['_']) :=
            (map_fieldNames_sublist hdescribed).count_le _
        _ = 1 := count_of_declarations hdeclared
        _ ≤ 1 := le_rfl
    · rw [List.count_eq_zero_of_not_mem hname]
      exact Nat.zero_le 1
  short arg harg hvector := by
    by_contra hlong
    obtain ⟨elem, helem⟩ := Option.isSome_iff_exists.mp hvector
    obtain ⟨type, htype, hvector⟩ := Option.bind_eq_some_iff.mp helem
    have hassigned : ⟨arg.name.toList ++ "_len".toList, .uint32⟩ ∈
        (appendDeserializeTable method).flatMap DecodeStmt.members := by
      rw [appendDeserializeTable, List.flatMap_append]
      refine List.mem_append_right _ (List.mem_flatMap.mpr
        ⟨.assign arg.flagn arg.flagb (assignOf arg.name.toList type), ?_, ?_⟩)
      · refine List.mem_flatMap.mpr ⟨arg, harg, ?_⟩
        rw [appendDeserializeArg, htype]
        exact List.mem_singleton_self _
      · rw [DecodeStmt.members, assignOf_vector _ hvector]
        exact List.mem_cons_self
    obtain ⟨declared, hdeclared, -⟩ := hagree _ hassigned
    have hmem : declared ∈ declarations (appendStruct method) _ :=
      hdeclared ▸ List.mem_singleton_self declared
    obtain ⟨hmem, hname⟩ := List.mem_filter.mp hmem
    have hname : declared.name = arg.name.toList ++ "_len".toList := of_decide_eq_true hname
    have hlength := length_le_of_declared hdescribed hmem (hname ▸ getLast?_len _)
    rw [hname, List.length_append, show "_len".toList.length = 4 from rfl] at hlength
    omega

/-- What is assigned is declared exactly if the names differ and no length is cut. -/
theorem fieldsAgree_iff {method : Method} (hdescribed : method.Described) :
    FieldsAgree method ↔ NamesFit method := by
  refine ⟨NamesFit.of_fieldsAgree hdescribed, fun hfit assigned hassigned ↦ ?_⟩
  have htakes : ∃ declared ∈ appendStruct method, declared.name = assigned.name ∧
      declared.type.Takes assigned.type := by
    rw [appendDeserializeTable, List.flatMap_append, List.mem_append] at hassigned
    rcases hassigned with hheader | hargs
    · exact ⟨assigned, List.mem_append_left _ (mem_structHeader_of_assigned hheader), rfl, .inl rfl⟩
    · rw [List.flatMap_assoc] at hargs
      obtain ⟨arg, harg, hassigned⟩ := List.mem_flatMap.mp hargs
      obtain ⟨declared, hdeclared, htakes⟩ :=
        takes_arg (hdescribed arg harg) (hfit.short arg harg) hassigned
      exact ⟨declared, List.mem_append_right _ (List.mem_flatMap.mpr ⟨arg, harg, hdeclared⟩), htakes⟩
  obtain ⟨declared, hdeclared, hname, htype⟩ := htakes
  refine ⟨declared, ?_, htype⟩
  rw [← hname]
  exact declarations_eq_singleton (nodup_names hdescribed hfit) hdeclared

end LibTg.Tl
