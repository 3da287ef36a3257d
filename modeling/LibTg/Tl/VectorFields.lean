import LibTg.Tl.EmitterSpec

/-!
# Vectors in decoded objects

A decoder stores the length of a vector before it looks at it, and returns at once if it refuses it.
Everything that loops over the vector goes by the stored length. Here a decoder with a heap is compared
with `tl_deserialize`, for any schema: what it returns has sound vectors exactly if no length in the
bytes is refused.
-/

namespace LibTg.Tl

/-! ## The promise -/

/-- The elements behind a pointer. There are none behind `NULL`. -/
def HeapValue.elems : HeapValue → List HeapValue
  | .array _ elems => elems
  | _ => []

/-- The elements that a loop `for (i = 0; i < length; ++i)` reads of an array, if they are all there and
have been assigned. The loop of a destructor is one (`freeLoop_eq_visit`). -/
def visitArray (length : ℤ) (array : HeapValue) : Option (List HeapValue) :=
  if length ≤ array.elems.length ∧ (array.elems.take length.toNat).all fun elem ↦ !elem.isZero then
    some (array.elems.take length.toNat)
  else none

/-- An array with exactly `length` elements, all assigned. There is none if the length is zero. -/
def ArrayOk (length : ℤ) : HeapValue → Prop
  | .zero => length = 0
  | .array _ elems => (elems.length : ℤ) = length ∧ ∀ elem ∈ elems, elem.isZero = false
  | _ => False

/-- The length of a vector lies between 0 and 10000, and its array has as many elements. -/
def VectorOk (memory : Memory) (arg : Arg) : Prop :=
  arg.isVector = true →
    ∀ count ∈ memory.get (arg.name.toList ++ "_len".toList),
      (0 ≤ count.length ∧ count.length ≤ 10000) ∧
        ∀ array ∈ memory.get (arg.name.toList ++ ['_']), ArrayOk count.length array

/-- A loop over a vector by its length reads elements that have been assigned. -/
def LoopInside (memory : Memory) (arg : Arg) : Prop :=
  arg.isVector = true →
    ∀ count ∈ memory.get (arg.name.toList ++ "_len".toList),
      ∀ array ∈ memory.get (arg.name.toList ++ ['_']), (visitArray count.length array).isSome

section AtAnyDepth

variable (property : Memory → Arg → Prop)

mutual

/-- A property of the arguments of an object and of all objects inside. -/
def HeapObj.AtAnyDepth : HeapObj → Prop
  | .mk _ method _ values =>
    (∀ arg ∈ method.args, property (((appendStruct method).map Member.name).zip values) arg) ∧
      HeapValue.AllAtAnyDepth values

/-- A property of the arguments of all objects inside a value. -/
def HeapValue.AtAnyDepth : HeapValue → Prop
  | .pointer (some obj) => obj.AtAnyDepth
  | .array _ elems => HeapValue.AllAtAnyDepth elems
  | _ => True

/-- A property of the arguments of all objects inside several values. -/
def HeapValue.AllAtAnyDepth : List HeapValue → Prop
  | [] => True
  | value :: rest => value.AtAnyDepth ∧ HeapValue.AllAtAnyDepth rest

end

end AtAnyDepth

/-- All vectors in an object are sound, and loops over them stay inside. -/
structure HeapObj.VectorsOk (obj : HeapObj) : Prop where
  fields : obj.AtAnyDepth VectorOk
  loops : obj.AtAnyDepth LoopInside

/-- The bytes at a cursor describe an object whose vectors have lengths from 0 to 10000. -/
def LengthsAccepted (model : DataModel) (table : List Method) (fuel : ℕ) (cursor : Cursor) : Prop :=
  ∀ tl rest, tlDeserializeFuel model table fuel cursor = some (some tl, rest) → tl.LengthsFit

/-! ## Loops -/

/-- A loop over a sound vector reads all its elements. -/
theorem visitArray_isSome {length : ℤ} {array : HeapValue} (hok : ArrayOk length array) :
    (visitArray length array).isSome := by
  have helems : (array.elems.length : ℤ) = length ∧
      ∀ elem ∈ array.elems, elem.isZero = false := by
    cases array with
    | zero =>
      have hzero : length = 0 := hok
      exact ⟨hzero.symm, nofun⟩
    | array block elems => exact hok
    | _ => exact hok.elim
  have hall : (array.elems.take length.toNat).all (fun elem ↦ !elem.isZero) = true := by
    rw [List.all_eq_true]
    intro elem helem
    rw [helems.2 elem (List.mem_of_mem_take helem)]
    rfl
  rw [visitArray, if_pos ⟨helems.1.ge, hall⟩]
  rfl

theorem VectorOk.loopInside {memory : Memory} {arg : Arg} (h : VectorOk memory arg) :
    LoopInside memory arg :=
  fun hvector count hcount array harray ↦
    visitArray_isSome ((h hvector count hcount).2 array harray)

/-- The loop of a destructor releases what it visits. -/
theorem freeLoop_eq_visit (tlFree : HeapObj → Option (List ℕ)) (call : FreeCall) {length : ℤ}
    {array : HeapValue} (hinside : (visitArray length array).isSome) :
    freeLoop tlFree (some call) length array =
      (visitArray length array).bind (freeAll tlFree (some call)) := by
  rw [visitArray] at hinside ⊢
  split at hinside
  case isFalse => cases hinside
  case isTrue h =>
    rw [if_pos h, Option.bind_some]
    unfold freeLoop
    by_cases hpos : length ≤ 0
    · rw [if_pos (.inr hpos), Int.toNat_eq_zero.mpr hpos, List.take_zero]
      rfl
    · rw [if_neg (by simp [hpos])]
      cases array with
      | array block elems => exact if_pos h.1
      | _ => exact absurd h.1 hpos

mutual

/-- A property that implies another does so at any depth. -/
theorem HeapObj.AtAnyDepth.imp {property property' : Memory → Arg → Prop}
    (himp : ∀ memory arg, property memory arg → property' memory arg) :
    ∀ obj : HeapObj, obj.AtAnyDepth property → obj.AtAnyDepth property'
  | .mk _ _ _ values, ⟨hargs, hvalues⟩ =>
    ⟨fun arg harg ↦ himp _ _ (hargs arg harg), HeapValue.AllAtAnyDepth.imp himp values hvalues⟩

theorem HeapValue.AtAnyDepth.imp {property property' : Memory → Arg → Prop}
    (himp : ∀ memory arg, property memory arg → property' memory arg) :
    ∀ value : HeapValue, value.AtAnyDepth property → value.AtAnyDepth property'
  | .pointer (some obj), h => HeapObj.AtAnyDepth.imp himp obj h
  | .array _ elems, h => HeapValue.AllAtAnyDepth.imp himp elems h
  | .pointer none, _ => trivial
  | .zero, _ => trivial
  | .word _, _ => trivial
  | .long _, _ => trivial
  | .double _, _ => trivial
  | .bool _, _ => trivial
  | .buf _ _, _ => trivial
  | .message _ _, _ => trivial

theorem HeapValue.AllAtAnyDepth.imp {property property' : Memory → Arg → Prop}
    (himp : ∀ memory arg, property memory arg → property' memory arg) :
    ∀ values : List HeapValue, HeapValue.AllAtAnyDepth property values →
      HeapValue.AllAtAnyDepth property' values
  | [], _ => trivial
  | value :: rest, ⟨hvalue, hrest⟩ =>
    ⟨HeapValue.AtAnyDepth.imp himp value hvalue, HeapValue.AllAtAnyDepth.imp himp rest hrest⟩

end

/-- Where the vectors are sound, the loops stay inside. -/
theorem HeapObj.vectorsOk_iff_fields (obj : HeapObj) : obj.VectorsOk ↔ obj.AtAnyDepth VectorOk :=
  ⟨fun h ↦ h.fields, fun h ↦ ⟨h, HeapObj.AtAnyDepth.imp (fun _ _ hok ↦ hok.loopInside) obj h⟩⟩

/-! ## Members and their names -/

section Memory

variable {memory after : Memory} {name other : List Char} {value : HeapValue}

/-- What an assignment to a member changes. -/
structure Assigns (memory : Memory) (name : List Char) (value : HeapValue) (after : Memory) :
    Prop where
  names : after.map Prod.fst = memory.map Prod.fst
  get_same : after.get name = some value
  get_other : ∀ other, other ≠ name → after.get other = memory.get other

/-- `obj->name = value`, member by member. -/
def changeCell (name : List Char) (value : HeapValue) (cell : List Char × HeapValue) :
    List Char × HeapValue :=
  if cell.1 = name then (name, value) else cell

theorem changeCell_fst (name : List Char) (value : HeapValue) (cell : List Char × HeapValue) :
    (changeCell name value cell).1 = cell.1 := by
  rw [changeCell]
  split
  case isTrue heq => exact heq.symm
  case isFalse => rfl

theorem set_eq_some_iff : memory.set name value = some after ↔
    name ∈ memory.map Prod.fst ∧ memory.map (changeCell name value) = after := by
  rw [Memory.set]
  split
  case isTrue hmem =>
    rw [Option.some.injEq]
    exact (and_iff_right hmem).symm
  case isFalse hnot => exact iff_of_false (Option.some_ne_none after).symm fun h ↦ hnot h.1

theorem get_cons (cell : List Char × HeapValue) (rest : Memory) (name : List Char) :
    Memory.get (cell :: rest) name = if cell.1 = name then some cell.2 else rest.get name := by
  rw [Memory.get, Memory.get, List.lookup_cons, beq_eq_decide]
  by_cases heq : cell.1 = name
  · rw [if_pos heq, decide_eq_true heq.symm]
  · rw [if_neg heq, decide_eq_false (Ne.symm heq)]

theorem get_map_changeCell (memory : Memory) (other : List Char) :
    Memory.get (memory.map (changeCell name value)) other =
      if other = name ∧ name ∈ memory.map Prod.fst then some value else memory.get other := by
  induction memory with
  | nil => simp [Memory.get]
  | cons cell rest ih =>
    rw [List.map_cons, get_cons, get_cons, changeCell_fst, ih]
    by_cases hcell : cell.1 = other
    · rw [if_pos hcell, if_pos hcell, changeCell]
      by_cases hname : other = name
      · have hmem : name ∈ (cell :: rest).map Prod.fst :=
          List.mem_map.mpr ⟨cell, List.mem_cons_self, hcell.trans hname⟩
        rw [if_pos (hcell.trans hname), if_pos ⟨hname, hmem⟩]
      · rw [if_neg fun heq ↦ hname (hcell.symm.trans heq), if_neg fun h ↦ hname h.1]
    · rw [if_neg hcell, if_neg hcell]
      by_cases hname : other = name
      · have hne : ¬ name = cell.1 := fun heq ↦ hcell (heq.symm.trans hname.symm)
        simp only [List.map_cons, List.mem_cons, hname, true_and, hne, false_or]
      · rw [if_neg fun h ↦ hname h.1, if_neg fun h ↦ hname h.1]

theorem assigns_of_set (hset : memory.set name value = some after) :
    Assigns memory name value after := by
  obtain ⟨hmem, rfl⟩ := set_eq_some_iff.mp hset
  refine ⟨?_, ?_, fun other hne ↦ ?_⟩
  · rw [List.map_map]
    exact List.map_congr_left fun cell _ ↦ changeCell_fst name value cell
  · rw [get_map_changeCell, if_pos ⟨rfl, hmem⟩]
  · rw [get_map_changeCell, if_neg fun h ↦ hne h.1]

theorem atAnyDepth_of_isZero {property : Memory → Arg → Prop} (hzero : value.isZero = true) :
    value.AtAnyDepth property := by
  cases value with
  | zero => trivial
  | _ => cases hzero

theorem allAtAnyDepth_iff {property : Memory → Arg → Prop} (values : List HeapValue) :
    HeapValue.AllAtAnyDepth property values ↔ ∀ value ∈ values, value.AtAnyDepth property := by
  induction values with
  | nil => exact iff_of_true trivial nofun
  | cons value rest ih => rw [HeapValue.AllAtAnyDepth, ih, List.forall_mem_cons]

/-- An assignment to a member without a value adds the objects behind the new one. -/
theorem allAtAnyDepth_of_set {property : Memory → Arg → Prop}
    (hset : memory.set name value = some after) (hnodup : (memory.map Prod.fst).Nodup)
    (hzero : ∀ old ∈ memory.get name, old.isZero = true) :
    HeapValue.AllAtAnyDepth property (after.map Prod.snd) ↔
      HeapValue.AllAtAnyDepth property (memory.map Prod.snd) ∧ value.AtAnyDepth property := by
  obtain ⟨hmem, rfl⟩ := set_eq_some_iff.mp hset
  clear hset
  induction memory with
  | nil => cases hmem
  | cons cell rest ih =>
    rw [List.map_cons, List.nodup_cons] at hnodup
    rw [get_cons] at hzero
    simp only [List.map_cons, HeapValue.AllAtAnyDepth]
    by_cases hcell : cell.1 = name
    · have hold : cell.2.AtAnyDepth property :=
        atAnyDepth_of_isZero (hzero cell.2 (by rw [if_pos hcell]; rfl))
      have hrest : rest.map (changeCell name value) = rest :=
        Memory.set_of_notMem (hcell ▸ hnodup.1)
      rw [hrest, changeCell, if_pos hcell, and_iff_right hold]
      exact and_comm
    · have hmem' : name ∈ rest.map Prod.fst :=
        (List.mem_cons.mp hmem).resolve_left (Ne.symm hcell)
      rw [if_neg hcell] at hzero
      rw [changeCell, if_neg hcell, ih hnodup.2 hzero hmem', and_assoc]

end Memory

/-! ## Two decoders side by side -/

section Simulates

variable {First Second First' Second' : Type*} {relation : First → Second → Prop}
  {relation' : First' → Second' → Prop}

/-- Where the first has a result, so has the second, and the results are related. -/
def Simulates (relation : First → Second → Prop) (first : Option First) (second : Option Second) :
    Prop :=
  ∀ value, first = some value → ∃ other, second = some other ∧ relation value other

theorem Simulates.bind {first : Option First} {second : Option Second}
    {next : First → Option First'} {next' : Second → Option Second'}
    (h : Simulates relation first second)
    (hnext : ∀ value other, relation value other → Simulates relation' (next value) (next' other)) :
    Simulates relation' (first.bind next) (second.bind next') := by
  intro result hresult
  obtain ⟨value, hvalue, hresult⟩ := Option.bind_eq_some_iff.mp hresult
  obtain ⟨other, hother, hrelation⟩ := h value hvalue
  rw [hother]
  exact hnext value other hrelation result hresult

theorem Simulates.bind_left {relation' : First' → Second → Prop} {first : Option First}
    {second : Option Second} {next : First → Option First'} (h : Simulates relation first second)
    (hnext : ∀ value other, relation value other →
      Simulates relation' (next value) (some other)) :
    Simulates relation' (first.bind next) second := by
  intro result hresult
  obtain ⟨value, hvalue, hresult⟩ := Option.bind_eq_some_iff.mp hresult
  obtain ⟨other, hother, hrelation⟩ := h value hvalue
  rw [hother]
  exact hnext value other hrelation result hresult

theorem Simulates.some {value : First} {other : Second} (hrelation : relation value other) :
    Simulates relation (some value) (some other) := by
  intro result hresult
  cases hresult
  exact ⟨other, rfl, hrelation⟩

theorem simulates_none (second : Option Second) : Simulates relation none second := nofun

theorem simulates_self (result : Option First) : Simulates Eq result result :=
  fun value hvalue ↦ ⟨value, hvalue, rfl⟩

theorem Simulates.imp {relation'' : First → Second → Prop} {first : Option First}
    {second : Option Second} (h : Simulates relation first second)
    (himp : ∀ value other, relation value other → relation'' value other) :
    Simulates relation'' first second := by
  intro value hvalue
  obtain ⟨other, hother, hrelation⟩ := h value hvalue
  exact ⟨other, hother, himp value other hrelation⟩

end Simulates

section Values

variable {model : DataModel} {readHeap : HeapReader} {readObject : ObjectReader}

/-- Two readers have stopped at the same place, and the vectors in the one value are sound exactly if
the lengths in the other fit. -/
structure ValueAgrees (heap : HeapValue × Cursor × ℕ) (plain : Field × Cursor) : Prop where
  cursor : heap.2.1 = plain.2
  isZero : heap.1.isZero = false
  vectors : heap.1.AtAnyDepth VectorOk ↔ plain.1.LengthsFit

/-- `tl_deserialize` with a heap and without one. -/
def ReadersAgree (readHeap : HeapReader) (readObject : ObjectReader) : Prop :=
  ∀ cursor next, Simulates (fun heap plain ↦
    ValueAgrees (.pointer heap.1, heap.2) (.object plain.1, plain.2)) (readHeap cursor next)
      (readObject cursor)

theorem simulates_reader {Value : Type} {after : ℕ} {pack : Value → HeapValue}
    {field : Value → Field} (result : Option (Value × Cursor))
    (h : ∀ value cursor, ValueAgrees (pack value, cursor, after) (field value, cursor)) :
    Simulates ValueAgrees (result.map fun (value, cursor) ↦ (pack value, cursor, after))
      (result.map (Prod.map field id)) := by
  cases result with
  | none => exact simulates_none _
  | some read => exact Simulates.some (h read.1 read.2)

theorem valueAgrees_plain {value : HeapValue} {field : Field} {cursor : Cursor} {next : ℕ}
    (hzero : value.isZero = false) (hvalue : value.AtAnyDepth VectorOk) (hfield : field.LengthsFit) :
    ValueAgrees (value, cursor, next) (field, cursor) :=
  ⟨rfl, hzero, iff_of_true hvalue hfield⟩

variable (model) in
/-- The two readers of an object inside an object. -/
theorem readObject_agrees (hreaders : ReadersAgree readHeap readObject) (cursor : Cursor)
    (next : ℕ) :
    Simulates ValueAgrees (readValue model readHeap .object cursor next)
      ((readObject cursor).map (Prod.map .object id)) := by
  intro heap hheap
  obtain ⟨⟨obj, middle, after⟩, hobj, rfl⟩ := Option.map_eq_some_iff.mp hheap
  obtain ⟨⟨tl, last⟩, htl, hagrees⟩ := hreaders cursor next _ hobj
  rw [htl]
  exact ⟨_, rfl, hagrees⟩

theorem readMessage_agrees (cursor : Cursor) (next : ℕ) :
    Simulates ValueAgrees (readValue model readHeap .message cursor next)
      ((deserializeMtpMessage model cursor).map (Prod.map .message id)) := by
  have hmessage (message : MtpMessage) (cursor : Cursor) :
      ValueAgrees (.message message next, cursor, next + 1) (.message message, cursor) :=
    valueAgrees_plain rfl trivial trivial
  exact simulates_reader _ hmessage

/-- The readers of elements, in the order in which `deserializeElem` has them. -/
theorem elemReader_snd (elem : String) :
    (elemReader elem).2 =
      if elem = "int" then .ui32
      else if elem = "bool" then .ui32
      else if elem = "long" then .ui64
      else if elem = "double" then .double
      else if elem = "string" ∨ elem = "bytes" then .bytes
      else if elem = "%Message" then .message
      else .object := by
  by_cases hbytes : elem = "string" ∨ elem = "bytes"
  · rcases hbytes with rfl | rfl
    · rfl
    · rfl
  · obtain ⟨hstring, hbytes'⟩ := not_or.mp hbytes
    rw [elemReader, if_neg hstring, if_neg hbytes', if_neg hbytes]
    split_ifs <;> rfl

/-- The two readers of an element of a vector. -/
theorem readValue_agrees (hreaders : ReadersAgree readHeap readObject) (elem : String)
    (cursor : Cursor) (next : ℕ) :
    Simulates ValueAgrees (readValue model readHeap (elemReader elem).2 cursor next)
      (deserializeElem model readObject elem cursor) := by
  rw [elemReader_snd, deserializeElem]
  split_ifs
  · exact simulates_reader _ fun _ _ ↦ valueAgrees_plain rfl trivial trivial
  · exact simulates_reader _ fun _ _ ↦ valueAgrees_plain rfl trivial trivial
  · exact simulates_reader _ fun _ _ ↦ valueAgrees_plain rfl trivial trivial
  · exact simulates_reader _ fun _ _ ↦ valueAgrees_plain rfl trivial trivial
  · exact simulates_reader _ fun _ _ ↦ valueAgrees_plain rfl trivial trivial
  · exact readMessage_agrees cursor next
  · exact readObject_agrees model hreaders cursor next

/-- Elements that are read one after the other. -/
structure ValuesAgree (count : ℕ) (heap : List HeapValue × Cursor × ℕ) (plain : List Field × Cursor) :
    Prop where
  cursor : heap.2.1 = plain.2
  length : heap.1.length = count
  isZero : ∀ elem ∈ heap.1, elem.isZero = false
  vectors : HeapValue.AllAtAnyDepth VectorOk heap.1 ↔ Field.AllLengthsFit plain.1

/-- The two loops over the elements of a vector. -/
theorem readValues_agree (hreaders : ReadersAgree readHeap readObject) (elem : String) (count : ℕ)
    (cursor : Cursor) (next : ℕ) :
    Simulates (ValuesAgree count) (readValues model readHeap (elemReader elem).2 count cursor next)
      (deserializeElems model readObject elem count cursor) := by
  induction count generalizing cursor next with
  | zero => exact Simulates.some ⟨rfl, rfl, nofun, Iff.rfl⟩
  | succ count ih =>
    apply (readValue_agrees hreaders elem cursor next).bind
    rintro ⟨first, middle, after⟩ ⟨field, _⟩ ⟨rfl, hzero, hfirst⟩
    apply (ih middle after).bind
    rintro ⟨rest, last, upper⟩ ⟨fields, _⟩ ⟨rfl, hlength, hzeros, hrest⟩
    exact Simulates.some ⟨rfl, congrArg Nat.succ hlength,
      List.forall_mem_cons.mpr ⟨hzero, hzeros⟩, and_congr hfirst hrest⟩

end Values

/-! ## One argument -/

section Arg

variable {memory after : Memory} {arg : Arg} {field : Field}

/-- The members for an argument still have the values that `NEW` gave them. -/
def Fresh (memory : Memory) (arg : Arg) : Prop :=
  ∀ name ∈ argNames arg, ∀ value ∈ memory.get name, value.isZero = true

/-- What the statements for an argument change: its members, and its vector is sound exactly if the
length fits. -/
structure ArgChanges (memory : Memory) (arg : Arg) (field : Field) (after : Memory) : Prop where
  names : after.map Prod.fst = memory.map Prod.fst
  get_other : ∀ name, name ∉ argNames arg → after.get name = memory.get name
  vectors : VectorOk after arg ∧ HeapValue.AllAtAnyDepth VectorOk (after.map Prod.snd) ↔
    HeapValue.AllAtAnyDepth VectorOk (memory.map Prod.snd) ∧ field.LengthsFit

theorem argNames_of_isVector (hvector : arg.isVector = true) :
    argNames arg = [arg.name.toList ++ ['_'], arg.name.toList ++ "_len".toList] := by
  obtain ⟨elem, helem⟩ := Option.isSome_iff_exists.mp hvector
  obtain ⟨type, htype, -⟩ := Option.bind_eq_some_iff.mp helem
  rw [argNames, isFlags_of_type htype, if_neg Bool.false_ne_true, if_pos hvector]

/-- Whether a vector is sound depends on its members only. -/
theorem VectorOk.congr (hget : ∀ name ∈ argNames arg, after.get name = memory.get name) :
    VectorOk after arg ↔ VectorOk memory arg := by
  unfold VectorOk
  apply forall_congr'
  intro hvector
  rw [argNames_of_isVector hvector] at hget
  rw [hget _ List.mem_cons_self, hget _ (List.mem_cons_of_mem _ List.mem_cons_self)]

/-- A vector that has not been read has the length zero. -/
theorem Fresh.vectorOk (hfresh : Fresh memory arg) : VectorOk memory arg := by
  intro hvector count hcount
  rw [Fresh, argNames_of_isVector hvector] at hfresh
  have hzero := hfresh _ (List.mem_cons_of_mem _ List.mem_cons_self) count hcount
  cases count with
  | zero =>
    refine ⟨⟨le_rfl, by decide⟩, fun array harray ↦ ?_⟩
    have hnull := hfresh _ List.mem_cons_self array harray
    cases array with
    | zero => rfl
    | _ => cases hnull
  | _ => cases hzero

theorem member_ne_len (name : List Char) : name ++ ['_'] ≠ name ++ "_len".toList := by
  intro heq
  have hlast := congrArg List.getLast? heq
  rw [getLast?_member, getLast?_len] at hlast
  cases hlast

/-- An assignment to the only member for an argument. -/
theorem argChanges_scalar {type : String} (htype : arg.type = some type)
    (hvector : vectorElem type = none) (hnodup : (memory.map Prod.fst).Nodup)
    (hfresh : Fresh memory arg) {value : HeapValue}
    (hset : memory.set (arg.name.toList ++ ['_']) value = some after)
    (hvalue : value.AtAnyDepth VectorOk ↔ field.LengthsFit) : ArgChanges memory arg field after := by
  have hscalar : arg.isVector = false := by
    rw [isVector_of_type htype, hvector]
    rfl
  have hnames : argNames arg = [arg.name.toList ++ ['_']] := by
    rw [argNames, isFlags_of_type htype, if_neg Bool.false_ne_true, hscalar,
      if_neg Bool.false_ne_true]
  have hassigns := assigns_of_set hset
  have hok : VectorOk after arg := fun htrue ↦ by
    rw [hscalar] at htrue
    cases htrue
  refine ⟨hassigns.names, fun name hname ↦ ?_, ?_⟩
  · rw [hnames, List.mem_singleton] at hname
    exact hassigns.get_other name hname
  · rw [and_iff_right hok, allAtAnyDepth_of_set hset hnodup, hvalue]
    exact hfresh _ (hnames ▸ List.mem_singleton_self _)

section Vector

variable {middle : Memory} {count : UInt32} (hvector : arg.isVector = true)
  (hnodup : (memory.map Prod.fst).Nodup) (hfresh : Fresh memory arg)
  (hlen : memory.set (arg.name.toList ++ "_len".toList) (.word count) = some middle)

include hvector hnodup hfresh hlen

/-- The length is stored, whatever it is. -/
theorem allAtAnyDepth_len {property : Memory → Arg → Prop} :
    HeapValue.AllAtAnyDepth property (middle.map Prod.snd) ↔
      HeapValue.AllAtAnyDepth property (memory.map Prod.snd) := by
  rw [Fresh, argNames_of_isVector hvector] at hfresh
  have hzero := hfresh _ (List.mem_cons_of_mem _ List.mem_cons_self)
  rw [allAtAnyDepth_of_set hlen hnodup hzero]
  exact and_iff_left trivial

omit hnodup hfresh in
/-- A vector whose length is refused has this length, and no array. -/
theorem argChanges_refused (hrefused : intOfUi32 count < 0 ∨ 10000 < intOfUi32 count) :
    ArgChanges memory arg (.vector count []) middle := by
  have hassigns := assigns_of_set hlen
  refine ⟨hassigns.names, fun name hname ↦ hassigns.get_other name ?_, ?_⟩
  · rintro rfl
    rw [argNames_of_isVector hvector] at hname
    exact hname (List.mem_cons_of_mem _ List.mem_cons_self)
  · refine iff_of_false (fun h ↦ ?_) fun h ↦ ?_
    · have hrange := (h.1 hvector _ hassigns.get_same).1
      change 0 ≤ intOfUi32 count ∧ intOfUi32 count ≤ 10000 at hrange
      omega
    · have hrange : 0 ≤ intOfUi32 count ∧ intOfUi32 count ≤ 10000 := h.2.1
      omega

/-- A vector without elements has no array. -/
theorem argChanges_empty (hcount : count = 0) :
    ArgChanges memory arg (.vector count []) middle := by
  have hassigns := assigns_of_set hlen
  have hzero : intOfUi32 count = 0 := by
    rw [hcount]
    decide +kernel
  refine ⟨hassigns.names, fun name hname ↦ hassigns.get_other name ?_, ?_⟩
  · rintro rfl
    rw [argNames_of_isVector hvector] at hname
    exact hname (List.mem_cons_of_mem _ List.mem_cons_self)
  · have hfits : (Field.vector count []).LengthsFit := ⟨by omega, trivial⟩
    have hok : VectorOk middle arg := by
      intro _ value hvalue
      rw [hassigns.get_same, Option.mem_some_iff] at hvalue
      have hlength : value.length = 0 := hvalue ▸ hzero
      rw [hlength]
      refine ⟨⟨le_rfl, by decide⟩, fun array harray ↦ ?_⟩
      rw [hassigns.get_other _ (member_ne_len _)] at harray
      rw [Fresh, argNames_of_isVector hvector] at hfresh
      have hnull := hfresh _ List.mem_cons_self array harray
      cases array with
      | zero => rfl
      | _ => cases hnull
    rw [and_iff_right hok, and_iff_left hfits]
    exact allAtAnyDepth_len hvector hnodup hfresh hlen

/-- A vector with elements has an array for them. -/
theorem argChanges_array {block : ℕ} {elems : List HeapValue} {fields : List Field}
    {cursor cursor' : Cursor} {next : ℕ}
    (hcount : 0 ≤ intOfUi32 count ∧ intOfUi32 count ≤ 10000)
    (helems : ValuesAgree count.toNat (elems, cursor, next) (fields, cursor'))
    (harray : middle.set (arg.name.toList ++ ['_']) (.array block elems) = some after) :
    ArgChanges memory arg (.vector count fields) after := by
  have hassigns := assigns_of_set hlen
  have hassigns' := assigns_of_set harray
  have hnames := argNames_of_isVector hvector
  refine ⟨hassigns'.names.trans hassigns.names, fun name hname ↦ ?_, ?_⟩
  · rw [hnames, List.mem_cons, List.mem_singleton, not_or] at hname
    rw [hassigns'.get_other name hname.1, hassigns.get_other name hname.2]
  · have hok : VectorOk after arg := by
      intro _ value hvalue
      rw [hassigns'.get_other _ (member_ne_len _).symm, hassigns.get_same,
        Option.mem_some_iff] at hvalue
      rw [← hvalue]
      refine ⟨hcount, fun array hvalue ↦ ?_⟩
      rw [hassigns'.get_same, Option.mem_some_iff] at hvalue
      rw [← hvalue]
      refine ⟨?_, helems.isZero⟩
      change (elems.length : ℤ) = intOfUi32 count
      rw [intOfUi32_eq_toNat hcount.1, helems.length]
    have hnull : ∀ old ∈ middle.get (arg.name.toList ++ ['_']), old.isZero = true := by
      rw [hassigns.get_other _ (member_ne_len _)]
      rw [Fresh, hnames] at hfresh
      exact hfresh _ List.mem_cons_self
    have hfits : (Field.vector count fields).LengthsFit ↔ Field.AllLengthsFit fields :=
      and_iff_right hcount
    rw [and_iff_right hok, hfits, allAtAnyDepth_of_set harray (hassigns.names ▸ hnodup) hnull,
      allAtAnyDepth_len hvector hnodup hfresh hlen]
    exact and_congr_right' helems.vectors

end Vector

end Arg

section Statements

variable {model : DataModel} {readHeap : HeapReader} {readObject : ObjectReader} {arg : Arg}
  {type : String} {decoding : Decoding}

/-- The statements for an argument have gone on or ended alike. -/
def EndingAgrees (arg : Arg) (decoding : Decoding) : Ending → Flow → Prop
  | .next after, .next field cursor =>
    after.flags = decoding.flags ∧ after.cursor = cursor ∧
      ArgChanges decoding.memory arg field after.memory
  | .stop after, .stop field cursor =>
    after.cursor = cursor ∧ ArgChanges decoding.memory arg field after.memory
  | _, _ => False

/-- A reader for a whole argument. -/
def FlowAgrees (heap : HeapValue × Cursor × ℕ) (flow : Flow) : Prop :=
  ∃ plain, flow = .next plain.1 plain.2 ∧ ValueAgrees heap plain

theorem simulates_flow {Value : Type} {after : ℕ} {pack : Value → HeapValue}
    {field : Value → Field} (result : Option (Value × Cursor))
    (h : ∀ value cursor, ValueAgrees (pack value, cursor, after) (field value, cursor)) :
    Simulates FlowAgrees (result.map fun (value, cursor) ↦ (pack value, cursor, after))
      (result.map fun result ↦ Flow.next (field result.1) result.2) := by
  cases result with
  | none => exact simulates_none _
  | some read => exact Simulates.some ⟨(field read.1, read.2), rfl, h read.1 read.2⟩

variable (model) in
/-- The two readers of an argument that is neither a vector nor a `true`. -/
theorem readValue_scalar_agrees (hreaders : ReadersAgree readHeap readObject)
    (hvector : vectorElem type = none) (htrue : type ≠ "true") (name : List Char) (cursor : Cursor)
    (next : ℕ) :
    ∃ reader, assignOf name type = .read (name ++ ['_']) reader ∧
      Simulates FlowAgrees (readValue model readHeap reader cursor next)
        (deserializeValue model readObject type cursor) := by
  have hobject : Simulates FlowAgrees (readValue model readHeap .object cursor next)
      ((readObject cursor).map fun result ↦ Flow.next (.object result.1) result.2) := by
    intro heap hheap
    obtain ⟨plain, hplain, hagrees⟩ := readObject_agrees model hreaders cursor next heap hheap
    obtain ⟨⟨tl, last⟩, htl, rfl⟩ := Option.map_eq_some_iff.mp hplain
    rw [htl]
    exact ⟨_, rfl, _, rfl, hagrees⟩
  by_cases hbase : type ∈ baseTypes
  · simp only [baseTypes, List.mem_cons, List.not_mem_nil, or_false] at hbase
    rcases hbase with rfl | rfl | rfl | rfl | rfl | rfl | rfl | rfl | rfl | rfl
    all_goals
      simp only [assignOf, deserializeValue, String.reduceEq, if_false, if_true, or_self, or_true,
        or_false, hvector]
    · exact ⟨_, rfl, simulates_flow _ fun _ _ ↦ valueAgrees_plain rfl trivial trivial⟩
    · exact ⟨_, rfl, simulates_flow _ fun _ _ ↦ valueAgrees_plain rfl trivial trivial⟩
    · exact absurd rfl htrue
    · have hbool (value : UInt32) (cursor : Cursor) :
          ValueAgrees (.word value, cursor, next) (.bool (value ≠ 0), cursor) :=
        valueAgrees_plain rfl trivial trivial
      exact ⟨_, rfl, simulates_flow _ hbool⟩
    · exact ⟨_, rfl, simulates_flow _ fun _ _ ↦ valueAgrees_plain rfl trivial trivial⟩
    · exact ⟨_, rfl, simulates_flow _ fun _ _ ↦ valueAgrees_plain rfl trivial trivial⟩
    · exact ⟨_, rfl, simulates_flow _ fun _ _ ↦ valueAgrees_plain rfl trivial trivial⟩
    · exact ⟨_, rfl, simulates_flow _ fun _ _ ↦ valueAgrees_plain rfl trivial trivial⟩
    · exact ⟨_, rfl, hobject⟩
    · exact ⟨_, rfl, simulates_flow _ fun _ _ ↦ valueAgrees_plain rfl trivial trivial⟩
  · simp only [baseTypes, List.mem_cons, List.not_mem_nil, or_false, not_or] at hbase
    simp only [assignOf, deserializeValue, hbase, if_false, or_self, hvector]
    exact ⟨_, rfl, hobject⟩

variable (htype : arg.type = some type) (hnodup : (decoding.memory.map Prod.fst).Nodup)
  (hfresh : Fresh decoding.memory arg)

include htype hnodup hfresh

/-- The statements for a vector. -/
theorem runAssign_vector_agrees (hreaders : ReadersAgree readHeap readObject) {elem : String}
    (hvector : vectorElem type = some elem) :
    Simulates (EndingAgrees arg decoding)
      (runAssign model readHeap (assignOf arg.name.toList type) decoding)
      (deserializeValue model readObject type decoding.cursor) := by
  have hisVector : arg.isVector = true := by
    rw [isVector_of_type htype, hvector]
    rfl
  rw [assignOf_vector _ hvector, runAssign, deserializeValue_vector hvector, deserializeVector]
  apply (simulates_self _).bind
  rintro ⟨count, cursor⟩ _ rfl
  dsimp only
  cases hlen : decoding.memory.set (arg.name.toList ++ "_len".toList) (.word count) with
  | none => exact simulates_none _
  | some middle =>
    rw [Option.bind_eq_bind, Option.bind_some]
    by_cases hrefused : intOfUi32 count < 0 ∨ 10000 < intOfUi32 count
    · rw [if_pos hrefused, if_pos hrefused]
      exact Simulates.some ⟨rfl, argChanges_refused hisVector hlen hrefused⟩
    · have hcount : 0 ≤ intOfUi32 count ∧ intOfUi32 count ≤ 10000 := by omega
      rw [if_neg hrefused, if_neg hrefused]
      by_cases hzero : count = 0
      · rw [if_pos hzero, hzero]
        exact Simulates.some ⟨rfl, rfl,
          argChanges_empty hisVector hnodup hfresh (hzero ▸ hlen) rfl⟩
      · rw [if_neg hzero]
        apply (readValues_agree hreaders elem _ _ _).bind
        rintro ⟨elems, stopped, upper⟩ ⟨fields, last⟩ helems
        dsimp only
        cases harray : middle.set (arg.name.toList ++ ['_']) (.array decoding.next elems) with
        | none => exact simulates_none _
        | some after =>
          exact Simulates.some ⟨rfl, helems.cursor,
            argChanges_array hisVector hnodup hfresh hlen hcount helems harray⟩

/-- The statements for an argument that is not a vector. -/
theorem runAssign_scalar_agrees (hreaders : ReadersAgree readHeap readObject)
    (hvector : vectorElem type = none) :
    Simulates (EndingAgrees arg decoding)
      (runAssign model readHeap (assignOf arg.name.toList type) decoding)
      (deserializeValue model readObject type decoding.cursor) := by
  by_cases htrue : type = "true"
  · have hassign : assignOf arg.name.toList type = .true (arg.name.toList ++ ['_']) := by
      simp only [assignOf, htrue, String.reduceEq, if_false, if_true]
    have hplain : deserializeValue model readObject type decoding.cursor =
        some (.next (.bool true) decoding.cursor) := by
      simp only [deserializeValue, htrue, String.reduceEq, if_false, if_true]
    rw [hassign, hplain, runAssign]
    cases hset : decoding.memory.set (arg.name.toList ++ ['_']) (.bool true) with
    | none => exact simulates_none _
    | some after =>
      exact Simulates.some ⟨rfl, rfl,
        argChanges_scalar htype hvector hnodup hfresh hset Iff.rfl⟩
  · obtain ⟨reader, hassign, hread⟩ := readValue_scalar_agrees model hreaders hvector htrue
      arg.name.toList decoding.cursor decoding.next
    rw [hassign, runAssign]
    apply hread.bind_left
    rintro ⟨value, cursor, next⟩ _ ⟨⟨field, cursor'⟩, rfl, hvalue⟩
    dsimp only
    cases hset : decoding.memory.set (arg.name.toList ++ ['_']) value with
    | none => exact simulates_none _
    | some after =>
      exact Simulates.some ⟨rfl, hvalue.cursor,
        argChanges_scalar htype hvector hnodup hfresh hset hvalue.vectors⟩

/-- The statements for an argument. -/
theorem runAssign_agrees (hreaders : ReadersAgree readHeap readObject) :
    Simulates (EndingAgrees arg decoding)
      (runAssign model readHeap (assignOf arg.name.toList type) decoding)
      (deserializeValue model readObject type decoding.cursor) := by
  cases hvector : vectorElem type with
  | none => exact runAssign_scalar_agrees htype hnodup hfresh hreaders hvector
  | some elem => exact runAssign_vector_agrees htype hnodup hfresh hreaders hvector

end Statements

/-! ## All arguments -/

section Args

variable {memory middle after : Memory} {arg : Arg} {args : List Arg} {field : Field}
  {fields : List Field}

/-- What the statements for several arguments change. -/
structure ArgsChange (memory : Memory) (args : List Arg) (fields : List Field) (after : Memory) :
    Prop where
  names : after.map Prod.fst = memory.map Prod.fst
  get_other : ∀ name, name ∉ args.flatMap argNames → after.get name = memory.get name
  vectors : (∀ arg ∈ args, VectorOk after arg) ∧
      HeapValue.AllAtAnyDepth VectorOk (after.map Prod.snd) ↔
    HeapValue.AllAtAnyDepth VectorOk (memory.map Prod.snd) ∧ Field.AllLengthsFit fields

theorem argsChange_nil (memory : Memory) : ArgsChange memory [] [] memory where
  names := rfl
  get_other _ _ := rfl
  vectors := ⟨fun h ↦ ⟨h.2, trivial⟩, fun h ↦ ⟨nofun, h.1⟩⟩

/-- An argument that is not read. -/
theorem argChanges_fresh (hfresh : Fresh memory arg) :
    ArgChanges memory arg (zeroField arg) memory where
  names := rfl
  get_other _ _ := rfl
  vectors := by rw [and_iff_right hfresh.vectorOk, and_iff_left (zeroField_fits arg).1]

/-- The statements for one argument leave the members for the others alone. -/
theorem ArgsChange.cons (hfirst : ArgChanges memory arg field middle)
    (hrest : ArgsChange middle args fields after)
    (hdisjoint : ∀ later ∈ args, (argNames arg).Disjoint (argNames later)) :
    ArgsChange memory (arg :: args) (field :: fields) after where
  names := hrest.names.trans hfirst.names
  get_other name hname := by
    rw [List.flatMap_cons, List.mem_append, not_or] at hname
    rw [hrest.get_other name hname.2, hfirst.get_other name hname.1]
  vectors := by
    have hsame : VectorOk after arg ↔ VectorOk middle arg := by
      apply VectorOk.congr
      intro name hname
      apply hrest.get_other
      intro hmem
      obtain ⟨later, hlater, hlate⟩ := List.mem_flatMap.mp hmem
      exact hdisjoint later hlater hname hlate
    rw [List.forall_mem_cons, and_assoc, hrest.vectors, hsame, ← and_assoc, hfirst.vectors,
      and_assoc, Field.AllLengthsFit]

theorem Fresh.of_argChanges (hfresh : Fresh memory arg) {first : Arg}
    (hchanges : ArgChanges memory first field middle)
    (hdisjoint : (argNames first).Disjoint (argNames arg)) : Fresh middle arg := by
  intro name hname
  rw [hchanges.get_other name fun hmem ↦ hdisjoint hmem hname]
  exact hfresh name hname

/-- Arguments behind a vector that has been refused. -/
theorem argsChange_fresh (hfresh : ∀ arg ∈ args, Fresh memory arg)
    (hdisjoint : args.Pairwise fun first second ↦ (argNames first).Disjoint (argNames second)) :
    ArgsChange memory args (args.map zeroField) memory := by
  induction args with
  | nil => exact argsChange_nil memory
  | cons arg rest ih =>
    rw [List.forall_mem_cons] at hfresh
    rw [List.pairwise_cons] at hdisjoint
    exact (ih hfresh.2 hdisjoint.2).cons (argChanges_fresh hfresh.1) hdisjoint.1

variable {model : DataModel} {readHeap : HeapReader} {readObject : ObjectReader}

variable (model) in
/-- The statements for the arguments. -/
theorem runDecodeStmts_agree (hreaders : ReadersAgree readHeap readObject) {args : List Arg}
    (decoding : Decoding) (hnodup : (decoding.memory.map Prod.fst).Nodup)
    (hfresh : ∀ arg ∈ args, Fresh decoding.memory arg)
    (hdisjoint : args.Pairwise fun first second ↦ (argNames first).Disjoint (argNames second)) :
    Simulates (fun after plain ↦ after.cursor = plain.2 ∧
        ArgsChange decoding.memory args plain.1 after.memory)
      (runDecodeStmts model readHeap (args.flatMap appendDeserializeArg) decoding)
      (deserializeArgs model readObject decoding.flags args decoding.cursor) := by
  induction args generalizing decoding with
  | nil => exact Simulates.some ⟨rfl, argsChange_nil _⟩
  | cons arg rest ih =>
    rw [List.forall_mem_cons] at hfresh
    rw [List.pairwise_cons] at hdisjoint
    rw [List.flatMap_cons]
    have hlater (middle : Decoding) (field : Field)
        (hchanges : ArgChanges decoding.memory arg field middle.memory) :
        Simulates (fun after plain ↦ after.cursor = plain.2 ∧
            ArgsChange decoding.memory (arg :: rest) plain.1 after.memory)
          (runDecodeStmts model readHeap (rest.flatMap appendDeserializeArg) middle)
          ((deserializeArgs model readObject middle.flags rest middle.cursor).bind
            fun plain ↦ some (field :: plain.1, plain.2)) := by
      have hrest := ih middle (hchanges.names ▸ hnodup)
        (fun later hmem ↦ (hfresh.2 later hmem).of_argChanges hchanges (hdisjoint.1 later hmem))
        hdisjoint.2
      intro after hafter
      obtain ⟨plain, hplain, hcursor, hothers⟩ := hrest after hafter
      rw [hplain]
      exact ⟨_, rfl, hcursor, hothers.cons hchanges hdisjoint.1⟩
    have hskip := argChanges_fresh hfresh.1
    cases htype : arg.type with
    | none =>
      by_cases hflags : arg.isFlags = true
      · simp only [appendDeserializeArg, deserializeArgs, htype, hflags, if_true,
          List.singleton_append, runDecodeStmts]
        apply (simulates_self _).bind
        rintro ⟨word, cursor⟩ _ rfl
        exact hlater ⟨decoding.flags ++ [word], decoding.memory, cursor, decoding.next⟩ _ hskip
      · simp only [appendDeserializeArg, deserializeArgs, htype, hflags]
        exact hlater decoding _ hskip
    | some type =>
      have htest : argPresent decoding.flags arg =
          flagTest decoding.flags arg.flagn arg.flagb := rfl
      simp only [appendDeserializeArg, deserializeArgs, htype, List.singleton_append,
        runDecodeStmts, htest]
      cases flagTest decoding.flags arg.flagn arg.flagb with
      | none => exact simulates_none _
      | some present =>
        cases present with
        | false => exact hlater decoding _ hskip
        | true =>
          apply (runAssign_agrees htype hnodup hfresh.1 hreaders).bind
          rintro (after | after) (⟨field, cursor⟩ | ⟨field, cursor⟩) hagrees
          · obtain ⟨hflags, rfl, hchanges⟩ := hagrees
            rw [← hflags]
            exact hlater after field hchanges
          · exact hagrees.elim
          · exact hagrees.elim
          · obtain ⟨rfl, hchanges⟩ := hagrees
            refine Simulates.some ⟨rfl, ArgsChange.cons hchanges ?_ hdisjoint.1⟩
            exact argsChange_fresh
              (fun later hmem ↦ (hfresh.2 later hmem).of_argChanges hchanges
                (hdisjoint.1 later hmem)) hdisjoint.2

end Args

/-! ## A whole object -/

section Method

variable {method : Method} (hnodup : ((appendStruct method).map Member.name).Nodup)

theorem memberName_mem {arg : Arg} (hflags : arg.isFlags = false) :
    memberName arg ∈ (appendStructArg arg).map Member.name := by
  unfold appendStructArg
  rw [hflags, if_neg Bool.false_ne_true]
  dsimp only
  split
  · exact List.mem_cons_self
  · exact List.mem_cons_self

include hnodup

/-- The decoder assigns to different members for different arguments. -/
theorem pairwise_disjoint_argNames :
    method.args.Pairwise fun first second ↦ (argNames first).Disjoint (argNames second) := by
  rw [appendStruct, List.map_append, List.map_flatMap, List.nodup_append, List.nodup_flatMap]
    at hnodup
  refine hnodup.2.1.2.imp fun hdisjoint ↦ disjoint_argNames fun hfirst hsecond heq ↦ ?_
  have hsame : memberName _ = memberName _ := congrArg (fun name ↦ str 64 (name ++ ['_'])) heq
  exact hdisjoint (memberName_mem hfirst) (hsame ▸ memberName_mem hsecond)

/-- The decoder assigns to no member of the header for an argument. -/
theorem argNames_notMem_structHeader {arg : Arg} (harg : arg ∈ method.args) {name : List Char}
    (hname : name ∈ argNames arg) : name ∉ (structHeader method).map Member.name := by
  intro hheader
  obtain ⟨hflags, hform⟩ := mem_argNames hname
  rcases mem_structHeader hheader with hlast | ⟨field, hfield, rfl⟩
  · rcases hform with rfl | rfl
    · exact hlast.1 (getLast?_member _)
    · exact hlast.2 (getLast?_len _)
  · have hshort : field.length < 60 := by
      split at hfield
      case isTrue =>
        simp only [List.mem_cons, List.not_mem_nil, or_false] at hfield
        rcases hfield with rfl | rfl <;> decide
      case isFalse => cases hfield
    rcases hform with hsame | hsame
    · have hfield' := List.append_cancel_right hsame
      have hmember : memberName arg = field ++ ['_'] := by
        rw [memberName_eq (hfield' ▸ hshort), hfield']
      rw [appendStruct, List.map_append, List.map_flatMap, List.nodup_append] at hnodup
      exact hnodup.2.2 _ hheader _
        (List.mem_flatMap.mpr ⟨arg, harg, hmember ▸ memberName_mem hflags⟩) rfl
    · have hlast := congrArg List.getLast? hsame
      rw [getLast?_member, getLast?_len] at hlast
      cases hlast

omit hnodup in
theorem names_newMemory {header : Memory}
    (hheader : header.map Prod.fst = (structHeader method).map Member.name) :
    (header ++ method.args.flatMap newCells).map Prod.fst =
      (appendStruct method).map Member.name := by
  have hnew : (Memory.new method).map Prod.fst = (appendStruct method).map Member.name := by
    rw [Memory.new, List.map_map]
    rfl
  rw [memory_new, List.map_append, List.map_map] at hnew
  rw [List.map_append, hheader]
  exact hnew

/-- Behind the header nothing has been assigned. -/
theorem fresh_newCells {header : Memory}
    (hheader : header.map Prod.fst = (structHeader method).map Member.name) :
    ∀ arg ∈ method.args, Fresh (header ++ method.args.flatMap newCells) arg := by
  intro arg harg name hname value hvalue
  rw [Memory.get_append_right (hheader ▸ argNames_notMem_structHeader hnodup harg hname),
    Memory.get, Option.mem_def, List.lookup_eq_some_iff] at hvalue
  obtain ⟨first, rest, hcells, -⟩ := hvalue
  have hmem : value ∈ (method.args.flatMap newCells).map Prod.snd := by
    rw [hcells, List.map_append, List.map_cons]
    exact List.mem_append_right _ List.mem_cons_self
  rw [values_flatMap_newCells hmem]
  rfl

variable {model : DataModel} {readHeap : HeapReader} {readObject : ObjectReader}

/-- The statements for the arguments, behind a header without vectors. -/
theorem args_agree (hreaders : ReadersAgree readHeap readObject) {header : Memory}
    (hheader : header.map Prod.fst = (structHeader method).map Member.name)
    (hplain : HeapValue.AllAtAnyDepth VectorOk (header.map Prod.snd)) (cursor : Cursor)
    (next block : ℕ) :
    Simulates (fun after plain ↦ after.cursor = plain.2 ∧
        ((HeapObj.mk block method after.flags (after.memory.map Prod.snd)).AtAnyDepth VectorOk ↔
          Field.AllLengthsFit plain.1))
      (runDecodeStmts model readHeap (method.args.flatMap appendDeserializeArg)
        ⟨[], header ++ method.args.flatMap newCells, cursor, next⟩)
      (deserializeArgs model readObject [] method.args cursor) := by
  have hnames := names_newMemory hheader
  have hagree := runDecodeStmts_agree model hreaders
    ⟨[], header ++ method.args.flatMap newCells, cursor, next⟩ (hnames ▸ hnodup)
    (fresh_newCells hnodup hheader) (pairwise_disjoint_argNames hnodup)
  refine hagree.imp fun after plain hchanges ↦ ⟨hchanges.1, ?_⟩
  have hnew : HeapValue.AllAtAnyDepth VectorOk
      ((header ++ method.args.flatMap newCells).map Prod.snd) := by
    rw [allAtAnyDepth_iff] at hplain ⊢
    rw [List.map_append]
    refine List.forall_mem_append.mpr ⟨hplain, fun value hvalue ↦ ?_⟩
    rw [values_flatMap_newCells hvalue]
    trivial
  rw [HeapObj.AtAnyDepth, ← hnames, ← hchanges.2.names, zip_memory, hchanges.2.vectors]
  exact and_iff_right hnew

/-- The two decoders of a constructor. -/
theorem heapDeserializeMethod_agrees (hreaders : ReadersAgree readHeap readObject)
    (cursor : Cursor) (next : ℕ) :
    Simulates (fun heap plain ↦ heap.2.1 = plain.2 ∧
        (heap.1.AtAnyDepth VectorOk ↔ plain.1.LengthsFit))
      (heapDeserializeMethod model readHeap method cursor next)
      (deserializeMethod model readObject method cursor) := by
  have hrest (name : List Char) (hname : name ∈ (structHeader method).map Member.name) :
      name ∉ (method.args.flatMap newCells).map Prod.fst := by
    have hnames : (Memory.new method).map Prod.fst = (appendStruct method).map Member.name := by
      rw [Memory.new, List.map_map]
      rfl
    rw [← hnames, memory_new, List.map_append, List.map_map, List.nodup_append] at hnodup
    exact fun hmem ↦ hnodup.2.2 name hname name hmem rfl
  rw [heapDeserializeMethod, if_pos hnodup, appendDeserializeTable, memory_new, deserializeMethod]
  by_cases hname : method.name = "vector"
  · simp only [if_pos hname]
    rw [run_header_vector hname hrest]
    simp only [Option.bind_eq_bind, Option.bind_assoc]
    apply (simulates_self _).bind
    rintro buf _ rfl
    apply (simulates_self _).bind
    rintro id _ rfl
    apply (simulates_self _).bind
    rintro len _ rfl
    apply (simulates_self _).bind
    rintro data _ rfl
    have hheader : (vectorCells (next + 1) id.1 buf len.1 data).map Prod.fst =
        (structHeader method).map Member.name := by
      rw [structHeader, if_pos hname]
      rfl
    apply (args_agree hnodup hreaders hheader ⟨trivial, trivial, trivial, trivial, trivial⟩ len.2
      (next + 1 + 2) next).bind
    rintro after plain ⟨hcursor, hvectors⟩
    refine Simulates.some ⟨hcursor, hvectors.trans ?_⟩
    exact ⟨fun h ↦ ⟨trivial, trivial, h⟩, fun h ↦ h.2.2⟩
  · simp only [if_neg hname]
    rw [run_header hname hrest]
    simp only [Option.bind_eq_bind, Option.bind_assoc]
    apply (simulates_self _).bind
    rintro buf _ rfl
    apply (simulates_self _).bind
    rintro id _ rfl
    have hheader : (headerCells (next + 1) id.1 buf).map Prod.fst =
        (structHeader method).map Member.name := by
      rw [structHeader, if_neg hname]
      rfl
    apply (args_agree hnodup hreaders hheader ⟨trivial, trivial, trivial⟩ id.2 (next + 1 + 1)
      next).bind
    rintro after plain ⟨hcursor, hvectors⟩
    exact Simulates.some ⟨hcursor, hvectors⟩

end Method

/-! ## Objects inside objects -/

section Table

variable {model : DataModel} {table : List Method} {fuel : ℕ} {cursor : Cursor} {next : ℕ}

variable (model table) in
/-- The two decoders read the same objects, for any schema. -/
theorem readersAgree (fuel : ℕ) :
    ReadersAgree (heapDeserializeFuel model table fuel) (tlDeserializeFuel model table fuel) := by
  induction fuel with
  | zero => exact fun _ _ ↦ simulates_none _
  | succ fuel ih =>
    intro cursor next
    rw [heapDeserializeFuel, tlDeserializeFuel]
    have hnull : ValueAgrees (.pointer none, cursor, next) (.object none, cursor) :=
      valueAgrees_plain rfl trivial trivial
    cases cursor.read 4 with
    | none => exact simulates_none _
    | some bytes =>
      simp only [Option.bind_eq_bind, Option.bind_some]
      by_cases hzero : getUi32 bytes = 0
      · rw [if_pos hzero, if_pos hzero]
        exact Simulates.some hnull
      · rw [if_neg hzero, if_neg hzero]
        cases getFun table (getUi32 bytes) with
        | none => exact Simulates.some hnull
        | some method =>
          by_cases hnodup : ((appendStruct method).map Member.name).Nodup
          · apply (heapDeserializeMethod_agrees hnodup ih cursor next).bind
            rintro ⟨obj, after, upper⟩ ⟨tl, rest⟩ ⟨hcursor, hvectors⟩
            exact Simulates.some ⟨hcursor, rfl, hvectors⟩
          · have hnone : heapDeserializeMethod model (heapDeserializeFuel model table fuel) method
                cursor next = none := if_neg hnodup
            simp only [hnone, Option.bind_none]
            exact simulates_none _

theorem lengthsAccepted_iff {tl : Option TlObj} {rest : Cursor}
    (htl : tlDeserializeFuel model table fuel cursor = some (tl, rest)) :
    LengthsAccepted model table fuel cursor ↔ (Field.object tl).LengthsFit := by
  unfold LengthsAccepted
  rw [htl]
  cases tl with
  | none => exact iff_of_true nofun trivial
  | some tl =>
    constructor
    · exact fun h ↦ h tl rest rfl
    · rintro h _ _ ⟨⟩
      exact h

instance decidableLengthsAccepted (model : DataModel) (table : List Method) (fuel : ℕ)
    (cursor : Cursor) : Decidable (LengthsAccepted model table fuel cursor) :=
  match htl : tlDeserializeFuel model table fuel cursor with
  | none => .isTrue fun _ _ heq ↦ by rw [htl] at heq; cases heq
  | some (tl, _) => @decidable_of_iff' _ _ (lengthsAccepted_iff htl)
      (Field.decideLengthsFit (.object tl))

/-- The vectors in an object, at any depth, are sound exactly if no length of a vector in its bytes is
refused. -/
theorem vectorsOk_iff {obj : HeapObj} {after : Cursor × ℕ}
    (h : heapDeserializeFuel model table fuel cursor next = some (some obj, after)) :
    obj.VectorsOk ↔ LengthsAccepted model table fuel cursor := by
  rw [HeapObj.vectorsOk_iff_fields]
  obtain ⟨⟨tl, rest⟩, htl, hagrees⟩ := readersAgree model table fuel cursor next _ h
  rw [lengthsAccepted_iff htl]
  exact hagrees.vectors

/-- A container of one message has an array with one element. -/
theorem oneMessage_vectorsOk : ∃ obj after,
    heapDeserializeFuel .lp64 [containerMethod] 1 (containerCursor 1) 0 = some (some obj, after) ∧
      obj.VectorsOk := by
  have hsome : ((heapDeserializeFuel .lp64 [containerMethod] 1 (containerCursor 1) 0).bind
      Prod.fst).isSome = true := by decide +kernel
  obtain ⟨obj, hobj⟩ := Option.isSome_iff_exists.mp hsome
  obtain ⟨⟨_, after⟩, hread, rfl⟩ := Option.bind_eq_some_iff.mp hobj
  exact ⟨obj, after, hread, (vectorsOk_iff hread).mpr (by decide +kernel)⟩

/-- `msg_container` with a length of 10001 and nothing behind it. -/
def refusedCursor : Cursor := cursorAt (le32 0x73f1f8dc ++ le32 10001) [0] 0

/-- A loop over the messages of a container reads elements that have been assigned. -/
def HeapObj.messagesInside (obj : HeapObj) : Bool :=
  ((obj.memory containerMethod).get "messages_len".toList).all fun count ↦
    ((obj.memory containerMethod).get "messages_".toList).all fun array ↦
      (visitArray count.length array).isSome

/-- The length stands there without an array, and a loop by it reads through `NULL`. -/
theorem refusedContainer_not_vectorsOk : ∃ obj after,
    heapDeserializeFuel .lp64 [containerMethod] 1 refusedCursor 0 = some (some obj, after) ∧
      ¬ obj.VectorsOk ∧ obj.messagesInside = false := by
  have hsome : ((heapDeserializeFuel .lp64 [containerMethod] 1 refusedCursor 0).bind
      Prod.fst).any (fun obj ↦ !obj.messagesInside) = true := by decide +kernel
  rw [Option.any_eq_true] at hsome
  obtain ⟨obj, hobj, hinside⟩ := hsome
  rw [Bool.not_eq_true'] at hinside
  obtain ⟨⟨_, after⟩, hread, rfl⟩ := Option.bind_eq_some_iff.mp hobj
  have hrefused : ¬ LengthsAccepted .lp64 [containerMethod] 1 refusedCursor := by decide +kernel
  exact ⟨obj, after, hread, mt (vectorsOk_iff hread).mp hrefused, hinside⟩

end Table

end LibTg.Tl
