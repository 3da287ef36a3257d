import LibTg.Tl.HeapObject

/-!
# Who releases what the decoders allocate

The emitted functions of one constructor are compared with `deserializeMethod`, which reads the same
bytes and has no heap. Both go on or fail alike, argument by argument, and what the decoder leaves for
an argument is described by a `Holding`: the blocks that the destructor releases, and the bodies of
messages in a vector, which it forgets. `emitters_agree_iff` puts this together.
-/

namespace LibTg.Tl

/-! ## The promise -/

/-- The member still has the value that `NEW` gave it. -/
def HeapValue.isZero : HeapValue → Bool
  | .zero => true
  | _ => false

/-- Every member for an argument has been assigned. A vector without elements has no array. -/
def MembersAssigned (memory : Memory) (arg : Arg) : Prop :=
  ∀ member ∈ appendStructArg arg, ∀ value ∈ memory.get member.name, value.isZero = true →
    arg.isVector = true ∧ member.name = memberName arg ∧
      memory.get (declaredLen (memberName arg)) = some (.word 0)

/-- Every member for an argument is assigned when its flag is set. -/
def ArgAssigned (memory : Memory) (flags : List UInt32) (arg : Arg) : Prop :=
  flagTest flags arg.flagn arg.flagb = some true → MembersAssigned memory arg

mutual

/-- In an object and all objects inside, the members are assigned whose flags are set. -/
def HeapObj.Assigned : HeapObj → Prop
  | .mk _ method flags values =>
    (∀ arg ∈ method.args,
      ArgAssigned (((appendStruct method).map Member.name).zip values) flags arg) ∧
      HeapValue.AllAssigned values

/-- In all objects inside a value, the members are assigned whose flags are set. -/
def HeapValue.Assigned : HeapValue → Prop
  | .pointer (some obj) => obj.Assigned
  | .array _ elems => HeapValue.AllAssigned elems
  | _ => True

/-- In all objects inside several values, the members are assigned whose flags are set. -/
def HeapValue.AllAssigned : List HeapValue → Prop
  | [] => True
  | value :: rest => value.Assigned ∧ HeapValue.AllAssigned rest

end

mutual

/-- Every vector in an object has a length from 0 to 10000. -/
def TlObj.LengthsFit : TlObj → Prop
  | .mk _ _ fields => Field.AllLengthsFit fields

/-- Every vector in a field has a length from 0 to 10000. -/
def Field.LengthsFit : Field → Prop
  | .object (some tl) => tl.LengthsFit
  | .vector len elems => (0 ≤ intOfUi32 len ∧ intOfUi32 len ≤ 10000) ∧ Field.AllLengthsFit elems
  | _ => True

/-- Every vector in several fields has a length from 0 to 10000. -/
def Field.AllLengthsFit : List Field → Prop
  | [] => True
  | field :: rest => field.LengthsFit ∧ Field.AllLengthsFit rest

end

mutual

def TlObj.messageCount : TlObj → ℕ
  | .mk _ _ fields => Field.messageCounts fields

def Field.messageCount : Field → ℕ
  | .message _ => 1
  | .object (some tl) => tl.messageCount
  | .vector _ elems => Field.messageCounts elems
  | _ => 0

def Field.messageCounts : List Field → ℕ
  | [] => 0
  | field :: rest => field.messageCount + Field.messageCounts rest

end

/-- All vectors in an object have lengths that are accepted, and there is no message in them. -/
structure TlObj.Fits (tl : TlObj) : Prop where
  lengths : tl.LengthsFit
  messages : tl.messageCount = 0

mutual

/-- Whether the lengths in an object fit. -/
def TlObj.decideLengthsFit : (tl : TlObj) → Decidable tl.LengthsFit
  | .mk _ _ fields => Field.decideAllLengthsFit fields

/-- Whether the lengths in a field fit. -/
def Field.decideLengthsFit : (field : Field) → Decidable field.LengthsFit
  | .object (some tl) => tl.decideLengthsFit
  | .vector _ elems => @instDecidableAnd _ _ _ (Field.decideAllLengthsFit elems)
  | .object Option.none => .isTrue trivial
  | .none => .isTrue trivial
  | .int _ => .isTrue trivial
  | .long _ => .isTrue trivial
  | .double _ => .isTrue trivial
  | .bool _ => .isTrue trivial
  | .buf _ => .isTrue trivial
  | .message _ => .isTrue trivial

/-- Whether the lengths in several fields fit. -/
def Field.decideAllLengthsFit : (fields : List Field) → Decidable (Field.AllLengthsFit fields)
  | [] => .isTrue trivial
  | field :: rest => @instDecidableAnd _ _ field.decideLengthsFit (Field.decideAllLengthsFit rest)

end

instance decidableFits (tl : TlObj) : Decidable tl.Fits :=
  @decidable_of_iff _ (tl.LengthsFit ∧ tl.messageCount = 0) ⟨fun h ↦ ⟨h.1, h.2⟩, fun h ↦ ⟨h.1, h.2⟩⟩
    (@instDecidableAnd _ _ tl.decideLengthsFit _)

/-! ## Blocks that are forgotten -/

mutual

/-- The bodies of the messages in an object. -/
def HeapObj.lost : HeapObj → List ℕ
  | .mk _ _ _ values => HeapValue.lostAll values

/-- The bodies of the messages in a value. -/
def HeapValue.lost : HeapValue → List ℕ
  | .message _ block => [block]
  | .pointer (some obj) => obj.lost
  | .array _ elems => HeapValue.lostAll elems
  | _ => []

/-- The bodies of the messages in several values. -/
def HeapValue.lostAll : List HeapValue → List ℕ
  | [] => []
  | value :: rest => value.lost ++ HeapValue.lostAll rest

end

theorem ownedAll_append (first second : List HeapValue) :
    HeapValue.ownedAll (first ++ second) =
      HeapValue.ownedAll first ++ HeapValue.ownedAll second := by
  induction first with
  | nil => rfl
  | cons value rest ih =>
    rw [List.cons_append, HeapValue.ownedAll, HeapValue.ownedAll, ih, List.append_assoc]

theorem lostAll_append (first second : List HeapValue) :
    HeapValue.lostAll (first ++ second) = HeapValue.lostAll first ++ HeapValue.lostAll second := by
  induction first with
  | nil => rfl
  | cons value rest ih =>
    rw [List.cons_append, HeapValue.lostAll, HeapValue.lostAll, ih, List.append_assoc]

theorem allAssigned_append (first second : List HeapValue) :
    HeapValue.AllAssigned (first ++ second) ↔
      HeapValue.AllAssigned first ∧ HeapValue.AllAssigned second := by
  induction first with
  | nil => exact iff_of_eq (true_and _).symm
  | cons value rest ih =>
    rw [List.cons_append, HeapValue.AllAssigned, HeapValue.AllAssigned, ih, and_assoc]

/-! ## Names -/

namespace Memory

variable {memory before cells rest : Memory} {name : List Char} {value : HeapValue}

theorem get_append_left (hmem : name ∈ cells.map Prod.fst) :
    (cells ++ rest).get name = cells.get name := by
  rw [get, get, List.lookup_append]
  apply Option.or_of_isSome
  rw [List.lookup_isSome_iff]
  obtain ⟨cell, hcell, hname⟩ := List.mem_map.mp hmem
  exact ⟨cell, hcell, beq_iff_eq.mpr hname.symm⟩

theorem get_append_right (hnot : name ∉ cells.map Prod.fst) :
    (cells ++ rest).get name = rest.get name := by
  have hnone : cells.lookup name = none := by
    rw [List.lookup_eq_none_iff]
    intro cell hcell
    rw [bne_iff_ne]
    exact fun heq ↦ hnot (heq ▸ List.mem_map_of_mem hcell)
  rw [get, get, List.lookup_append, hnone, Option.none_or]

theorem set_of_notMem (hnot : name ∉ cells.map Prod.fst) :
    (cells.map fun cell ↦ if cell.1 = name then (name, value) else cell) = cells := by
  conv_rhs => rw [← List.map_id cells]
  apply List.map_congr_left
  intro cell hcell
  have hne : cell.1 ≠ name := fun heq ↦ hnot (heq ▸ List.mem_map_of_mem hcell)
  rw [if_neg hne]
  rfl

/-- An assignment to a member in the middle. -/
theorem set_middle (hbefore : name ∉ before.map Prod.fst) (hrest : name ∉ rest.map Prod.fst) :
    (before ++ cells ++ rest).set name value =
      (cells.set name value).map fun changed ↦ before ++ changed ++ rest := by
  have hmem : name ∈ (before ++ cells ++ rest).map Prod.fst ↔ name ∈ cells.map Prod.fst := by
    rw [List.map_append, List.map_append, List.mem_append, List.mem_append]
    tauto
  unfold set
  by_cases hname : name ∈ cells.map Prod.fst
  · rw [if_pos hname, if_pos (hmem.mpr hname), List.map_append, List.map_append,
      set_of_notMem hbefore, set_of_notMem hrest, Option.map_some]
  · rw [if_neg hname, if_neg (mt hmem.mp hname), Option.map_none]

end Memory

/-! ## Two decoders side by side -/

section Rel

variable {First Second First' Second' : Type*} {relation : First → Second → Prop}
  {relation' : First' → Second' → Prop}

theorem rel_bind {first : Option First} {second : Option Second} {next : First → Option First'}
    {next' : Second → Option Second'} (h : Option.Rel relation first second)
    (hnext : ∀ value other, relation value other → Option.Rel relation' (next value) (next' other)) :
    Option.Rel relation' (first.bind next) (second.bind next') := by
  cases h with
  | none => exact .none
  | some hvalue => exact hnext _ _ hvalue

theorem rel_bind_left {first : Option First} {second : Option Second}
    {next : First → Option First'} {relation' : First' → Second → Prop}
    (h : Option.Rel relation first second)
    (hnext : ∀ value other, relation value other → ∃ result, next value = some result ∧
      relation' result other) :
    Option.Rel relation' (first.bind next) second := by
  cases h with
  | none => exact .none
  | some hvalue =>
    obtain ⟨result, hresult, hrelation⟩ := hnext _ _ hvalue
    rw [Option.bind_some, hresult]
    exact .some hrelation

theorem rel_map {first : Option First} {second : Option Second} {next : First → First'}
    {next' : Second → Second'} (h : Option.Rel relation first second)
    (hnext : ∀ value other, relation value other → relation' (next value) (next' other)) :
    Option.Rel relation' (first.map next) (second.map next') := by
  cases h with
  | none => exact .none
  | some hvalue => exact .some (hnext _ _ hvalue)

theorem rel_self (result : Option First) : Option.Rel Eq result result := by
  cases result with
  | none => exact .none
  | some value => exact .some rfl

end Rel

/-- A holding whose members are assigned exactly if the lengths fit, and which loses as many blocks as
there are messages. -/
structure Mirrors (holding : Holding) (lower upper : ℕ) (assigned fits : Prop) (messages : ℕ) :
    Prop where
  settled : holding.Settled lower upper fits
  assigned : assigned ↔ fits
  messages : holding.lost.length = messages

theorem mirrors_empty {lower upper : ℕ} (hle : lower ≤ upper) {assigned fits : Prop}
    (hassigned : assigned ↔ fits) : Mirrors Holding.empty lower upper assigned fits 0 where
  settled := Holding.settled_empty hle
  assigned := hassigned
  messages := rfl

theorem Mirrors.append {first second : Holding} {lower middle upper messages messages' : ℕ}
    {assigned assigned' fits fits' : Prop} (hfirst : Mirrors first lower middle assigned fits messages)
    (hsecond : Mirrors second middle upper assigned' fits' messages') :
    Mirrors (first.append second) lower upper (assigned ∧ assigned') (fits ∧ fits')
      (messages + messages') where
  settled := hfirst.settled.append hsecond.settled
  assigned := and_congr hfirst.assigned hsecond.assigned
  messages := by
    change (first.lost ++ second.lost).length = _
    rw [List.length_append, hfirst.messages, hsecond.messages]

section Readers

variable {model : DataModel} {readHeap : HeapReader} {readObject : ObjectReader}
  {tlFree : HeapObj → Option (List ℕ)}

def valueHolding (tlFree : HeapObj → Option (List ℕ)) (call : Option FreeCall) (value : HeapValue) :
    Holding :=
  ⟨value.owned, value.lost, freeValue tlFree call value⟩

/-- Two readers have stopped at the same place, one with a value in the heap. -/
structure ValueMirrors (tlFree : HeapObj → Option (List ℕ)) (call : Option FreeCall) (lower : ℕ)
    (heap : HeapValue × Cursor × ℕ) (plain : Field × Cursor) : Prop where
  cursor : heap.2.1 = plain.2
  isZero : heap.1.isZero = false
  mirrors : Mirrors (valueHolding tlFree call heap.1) lower heap.2.2 heap.1.Assigned
    plain.1.LengthsFit plain.1.messageCount

/-- `tl_deserialize` with a heap and without one. -/
def ReadersMirror (readHeap : HeapReader) (readObject : ObjectReader)
    (tlFree : HeapObj → Option (List ℕ)) : Prop :=
  ∀ cursor next, Option.Rel (fun heap plain ↦ ValueMirrors tlFree (some .tlFree) next
    (.pointer heap.1, heap.2) (.object plain.1, plain.2)) (readHeap cursor next) (readObject cursor)

/-- A value without a block. -/
theorem valueMirrors_plain {call : Option FreeCall} {value : HeapValue} {field : Field}
    {cursor : Cursor} {next : ℕ} (hzero : value.isZero = false)
    (hholding : valueHolding tlFree call value = Holding.empty)
    (hassigned : value.Assigned ↔ field.LengthsFit) (hmessages : field.messageCount = 0) :
    ValueMirrors tlFree call next (value, cursor, next) (field, cursor) := by
  refine ⟨rfl, hzero, ?_⟩
  rw [hholding, hmessages]
  exact mirrors_empty le_rfl hassigned

/-- A buffer that is released. -/
theorem valueMirrors_buf {bytes : Bytes} {cursor : Cursor} {next : ℕ} :
    ValueMirrors tlFree (some .bufFree) next (.buf next bytes, cursor, next + 1)
      (.buf bytes, cursor) :=
  ⟨rfl, rfl, Holding.settled_released next, Iff.rfl, rfl⟩

/-- The body of a message, which is not. -/
theorem valueMirrors_message {message : MtpMessage} {cursor : Cursor} {next : ℕ} :
    ValueMirrors tlFree none next (.message message next, cursor, next + 1)
      (.message message, cursor) :=
  ⟨rfl, rfl, Holding.settled_lost next, Iff.rfl, rfl⟩

/-- One reader, with a heap and without one. -/
theorem rel_reader {Value : Type} {call : Option FreeCall} {next after : ℕ}
    {pack : Value → HeapValue} {field : Value → Field} (result : Option (Value × Cursor))
    (h : ∀ value cursor, ValueMirrors tlFree call next (pack value, cursor, after)
      (field value, cursor)) :
    Option.Rel (ValueMirrors tlFree call next)
      (result.map fun (value, cursor) ↦ (pack value, cursor, after))
      (result.map (Prod.map field id)) := by
  apply rel_map (rel_self result)
  rintro ⟨value, cursor⟩ _ rfl
  exact h value cursor

/-- The two readers of an element of a vector. -/
theorem readValue_elem (hreaders : ReadersMirror readHeap readObject tlFree) {elem : String}
    (helem : elem ∉ ["true", "bool", "int128", "int256"]) (cursor : Cursor) (next : ℕ) :
    Option.Rel (ValueMirrors tlFree (freeCall elem) next)
      (readValue model readHeap (elemReader elem).2 cursor next)
      (deserializeElem model readObject elem cursor) := by
  simp only [List.mem_cons, List.not_mem_nil, or_false, not_or] at helem
  have hplain : freeCall "int" = none ∧ freeCall "long" = none ∧ freeCall "double" = none ∧
      freeCall "%Message" = none := by decide
  have hbuf : freeCall "bytes" = some .bufFree ∧ freeCall "string" = some .bufFree := by decide
  by_cases hbase : elem ∈ baseTypes
  · simp only [baseTypes, List.mem_cons, List.not_mem_nil, or_false] at hbase
    rcases hbase with rfl | rfl | rfl | rfl | rfl | rfl | rfl | rfl | rfl | rfl
    all_goals
      simp only [elemReader, deserializeElem, String.reduceEq, if_false, if_true, or_self, or_true,
        or_false]
    · rw [hbuf.1]
      exact rel_reader _ fun _ _ ↦ valueMirrors_buf
    · rw [hbuf.2]
      exact rel_reader _ fun _ _ ↦ valueMirrors_buf
    · exact absurd rfl helem.1
    · exact absurd rfl helem.2.1
    · rw [hplain.1]
      exact rel_reader _ fun _ _ ↦ valueMirrors_plain rfl rfl Iff.rfl rfl
    · rw [hplain.2.1]
      exact rel_reader _ fun _ _ ↦ valueMirrors_plain rfl rfl Iff.rfl rfl
    · exact absurd rfl helem.2.2.1
    · exact absurd rfl helem.2.2.2
    · rw [hplain.2.2.2]
      have hmessage (message : MtpMessage) (cursor : Cursor) :
          ValueMirrors tlFree none next (.message message next, cursor, next + 1)
            (.message message, cursor) := valueMirrors_message
      exact rel_reader _ hmessage
    · rw [hplain.2.2.1]
      exact rel_reader _ fun _ _ ↦ valueMirrors_plain rfl rfl Iff.rfl rfl
  · have hcall : freeCall elem = some .tlFree := if_pos hbase
    simp only [baseTypes, List.mem_cons, List.not_mem_nil, or_false, not_or] at hbase
    simp only [elemReader, deserializeElem, hbase, if_false, or_self]
    rw [hcall]
    exact rel_map (hreaders cursor next) fun _ _ h ↦ h

/-- Values that are read one after the other. -/
def ValuesMirror (tlFree : HeapObj → Option (List ℕ)) (call : Option FreeCall) (lower count : ℕ)
    (heap : List HeapValue × Cursor × ℕ) (plain : List Field × Cursor) : Prop :=
  heap.2.1 = plain.2 ∧ heap.1.length = count ∧
    Mirrors ⟨HeapValue.ownedAll heap.1, HeapValue.lostAll heap.1, freeAll tlFree call heap.1⟩ lower
      heap.2.2 (HeapValue.AllAssigned heap.1) (Field.AllLengthsFit plain.1)
      (Field.messageCounts plain.1)

/-- The two loops over the elements of a vector. -/
theorem readValues_elems (hreaders : ReadersMirror readHeap readObject tlFree) {elem : String}
    (helem : elem ∉ ["true", "bool", "int128", "int256"]) (count : ℕ) (cursor : Cursor) (next : ℕ) :
    Option.Rel (ValuesMirror tlFree (freeCall elem) next count)
      (readValues model readHeap (elemReader elem).2 count cursor next)
      (deserializeElems model readObject elem count cursor) := by
  induction count generalizing cursor next with
  | zero => exact .some ⟨rfl, rfl, mirrors_empty le_rfl Iff.rfl⟩
  | succ count ih =>
    apply rel_bind (readValue_elem hreaders helem cursor next)
    rintro ⟨first, middle, after⟩ ⟨field, _⟩ ⟨rfl, -, hfirst⟩
    apply rel_bind (ih middle after)
    rintro ⟨rest, last, upper⟩ ⟨fields, _⟩ ⟨rfl, hlength, hrest⟩
    exact .some ⟨rfl, congrArg Nat.succ hlength, hfirst.append hrest⟩

/-! ## The members for an argument -/

/-- The members for an argument in a new struct. -/
def newCells (arg : Arg) : Memory := (appendStructArg arg).map fun member ↦ (member.name, .zero)

/-- What the members for an argument hold. -/
def cellsHolding (tlFree : HeapObj → Option (List ℕ)) (arg : Arg) (cells : Memory) : Holding :=
  ⟨HeapValue.ownedAll (cells.map Prod.snd), HeapValue.lostAll (cells.map Prod.snd),
    runFreeStmts tlFree cells (appendFreeArg arg)⟩

/-- The members for an argument, which are all assigned. -/
def CellsMirror (tlFree : HeapObj → Option (List ℕ)) (arg : Arg) (lower upper : ℕ) (cells : Memory)
    (field : Field) : Prop :=
  cells.map Prod.fst = argNames arg ∧
    Mirrors (cellsHolding tlFree arg cells) lower upper
      (MembersAssigned cells arg ∧ HeapValue.AllAssigned (cells.map Prod.snd)) field.LengthsFit
      field.messageCount

theorem runFreeStmts_singleton (memory : Memory) (stmt : FreeStmt) :
    runFreeStmts tlFree memory [stmt] = runFreeStmt tlFree memory stmt :=
  Holding.releaseBoth_nil _

theorem appendFreeArg_scalar {arg : Arg} {type : String} (htype : arg.type = some type)
    (hvector : vectorElem type = none) (hmessage : type ≠ "%Message")
    (hshort : arg.name.toList.length < 60) :
    appendFreeArg arg = ((freeCall type).map (.call · (arg.name.toList ++ ['_']))).toList := by
  rw [appendFreeArg, isFlags_of_type htype, htype, memberName_eq hshort]
  simp only [Option.getD_some, hvector, Bool.false_eq_true, hmessage, if_false]

theorem appendFreeArg_vector {arg : Arg} {type elem : String} (htype : arg.type = some type)
    (hvector : vectorElem type = some elem) (hshort : arg.name.toList.length < 60) :
    appendFreeArg arg = [.vector (arg.name.toList ++ "_len".toList) (arg.name.toList ++ ['_'])
      (freeCall elem)] := by
  rw [appendFreeArg, isFlags_of_type htype, htype, memberName_eq hshort]
  simp only [Option.getD_some, hvector, Bool.false_eq_true, if_false]
  rw [List.append_assoc]
  rfl

/-- The member for a value that is not a vector holds what the value does. -/
theorem cellsHolding_scalar {arg : Arg} {type : String} (htype : arg.type = some type)
    (hvector : vectorElem type = none) (hmessage : type ≠ "%Message")
    (hshort : arg.name.toList.length < 60) (value : HeapValue) :
    cellsHolding tlFree arg [(arg.name.toList ++ ['_'], value)] =
      valueHolding tlFree (freeCall type) value := by
  have hfree : runFreeStmts tlFree [(arg.name.toList ++ ['_'], value)] (appendFreeArg arg) =
      freeValue tlFree (freeCall type) value := by
    rw [appendFreeArg_scalar htype hvector hmessage hshort]
    cases freeCall type with
    | none => rfl
    | some call =>
      rw [Option.map_some, Option.toList_some, runFreeStmts_singleton, runFreeStmt, Memory.get,
        List.lookup_cons_self, Option.bind_some]
      rfl
  rw [cellsHolding, hfree, List.map_singleton, HeapValue.ownedAll, HeapValue.lostAll,
    HeapValue.ownedAll, HeapValue.lostAll, List.append_nil, List.append_nil]
  rfl

/-- The member for a value that is not a vector. -/
theorem cellsMirror_scalar {arg : Arg} {type : String} (htype : arg.type = some type)
    (hvector : vectorElem type = none) (hmessage : type ≠ "%Message")
    (hshort : arg.name.toList.length < 60) {lower : ℕ} {heap : HeapValue × Cursor × ℕ}
    {plain : Field × Cursor} (h : ValueMirrors tlFree (freeCall type) lower heap plain) :
    CellsMirror tlFree arg lower heap.2.2 [(arg.name.toList ++ ['_'], heap.1)] plain.1 := by
  refine ⟨?_, ?_⟩
  · rw [argNames, isFlags_of_type htype, isVector_of_type htype, hvector]
    rfl
  · have hmembers : MembersAssigned [(arg.name.toList ++ ['_'], heap.1)] arg := by
      intro member hmember value hvalue hzero
      rw [appendStructArg_scalar htype hvector hshort, List.mem_singleton] at hmember
      rw [hmember, Memory.get, List.lookup_cons_self, Option.mem_some_iff] at hvalue
      rw [← hvalue, h.isZero] at hzero
      cases hzero
    rw [cellsHolding_scalar htype hvector hmessage hshort]
    refine ⟨h.mirrors.settled, ?_, h.mirrors.messages⟩
    rw [List.map_singleton, HeapValue.AllAssigned, HeapValue.AllAssigned, and_true,
      and_iff_right hmembers]
    exact h.mirrors.assigned

theorem freeAll_none (elems : List HeapValue) : freeAll tlFree none elems = some [] := by
  induction elems with
  | nil => rfl
  | cons value rest ih =>
    rw [freeAll, ih]
    rfl

/-- A length that is not negative. -/
theorem intOfUi32_eq_toNat {count : UInt32} (hcount : 0 ≤ intOfUi32 count) :
    intOfUi32 count = count.toNat := by
  by_cases hlt : count.toNat < 2 ^ 31
  · exact intOfUi32_of_lt hlt
  · have hnegative := intOfUi32_of_ge (not_lt.mp hlt)
    have hsmall := count.toNat_lt
    omega

/-- The loop releases every element of an array with as many elements as its length says. -/
theorem freeLoop_array {call : Option FreeCall} {count : UInt32} {block : ℕ}
    {elems : List HeapValue} (hcount : 0 ≤ intOfUi32 count) (hlength : elems.length = count.toNat) :
    freeLoop tlFree call (HeapValue.word count).length (.array block elems) =
      freeAll tlFree call elems := by
  have hvalue : (HeapValue.word count).length = count.toNat := intOfUi32_eq_toNat hcount
  rw [freeLoop, hvalue]
  split
  case isTrue h =>
    rcases h with rfl | hzero
    · exact (freeAll_none elems).symm
    · have hnil : elems = [] := List.length_eq_zero_iff.mp (by omega)
      rw [hnil]
      rfl
  case isFalse => rw [if_pos (by rw [hlength]), Int.toNat_natCast, ← hlength, List.take_length]

section Vector

variable {arg : Arg} {type elem : String} (htype : arg.type = some type)
  (hvector : vectorElem type = some elem) (hshort : arg.name.toList.length < 53)

include htype hvector hshort

theorem appendStructArg_short :
    appendStructArg arg = [⟨arg.name.toList ++ ['_'], .pointer (structType elem)⟩,
      ⟨arg.name.toList ++ "_len".toList, .int⟩] := by
  rw [appendStructArg_vector htype hvector (by omega), declaredLen_eq hshort]

omit hshort in
theorem argNames_vector :
    argNames arg = [arg.name.toList ++ ['_'], arg.name.toList ++ "_len".toList] := by
  rw [argNames, isFlags_of_type htype, isVector_of_type htype, hvector]
  rfl

omit htype hvector hshort in
theorem get_vector (arg : Arg) (array count : HeapValue) :
    Memory.get [(arg.name.toList ++ ['_'], array), (arg.name.toList ++ "_len".toList, count)]
        (arg.name.toList ++ ['_']) = some array ∧
      Memory.get [(arg.name.toList ++ ['_'], array), (arg.name.toList ++ "_len".toList, count)]
        (arg.name.toList ++ "_len".toList) = some count := by
  refine ⟨List.lookup_cons_self, ?_⟩
  have hne : (arg.name.toList ++ "_len".toList == arg.name.toList ++ ['_']) = false := by
    rw [beq_eq_false_iff_ne]
    intro heq
    have hlast := congrArg List.getLast? heq
    rw [getLast?_member, getLast?_len] at hlast
    cases hlast
  rw [Memory.get, List.lookup_cons, hne]
  exact List.lookup_cons_self

/-- The destructor of a vector. -/
theorem free_vector (array count : HeapValue) :
    runFreeStmts tlFree
        [(arg.name.toList ++ ['_'], array), (arg.name.toList ++ "_len".toList, count)]
        (appendFreeArg arg) =
      Holding.releaseBoth (freeLoop tlFree (freeCall elem) count.length array) (freeArray array) := by
  obtain ⟨harray, hcount⟩ := get_vector arg array count
  rw [appendFreeArg_vector htype hvector (by omega), runFreeStmts_singleton, runFreeStmt, hcount,
    harray, Option.bind_some, Option.bind_some]

/-- The members for a vector are assigned if there is an array or the length is zero. -/
theorem membersAssigned_vector (array : HeapValue) (count : UInt32) :
    MembersAssigned [(arg.name.toList ++ ['_'], array), (arg.name.toList ++ "_len".toList,
      .word count)] arg ↔ (array.isZero = true → count = 0) := by
  obtain ⟨harray, hcount⟩ := get_vector arg array (.word count)
  have hlen : declaredLen (memberName arg) = arg.name.toList ++ "_len".toList := by
    rw [memberName_eq (by omega), declaredLen_eq hshort]
  constructor
  · intro hassigned hzero
    have hmember := hassigned ⟨arg.name.toList ++ ['_'], .pointer (structType elem)⟩
      (by rw [appendStructArg_short htype hvector hshort]; exact List.mem_cons_self) array harray hzero
    have hword := hmember.2.2
    rw [hlen, hcount, Option.some.injEq, HeapValue.word.injEq] at hword
    exact hword
  · intro himp member hmember value hvalue hzero
    rw [appendStructArg_short htype hvector hshort, List.mem_cons, List.mem_singleton] at hmember
    rcases hmember with rfl | rfl
    · rw [harray, Option.mem_some_iff] at hvalue
      refine ⟨?_, (memberName_eq (by omega)).symm, ?_⟩
      · rw [isVector_of_type htype, hvector]
        rfl
      · rw [hlen, hcount, himp (hvalue ▸ hzero)]
    · rw [hcount, Option.mem_some_iff] at hvalue
      rw [← hvalue] at hzero
      cases hzero

omit htype hvector hshort in
theorem allAssigned_vector (names : List Char × List Char) (array : HeapValue) (count : UInt32) :
    HeapValue.AllAssigned
        (List.map Prod.snd [(names.1, array), (names.2, HeapValue.word count)]) ↔
      array.Assigned := by
  simp only [List.map_cons, List.map_nil, HeapValue.AllAssigned, HeapValue.Assigned, and_true]

/-- The members for an empty vector. -/
theorem cellsMirror_nil (next : ℕ) :
    CellsMirror tlFree arg next next
      [(arg.name.toList ++ ['_'], .zero), (arg.name.toList ++ "_len".toList, .word 0)]
      (.vector 0 []) := by
  refine ⟨(argNames_vector htype hvector).symm, ?_⟩
  have hzero : intOfUi32 0 = 0 := by decide +kernel
  have hholding : cellsHolding tlFree arg
      [(arg.name.toList ++ ['_'], .zero), (arg.name.toList ++ "_len".toList, .word 0)] =
        Holding.empty := by
    have hloop : freeLoop tlFree (freeCall elem) (HeapValue.word 0).length .zero = some [] :=
      if_pos (.inr hzero.le)
    rw [cellsHolding, free_vector htype hvector hshort, hloop]
    rfl
  rw [hholding]
  apply mirrors_empty le_rfl
  rw [membersAssigned_vector htype hvector hshort, allAssigned_vector (_, _), Field.LengthsFit,
    Field.AllLengthsFit, HeapValue.Assigned]
  · exact iff_of_true ⟨fun _ ↦ rfl, trivial⟩ ⟨by omega, trivial⟩
  · exact nofun
  · exact nofun

/-- The members for a vector with elements. -/
theorem cellsMirror_array {count : UInt32} {lower upper : ℕ} {elems : List HeapValue}
    {fields : List Field} {cursor cursor' : Cursor}
    (hcount : 0 ≤ intOfUi32 count ∧ intOfUi32 count ≤ 10000)
    (helems : ValuesMirror tlFree (freeCall elem) (lower + 1) count.toNat (elems, cursor, upper)
      (fields, cursor')) :
    CellsMirror tlFree arg lower upper
      [(arg.name.toList ++ ['_'], .array lower elems),
        (arg.name.toList ++ "_len".toList, .word count)] (.vector count fields) := by
  obtain ⟨-, hlength, hmirrors⟩ := helems
  refine ⟨(argNames_vector htype hvector).symm, ?_, ?_, ?_⟩
  · have hloop : freeLoop tlFree (freeCall elem) (HeapValue.word count).length (.array lower elems) =
        freeAll tlFree (freeCall elem) elems := freeLoop_array hcount.1 hlength
    have hblock : Holding.Settled ⟨[lower], [], some [lower]⟩ lower (lower + 1) True :=
      Holding.settled_released lower
    have hboth := (hblock.append hmirrors.settled).imp
      fun hfits : (Field.vector count fields).LengthsFit ↦ ⟨trivial, hfits.2⟩
    rw [cellsHolding, free_vector htype hvector hshort, hloop]
    have howned : HeapValue.ownedAll
        (List.map Prod.snd [(arg.name.toList ++ ['_'], HeapValue.array lower elems),
          (arg.name.toList ++ "_len".toList, HeapValue.word count)]) =
        [lower] ++ HeapValue.ownedAll elems := List.append_nil _
    have hlost : HeapValue.lostAll
        (List.map Prod.snd [(arg.name.toList ++ ['_'], HeapValue.array lower elems),
          (arg.name.toList ++ "_len".toList, HeapValue.word count)]) =
        [] ++ HeapValue.lostAll elems := List.append_nil _
    rw [howned, hlost]
    exact hboth.swap.perm List.perm_append_comm List.perm_append_comm
      fun released hreleased ↦ ⟨released, hreleased, List.Perm.refl _⟩
  · rw [membersAssigned_vector htype hvector hshort, allAssigned_vector (_, _), Field.LengthsFit,
      HeapValue.Assigned, hmirrors.assigned]
    exact ⟨fun h ↦ ⟨hcount, h.2⟩, fun h ↦ ⟨nofun, h.2⟩⟩
  · change (HeapValue.lostAll elems ++ []).length = _
    rw [List.append_nil]
    exact hmirrors.messages

end Vector

/-! ## The statements for an argument -/

/-- The members for a vector whose length is refused. -/
structure CellsRefused (arg : Arg) (cells : Memory) (field : Field) : Prop where
  names : cells.map Prod.fst = argNames arg
  owned : HeapValue.ownedAll (cells.map Prod.snd) = []
  lost : HeapValue.lostAll (cells.map Prod.snd) = []
  assigned : ¬ MembersAssigned cells arg
  fits : ¬ field.LengthsFit
  messages : field.messageCount = 0

/-- The statements for an argument have gone on or ended alike. They have changed its members. -/
def EndingMirrors (tlFree : HeapObj → Option (List ℕ)) (arg : Arg) (before rest : Memory)
    (decoding : Decoding) : Ending → Flow → Prop
  | .next after, .next field cursor =>
    after.flags = decoding.flags ∧ after.cursor = cursor ∧
      ∃ cells, after.memory = before ++ cells ++ rest ∧
        CellsMirror tlFree arg decoding.next after.next cells field
  | .stop after, .stop field cursor =>
    after.flags = decoding.flags ∧ after.cursor = cursor ∧ after.next = decoding.next ∧
      ∃ cells, after.memory = before ++ cells ++ rest ∧ CellsRefused arg cells field
  | _, _ => False

/-- A reader for a whole argument. -/
def FlowMirrors (tlFree : HeapObj → Option (List ℕ)) (call : Option FreeCall) (lower : ℕ)
    (heap : HeapValue × Cursor × ℕ) (flow : Flow) : Prop :=
  ∃ plain, flow = .next plain.1 plain.2 ∧ ValueMirrors tlFree call lower heap plain

/-- One reader for an argument, with a heap and without one. -/
theorem rel_flow {Value : Type} {call : Option FreeCall} {next after : ℕ}
    {pack : Value → HeapValue} {field : Value → Field} (result : Option (Value × Cursor))
    (h : ∀ value cursor, ValueMirrors tlFree call next (pack value, cursor, after)
      (field value, cursor)) :
    Option.Rel (FlowMirrors tlFree call next)
      (result.map fun (value, cursor) ↦ (pack value, cursor, after))
      (result.map fun result ↦ Flow.next (field result.1) result.2) := by
  apply rel_map (rel_self result)
  rintro ⟨value, cursor⟩ _ rfl
  exact ⟨(field value, cursor), rfl, h value cursor⟩

variable (model) in
/-- The two readers of an argument that is neither a vector nor a `true`. -/
theorem readValue_scalar (hreaders : ReadersMirror readHeap readObject tlFree) {type : String}
    (htype : type ∉ ["bool", "%Message"]) (hvector : vectorElem type = none)
    (htrue : type ≠ "true") (name : List Char) (cursor : Cursor) (next : ℕ) :
    ∃ reader, assignOf name type = .read (name ++ ['_']) reader ∧
      Option.Rel (FlowMirrors tlFree (freeCall type) next)
        (readValue model readHeap reader cursor next)
        (deserializeValue model readObject type cursor) := by
  simp only [List.mem_cons, List.not_mem_nil, or_false, not_or] at htype
  have hplain : freeCall "int" = none ∧ freeCall "long" = none ∧ freeCall "double" = none := by
    decide
  have hbuf : freeCall "bytes" = some .bufFree ∧ freeCall "string" = some .bufFree ∧
      freeCall "int128" = some .bufFree ∧ freeCall "int256" = some .bufFree := by decide
  by_cases hbase : type ∈ baseTypes
  · simp only [baseTypes, List.mem_cons, List.not_mem_nil, or_false] at hbase
    rcases hbase with rfl | rfl | rfl | rfl | rfl | rfl | rfl | rfl | rfl | rfl
    all_goals
      simp only [assignOf, deserializeValue, String.reduceEq, if_false, if_true, or_self, or_true,
        or_false]
    · rw [hbuf.1]
      exact ⟨_, rfl, rel_flow _ fun _ _ ↦ valueMirrors_buf⟩
    · rw [hbuf.2.1]
      exact ⟨_, rfl, rel_flow _ fun _ _ ↦ valueMirrors_buf⟩
    · exact absurd rfl htrue
    · exact absurd rfl htype.1
    · rw [hplain.1]
      exact ⟨_, rfl, rel_flow _ fun _ _ ↦ valueMirrors_plain rfl rfl Iff.rfl rfl⟩
    · rw [hplain.2.1]
      exact ⟨_, rfl, rel_flow _ fun _ _ ↦ valueMirrors_plain rfl rfl Iff.rfl rfl⟩
    · rw [hbuf.2.2.1]
      exact ⟨_, rfl, rel_flow _ fun _ _ ↦ valueMirrors_buf⟩
    · rw [hbuf.2.2.2]
      exact ⟨_, rfl, rel_flow _ fun _ _ ↦ valueMirrors_buf⟩
    · exact absurd rfl htype.2
    · rw [hplain.2.2]
      exact ⟨_, rfl, rel_flow _ fun _ _ ↦ valueMirrors_plain rfl rfl Iff.rfl rfl⟩
  · have hcall : freeCall type = some .tlFree := if_pos hbase
    simp only [baseTypes, List.mem_cons, List.not_mem_nil, or_false, not_or] at hbase
    simp only [assignOf, deserializeValue, hbase, if_false, or_self, hvector]
    rw [hcall]
    refine ⟨_, rfl, rel_map (hreaders cursor next) fun heap plain h ↦ ?_⟩
    exact ⟨(.object plain.1, plain.2), rfl, h⟩

section Arg

variable {arg : Arg} {type : String} {before rest : Memory} (htype : arg.type = some type)
  (hdescribed : arg.Described) {decoding : Decoding}
  (hmemory : decoding.memory = before ++ newCells arg ++ rest)
  (hfree : ∀ name ∈ argNames arg, name ∉ before.map Prod.fst ∧ name ∉ rest.map Prod.fst)

include htype hdescribed hmemory hfree

/-- An assignment to the only member for an argument. -/
theorem set_scalar (hvector : vectorElem type = none) (value : HeapValue) :
    decoding.memory.set (arg.name.toList ++ ['_']) value =
      some (before ++ [(arg.name.toList ++ ['_'], value)] ++ rest) := by
  have hmem : arg.name.toList ++ ['_'] ∈ argNames arg := by
    rw [argNames, isFlags_of_type htype, isVector_of_type htype, hvector]
    exact List.mem_singleton_self _
  obtain ⟨hbefore, hrest⟩ := hfree _ hmem
  rw [hmemory, newCells, appendStructArg_scalar htype hvector hdescribed.1,
    Memory.set_middle hbefore hrest]
  simp [Memory.set]

/-- The statements for an argument that is not a vector. -/
theorem runAssign_scalar (hreaders : ReadersMirror readHeap readObject tlFree)
    (hvector : vectorElem type = none) :
    Option.Rel (EndingMirrors tlFree arg before rest decoding)
      (runAssign model readHeap (assignOf arg.name.toList type) decoding)
      (deserializeValue model readObject type decoding.cursor) := by
  have htypes := hdescribed.2
  rw [htype] at htypes
  have hmessage : type ≠ "%Message" := by
    rintro rfl
    exact htypes.1 (by decide)
  by_cases htrue : type = "true"
  · have hcall : freeCall type = none := by rw [htrue]; decide
    have hvalue : ValueMirrors tlFree (freeCall type) decoding.next
        (.bool true, decoding.cursor, decoding.next) (.bool true, decoding.cursor) := by
      rw [hcall]
      exact valueMirrors_plain rfl rfl Iff.rfl rfl
    have hassign : assignOf arg.name.toList type = .true (arg.name.toList ++ ['_']) := by
      simp only [assignOf, htrue, String.reduceEq, if_false, if_true]
    have hplain : deserializeValue model readObject type decoding.cursor =
        some (.next (.bool true) decoding.cursor) := by
      simp only [deserializeValue, htrue, String.reduceEq, if_false, if_true]
    rw [hassign, hplain, runAssign, set_scalar htype hdescribed hmemory hfree hvector]
    exact .some ⟨rfl, rfl, _, rfl,
      cellsMirror_scalar htype hvector hmessage hdescribed.1 hvalue⟩
  · obtain ⟨reader, hassign, hread⟩ := readValue_scalar model hreaders htypes.1 hvector
      htrue arg.name.toList decoding.cursor decoding.next
    rw [hassign, runAssign]
    apply rel_bind_left hread
    rintro ⟨value, cursor, next⟩ flow ⟨⟨field, cursor'⟩, rfl, hvalue⟩
    dsimp only
    rw [set_scalar htype hdescribed hmemory hfree hvector]
    exact ⟨_, rfl, rfl, hvalue.cursor, _, rfl,
      cellsMirror_scalar htype hvector hmessage hdescribed.1 hvalue⟩

omit htype hdescribed hmemory hfree in
theorem deserializeValue_vector {elem : String} (hvector : vectorElem type = some elem)
    (cursor : Cursor) :
    deserializeValue model readObject type cursor =
      deserializeVector model readObject elem cursor := by
  have hbase : type ∉ baseTypes := by
    intro hmem
    rw [vectorElem_of_base type hmem] at hvector
    cases hvector
  simp only [baseTypes, List.mem_cons, List.not_mem_nil, or_false, not_or] at hbase
  simp only [deserializeValue, hbase, if_false, or_self, hvector]

omit hdescribed hmemory in
/-- Assignments to the two members for a vector. -/
theorem set_vector {elem : String} (hvector : vectorElem type = some elem) {memory : Memory}
    {array count : HeapValue}
    (hcells : memory = before ++ [(arg.name.toList ++ ['_'], array),
      (arg.name.toList ++ "_len".toList, count)] ++ rest) (value : HeapValue) :
    memory.set (arg.name.toList ++ "_len".toList) value =
        some (before ++ [(arg.name.toList ++ ['_'], array),
          (arg.name.toList ++ "_len".toList, value)] ++ rest) ∧
      memory.set (arg.name.toList ++ ['_']) value =
        some (before ++ [(arg.name.toList ++ ['_'], value),
          (arg.name.toList ++ "_len".toList, count)] ++ rest) := by
  have hnames := argNames_vector htype hvector
  have hne : arg.name.toList ++ ['_'] ≠ arg.name.toList ++ "_len".toList := by
    intro heq
    have hlast := congrArg List.getLast? heq
    rw [getLast?_member, getLast?_len] at hlast
    cases hlast
  obtain ⟨hbefore, hrest⟩ := hfree (arg.name.toList ++ "_len".toList)
    (by rw [hnames]; exact List.mem_cons_of_mem _ (List.mem_singleton_self _))
  obtain ⟨hbefore', hrest'⟩ := hfree (arg.name.toList ++ ['_'])
    (by rw [hnames]; exact List.mem_cons_self)
  constructor
  · rw [hcells, Memory.set_middle hbefore hrest]
    simp only [Memory.set, List.map_cons, List.map_nil, List.mem_cons, or_true, true_or, if_true,
      hne, if_false, Option.map_some]
  · rw [hcells, Memory.set_middle hbefore' hrest']
    simp only [Memory.set, List.map_cons, List.map_nil, List.mem_cons, true_or, if_true,
      hne.symm, if_false, Option.map_some]

/-- The statements for a vector. -/
theorem runAssign_vector (hreaders : ReadersMirror readHeap readObject tlFree) {elem : String}
    (hvector : vectorElem type = some elem) (hshort : arg.name.toList.length < 53) :
    Option.Rel (EndingMirrors tlFree arg before rest decoding)
      (runAssign model readHeap (assignOf arg.name.toList type) decoding)
      (deserializeValue model readObject type decoding.cursor) := by
  have htypes := hdescribed.2
  rw [htype] at htypes
  have hnames := (argNames_vector htype hvector).symm
  rw [assignOf_vector _ hvector, runAssign, deserializeValue_vector hvector, deserializeVector]
  apply rel_bind (rel_self _)
  rintro ⟨count, cursor⟩ _ rfl
  dsimp only
  have hnew : decoding.memory = before ++ [(arg.name.toList ++ ['_'], .zero),
      (arg.name.toList ++ "_len".toList, .zero)] ++ rest := by
    rw [hmemory, newCells, appendStructArg_short htype hvector hshort]
    rfl
  have hlen := (set_vector htype hfree hvector hnew (.word count)).1
  rw [hlen, Option.bind_eq_bind, Option.bind_some]
  by_cases hrefused : intOfUi32 count < 0 ∨ 10000 < intOfUi32 count
  · rw [if_pos hrefused, if_pos hrefused]
    refine .some ⟨rfl, rfl, rfl, _, rfl, hnames, rfl, rfl, ?_, ?_, rfl⟩
    · rw [membersAssigned_vector htype hvector hshort]
      intro hzero
      have hcount : intOfUi32 0 = 0 := by decide +kernel
      rw [hzero rfl, hcount] at hrefused
      omega
    · rw [Field.LengthsFit]
      omega
  · have hcount : 0 ≤ intOfUi32 count ∧ intOfUi32 count ≤ 10000 := by omega
    rw [if_neg hrefused, if_neg hrefused]
    by_cases hzero : count = 0
    · rw [if_pos hzero, hzero]
      exact .some ⟨rfl, rfl, _, rfl, cellsMirror_nil htype hvector hshort _⟩
    · rw [if_neg hzero]
      apply rel_bind (readValues_elems hreaders (htypes.2 elem hvector) _ _ _)
      rintro ⟨elems, middle, upper⟩ ⟨fields, last⟩ helems
      dsimp only
      rw [(set_vector htype hfree hvector rfl _).2, Option.bind_some]
      exact .some ⟨rfl, helems.1, _, rfl,
        cellsMirror_array htype hvector hshort hcount helems⟩

/-- The statements for an argument. -/
theorem runAssign_arg (hreaders : ReadersMirror readHeap readObject tlFree)
    (hshort : arg.isVector = true → arg.name.toList.length < 53) :
    Option.Rel (EndingMirrors tlFree arg before rest decoding)
      (runAssign model readHeap (assignOf arg.name.toList type) decoding)
      (deserializeValue model readObject type decoding.cursor) := by
  cases hvector : vectorElem type with
  | none => exact runAssign_scalar htype hdescribed hmemory hfree hreaders hvector
  | some elem =>
    have hlength := hshort (by rw [isVector_of_type htype, hvector]; rfl)
    exact runAssign_vector htype hdescribed hmemory hfree hreaders hvector hlength

end Arg

end Readers

end LibTg.Tl
