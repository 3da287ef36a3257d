import LibTg.Tl.Ownership

/-!
# Whether the three emitters agree

The statements for the arguments of a constructor follow one another, and each of them touches the
members for its argument only, because no name is declared twice. So the holdings of the arguments add
up to the holding of an object, and objects inside an object are read and released by the same
functions.
-/

namespace LibTg.Tl

section Rel

variable {First Second Second' : Type*} {relation : First → Second → Prop}
  {relation' : First → Second' → Prop}

theorem rel_bind_right {first : Option First} {second : Option Second}
    {next : Second → Option Second'} (h : Option.Rel relation first second)
    (hnext : ∀ value other, relation value other → ∃ result, next other = some result ∧
      relation' value result) :
    Option.Rel relation' first (second.bind next) := by
  cases h with
  | none => exact .none
  | some hvalue =>
    obtain ⟨result, hresult, hrelation⟩ := hnext _ _ hvalue
    rw [Option.bind_some, hresult]
    exact .some hrelation

theorem rel_imp {relation'' : First → Second → Prop} {first : Option First}
    {second : Option Second} (h : Option.Rel relation first second)
    (himp : ∀ value other, relation value other → relation'' value other) :
    Option.Rel relation'' first second := by
  cases h with
  | none => exact .none
  | some hvalue => exact .some (himp _ _ hvalue)

theorem rel_mem {first : Option First} {second : Option Second}
    (h : Option.Rel relation first second) :
    Option.Rel (fun value other ↦ relation value other ∧ second = some other) first second := by
  cases h with
  | none => exact .none
  | some hvalue => exact .some ⟨hvalue, rfl⟩

end Rel

/-! ## One argument among others -/

section Arguments

variable {tlFree : HeapObj → Option (List ℕ)} {arg : Arg} {memory other : Memory}

/-- A vector has a length. -/
theorem exists_declaredLen (hvector : arg.isVector = true) :
    ⟨declaredLen (memberName arg), .int⟩ ∈ appendStructArg arg := by
  obtain ⟨elem, helem⟩ := Option.isSome_iff_exists.mp hvector
  obtain ⟨type, htype, hvector⟩ := Option.bind_eq_some_iff.mp helem
  rw [appendStructArg, isFlags_of_type htype, htype]
  simp only [Option.getD_some, hvector, Bool.false_eq_true, if_false]
  exact List.mem_cons_of_mem _ (List.mem_singleton_self _)

/-- Whether the members for an argument are assigned depends on these members only. -/
theorem MembersAssigned.congr (hnames : (appendStructArg arg).map Member.name = argNames arg)
    (hget : ∀ name ∈ argNames arg, memory.get name = other.get name)
    (h : MembersAssigned memory arg) : MembersAssigned other arg := by
  intro member hmember value hvalue hzero
  have hname : member.name ∈ argNames arg := hnames ▸ List.mem_map_of_mem hmember
  rw [← hget _ hname] at hvalue
  obtain ⟨hvector, harray, hlen⟩ := h member hmember value hvalue hzero
  refine ⟨hvector, harray, ?_⟩
  rw [← hget _ (hnames ▸ List.mem_map_of_mem (exists_declaredLen hvector)), hlen]

theorem runFreeStmts_append (memory : Memory) (first second : List FreeStmt) :
    runFreeStmts tlFree memory (first ++ second) =
      Holding.releaseBoth (runFreeStmts tlFree memory first) (runFreeStmts tlFree memory second) := by
  induction first with
  | nil => exact (Holding.nil_releaseBoth _).symm
  | cons stmt rest ih =>
    rw [List.cons_append, runFreeStmts, runFreeStmts, ih, Holding.releaseBoth_assoc]

/-- What is released for an argument depends on its members only. -/
theorem runFreeStmts_congr (hdescribed : arg.Described)
    (hget : ∀ name ∈ argNames arg, memory.get name = other.get name) :
    runFreeStmts tlFree memory (appendFreeArg arg) =
      runFreeStmts tlFree other (appendFreeArg arg) := by
  have htypes := hdescribed.2
  rcases hdescribed.type_cases with ⟨-, hflags⟩ | ⟨type, htype⟩
  · rw [appendFreeArg, if_pos hflags]
    rfl
  · rw [htype] at htypes
    cases hvector : vectorElem type with
    | none =>
      have hmessage : type ≠ "%Message" := by
        rintro rfl
        exact htypes.1 (by decide)
      have hname := hget (arg.name.toList ++ ['_']) (by
        rw [argNames, isFlags_of_type htype, isVector_of_type htype, hvector]
        exact List.mem_singleton_self _)
      rw [appendFreeArg_scalar htype hvector hmessage hdescribed.1]
      cases freeCall type with
      | none => rfl
      | some call =>
        rw [Option.map_some, Option.toList_some, runFreeStmts_singleton, runFreeStmts_singleton,
          runFreeStmt, runFreeStmt, hname]
    | some elem =>
      rw [argNames_vector htype hvector] at hget
      have harray := hget _ List.mem_cons_self
      have hlen := hget _ (List.mem_cons_of_mem _ (List.mem_singleton_self _))
      rw [appendFreeArg_vector htype hvector hdescribed.1, runFreeStmts_singleton,
        runFreeStmts_singleton, runFreeStmt, runFreeStmt, harray, hlen]

/-- The members for an argument when the decoder has come to its end. -/
def ArgMirror (tlFree : HeapObj → Option (List ℕ)) (arg : Arg) (flags : List UInt32)
    (lower upper : ℕ) (cells : Memory) (field : Field) : Prop :=
  cells.map Prod.fst = argNames arg ∧
    Mirrors (cellsHolding tlFree arg cells) lower upper
      (ArgAssigned cells flags arg ∧ HeapValue.AllAssigned (cells.map Prod.snd)) field.LengthsFit
      field.messageCount

/-- The members for several arguments when the decoder has come to its end. -/
structure ArgsMirror (tlFree : HeapObj → Option (List ℕ)) (args : List Arg) (flags : List UInt32)
    (lower upper : ℕ) (cells : Memory) (fields : List Field) : Prop where
  names : cells.map Prod.fst = args.flatMap argNames
  mirrors : Mirrors
    ⟨HeapValue.ownedAll (cells.map Prod.snd), HeapValue.lostAll (cells.map Prod.snd),
      runFreeStmts tlFree cells (args.flatMap appendFreeArg)⟩ lower upper
    ((∀ arg ∈ args, ArgAssigned cells flags arg) ∧ HeapValue.AllAssigned (cells.map Prod.snd))
    (Field.AllLengthsFit fields) (Field.messageCounts fields)

variable {flags : List UInt32} {lower middle upper : ℕ} {cells first rest : Memory} {field : Field}
  {fields : List Field} {args : List Arg}

theorem ArgAssigned.congr_iff (hnames : (appendStructArg arg).map Member.name = argNames arg)
    (hget : ∀ name ∈ argNames arg, memory.get name = other.get name) :
    ArgAssigned memory flags arg ↔ ArgAssigned other flags arg :=
  ⟨fun h htest ↦ (h htest).congr hnames hget,
    fun h htest ↦ (h htest).congr hnames fun name hname ↦ (hget name hname).symm⟩

/-- Names that are not among the others are found where they are. -/
theorem get_right (hnodup : ((first ++ rest).map Prod.fst).Nodup)
    (hrest : rest.map Prod.fst = args.flatMap argNames) {later : Arg} (hlater : later ∈ args) {name : List Char} (hname : name ∈ argNames later) :
    (first ++ rest).get name = rest.get name := by
  apply Memory.get_append_right
  intro hmem
  rw [List.map_append, List.nodup_append] at hnodup
  have hright : name ∈ rest.map Prod.fst := hrest ▸ List.mem_flatMap.mpr ⟨later, hlater, hname⟩
  exact hnodup.2.2 name hmem name hright rfl

/-- The destructor of several arguments only looks at their members. -/
theorem runFreeStmts_args (hdescribed : ∀ arg ∈ args, arg.Described)
    (hget : ∀ arg ∈ args, ∀ name ∈ argNames arg, memory.get name = other.get name) :
    runFreeStmts tlFree memory (args.flatMap appendFreeArg) =
      runFreeStmts tlFree other (args.flatMap appendFreeArg) := by
  induction args with
  | nil => rfl
  | cons arg rest ih =>
    rw [List.forall_mem_cons] at hdescribed hget
    rw [List.flatMap_cons, runFreeStmts_append, runFreeStmts_append, ih hdescribed.2 hget.2,
      runFreeStmts_congr hdescribed.1 hget.1]

theorem zeroField_fits (arg : Arg) :
    (zeroField arg).LengthsFit ∧ (zeroField arg).messageCount = 0 := by
  have hzero : intOfUi32 0 = 0 := by decide +kernel
  unfold zeroField
  split
  · split <;> exact ⟨trivial, rfl⟩
  · split_ifs
    · exact ⟨trivial, rfl⟩
    · exact ⟨trivial, rfl⟩
    · exact ⟨trivial, rfl⟩
    · exact ⟨trivial, rfl⟩
    · exact ⟨trivial, rfl⟩
    · exact ⟨⟨by omega, trivial⟩, rfl⟩
    · exact ⟨trivial, rfl⟩

/-- Nothing is released for a value that has not been assigned. -/
theorem freeValue_zero (type : String) : freeValue tlFree (freeCall type) .zero = some [] := by
  unfold freeCall
  split_ifs <;> rfl

/-- Nothing is released for an argument that has not been read. -/
theorem cellsHolding_new (hdescribed : arg.Described)
    (hshort : arg.isVector = true → arg.name.toList.length < 53) :
    cellsHolding tlFree arg (newCells arg) = Holding.empty := by
  have htypes := hdescribed.2
  rcases hdescribed.type_cases with ⟨-, hflags⟩ | ⟨type, htype⟩
  · rw [cellsHolding, newCells, appendFreeArg, if_pos hflags, appendStructArg_flags hflags]
    rfl
  · rw [htype] at htypes
    cases hvector : vectorElem type with
    | none =>
      have hmessage : type ≠ "%Message" := by
        rintro rfl
        exact htypes.1 (by decide)
      rw [newCells, appendStructArg_scalar htype hvector hdescribed.1, List.map_singleton,
        cellsHolding_scalar htype hvector hmessage hdescribed.1, valueHolding, freeValue_zero]
      rfl
    | some elem =>
      have hlong := hshort (by rw [isVector_of_type htype, hvector]; rfl)
      have hloop : freeLoop tlFree (freeCall elem) (HeapValue.length .zero) .zero = some [] :=
        if_pos (.inr le_rfl)
      rw [cellsHolding, newCells, appendStructArg_short htype hvector hlong, List.map_cons,
        List.map_singleton, free_vector htype hvector hlong, hloop]
      rfl

/-- One more argument. -/
theorem ArgsMirror.cons (hdescribed : ∀ other ∈ arg :: args, other.Described)
    (hshort : ∀ other ∈ arg :: args, other.isVector = true → other.name.toList.length < 53)
    (hnodup : ((first ++ rest).map Prod.fst).Nodup)
    (hfirst : ArgMirror tlFree arg flags lower middle first field)
    (hrest : ArgsMirror tlFree args flags middle upper rest fields) :
    ArgsMirror tlFree (arg :: args) flags lower upper (first ++ rest) (field :: fields) := by
  rw [List.forall_mem_cons] at hdescribed hshort
  have hleft : ∀ name ∈ argNames arg, (first ++ rest).get name = first.get name :=
    fun name hname ↦ Memory.get_append_left (hfirst.1 ▸ hname)
  have hright : ∀ later ∈ args, ∀ name ∈ argNames later, (first ++ rest).get name = rest.get name :=
    fun later hlater name hname ↦ get_right hnodup hrest.names hlater hname
  have hassigned : (∀ other ∈ arg :: args, ArgAssigned (first ++ rest) flags other) ↔
      ArgAssigned first flags arg ∧ ∀ later ∈ args, ArgAssigned rest flags later := by
    rw [List.forall_mem_cons,
      ArgAssigned.congr_iff (names_appendStructArg hdescribed.1 hshort.1) hleft]
    exact and_congr_right' (forall₂_congr fun later hlater ↦
      ArgAssigned.congr_iff
        (names_appendStructArg (hdescribed.2 later hlater) (hshort.2 later hlater))
        (hright later hlater))
  have hboth := hfirst.2.append hrest.mirrors
  refine ⟨by rw [List.map_append, hfirst.1, hrest.names, List.flatMap_cons], ?_⟩
  rw [hassigned, List.map_append, ownedAll_append, lostAll_append, allAssigned_append,
    List.flatMap_cons, runFreeStmts_append, runFreeStmts_congr hdescribed.1 hleft,
    runFreeStmts_args hdescribed.2 hright]
  refine ⟨hboth.settled, ?_, hboth.messages⟩
  rw [and_and_and_comm]
  exact hboth.assigned

/-- Members that have not been assigned hold nothing. -/
theorem values_of_zero {values : List HeapValue} (hzero : ∀ value ∈ values, value = .zero) :
    HeapValue.ownedAll values = [] ∧ HeapValue.lostAll values = [] ∧
      HeapValue.AllAssigned values := by
  induction values with
  | nil => exact ⟨rfl, rfl, trivial⟩
  | cons value rest ih =>
    rw [List.forall_mem_cons] at hzero
    obtain ⟨howned, hlost, hassigned⟩ := ih hzero.2
    rw [hzero.1, HeapValue.ownedAll, HeapValue.lostAll, HeapValue.AllAssigned, howned, hlost]
    exact ⟨rfl, rfl, trivial, hassigned⟩

theorem values_newCells {value : HeapValue} (hvalue : value ∈ (newCells arg).map Prod.snd) :
    value = .zero := by
  rw [newCells, List.map_map] at hvalue
  obtain ⟨member, -, rfl⟩ := List.mem_map.mp hvalue
  rfl

theorem values_flatMap_newCells {value : HeapValue}
    (hvalue : value ∈ (args.flatMap newCells).map Prod.snd) : value = .zero := by
  obtain ⟨cell, hcell, rfl⟩ := List.mem_map.mp hvalue
  obtain ⟨arg, -, hmem⟩ := List.mem_flatMap.mp hcell
  exact values_newCells (List.mem_map_of_mem hmem)

theorem names_newCells (hdescribed : arg.Described)
    (hshort : arg.isVector = true → arg.name.toList.length < 53) :
    (newCells arg).map Prod.fst = argNames arg := by
  rw [← names_appendStructArg hdescribed hshort, newCells, List.map_map]
  rfl

theorem names_flatMap_newCells (hdescribed : ∀ arg ∈ args, arg.Described)
    (hshort : ∀ arg ∈ args, arg.isVector = true → arg.name.toList.length < 53) :
    (args.flatMap newCells).map Prod.fst = args.flatMap argNames := by
  rw [List.map_flatMap]
  exact List.flatMap_congr fun arg harg ↦ names_newCells (hdescribed arg harg) (hshort arg harg)

/-- An argument whose flag is not set, or a flags word. -/
theorem argMirror_new (hdescribed : arg.Described)
    (hshort : arg.isVector = true → arg.name.toList.length < 53)
    (hassigned : ArgAssigned (newCells arg) flags arg) (next : ℕ) :
    ArgMirror tlFree arg flags next next (newCells arg) (zeroField arg) := by
  obtain ⟨hfits, hmessages⟩ := zeroField_fits arg
  refine ⟨names_newCells hdescribed hshort, ?_⟩
  rw [cellsHolding_new hdescribed hshort, hmessages]
  apply mirrors_empty le_rfl
  exact iff_of_true ⟨hassigned, (values_of_zero fun _ ↦ values_newCells).2.2⟩ hfits

/-- An argument whose flag is set. -/
theorem argMirror_present (h : CellsMirror tlFree arg lower upper cells field)
    (htest : flagTest flags arg.flagn arg.flagb = some true) :
    ArgMirror tlFree arg flags lower upper cells field := by
  refine ⟨h.1, h.2.settled, ?_, h.2.messages⟩
  rw [ArgAssigned, forall_prop_of_true htest]
  exact h.2.assigned

/-- The test of a flag gives the same when more words have been read. -/
theorem flagTest_append {flagn flagb : ℕ} {present : Bool} (more : List UInt32)
    (htest : flagTest flags flagn flagb = some present) :
    flagTest (flags ++ more) flagn flagb = some present := by
  unfold flagTest at htest ⊢
  split at htest
  case isTrue h => rw [if_pos h, htest]
  case isFalse h =>
    rw [if_neg h]
    obtain ⟨word, hword, htest⟩ := Option.map_eq_some_iff.mp htest
    rw [List.getElem?_append_left (List.getElem?_eq_some_iff.mp hword).1, hword, Option.map_some,
      htest]

theorem messageCounts_zeroField (args : List Arg) :
    Field.messageCounts (args.map zeroField) = 0 := by
  induction args with
  | nil => rfl
  | cons arg rest ih => rw [List.map_cons, Field.messageCounts, ih, (zeroField_fits arg).2]

/-- An argument whose vector is refused, and those behind it. -/
theorem ArgsMirror.refused (hdescribed : ∀ other ∈ arg :: args, other.Described)
    (hshort : ∀ other ∈ arg :: args, other.isVector = true → other.name.toList.length < 53)
    (h : CellsRefused arg first field)
    (htest : flagTest flags arg.flagn arg.flagb = some true) (next : ℕ) :
    ArgsMirror tlFree (arg :: args) flags next next (first ++ args.flatMap newCells)
      (field :: args.map zeroField) := by
  rw [List.forall_mem_cons] at hdescribed hshort
  have hzeros : ∀ value ∈ (args.flatMap newCells).map Prod.snd, value = .zero :=
    fun _ ↦ values_flatMap_newCells
  obtain ⟨howned, hlost, -⟩ := values_of_zero hzeros
  refine ⟨?_, ⟨le_rfl, ?_, ?_, ?_⟩, ?_, ?_⟩
  · rw [List.map_append, h.names, names_flatMap_newCells hdescribed.2 hshort.2, List.flatMap_cons]
  · change (HeapValue.ownedAll _).Nodup
    rw [List.map_append, ownedAll_append, h.owned, howned]
    exact List.nodup_nil
  · change ∀ block ∈ HeapValue.ownedAll _, _
    rw [List.map_append, ownedAll_append, h.owned, howned]
    exact nofun
  · exact fun hfits ↦ absurd hfits.1 h.fits
  · refine iff_of_false (fun hassigned ↦ h.assigned ?_) fun hfits ↦ h.fits hfits.1
    refine (hassigned.1 arg List.mem_cons_self htest).congr
      (names_appendStructArg hdescribed.1 hshort.1) fun name hname ↦ ?_
    exact Memory.get_append_left (h.names ▸ hname)
  · change (HeapValue.lostAll _).length = _
    rw [List.map_append, lostAll_append, h.lost, hlost, Field.messageCounts, h.messages,
      messageCounts_zeroField]
    rfl

end Arguments

/-! ## The statements of a decoder -/

section Statements

variable {model : DataModel} {readHeap : HeapReader} {readObject : ObjectReader}
  {tlFree : HeapObj → Option (List ℕ)}

/-- Two decoders have come to the end of the arguments `args`. -/
def ArgsDone (tlFree : HeapObj → Option (List ℕ)) (args : List Arg) (before : Memory)
    (decoding after : Decoding) (plain : List Field × Cursor) : Prop :=
  after.cursor = plain.2 ∧ (∃ more, after.flags = decoding.flags ++ more) ∧
    ∃ cells, after.memory = before ++ cells ∧
      ArgsMirror tlFree args after.flags decoding.next after.next cells plain.1

/-- The argument at the beginning has been dealt with. -/
theorem ArgsDone.cons {arg : Arg} {args : List Arg} {before first : Memory}
    {decoding middle after : Decoding} {field : Field} {fields : List Field} {cursor : Cursor}
    (hrest : ArgsDone tlFree args (before ++ first) middle after (fields, cursor))
    (hdescribed : ∀ other ∈ arg :: args, other.Described)
    (hshort : ∀ other ∈ arg :: args, other.isVector = true → other.name.toList.length < 53)
    (hnodup : (after.memory.map Prod.fst).Nodup)
    (hflags : ∃ more, middle.flags = decoding.flags ++ more)
    (hfirst : ∀ more, ArgMirror tlFree arg (middle.flags ++ more) decoding.next middle.next first
      field) :
    ArgsDone tlFree (arg :: args) before decoding after (field :: fields, cursor) := by
  obtain ⟨hcursor, ⟨later, hlater⟩, cells, hmemory, hcells⟩ := hrest
  obtain ⟨earlier, hearlier⟩ := hflags
  refine ⟨hcursor, ⟨earlier ++ later, by rw [hlater, hearlier, List.append_assoc]⟩, first ++ cells,
    by rw [hmemory, List.append_assoc], ?_⟩
  rw [hmemory, List.append_assoc, List.map_append] at hnodup
  exact ArgsMirror.cons hdescribed hshort (List.nodup_append.mp hnodup).2.1 (hlater ▸ hfirst later)
    hcells

/-- The statements for the arguments. -/
theorem runDecodeStmts_args (hreaders : ReadersMirror readHeap readObject tlFree) {args : List Arg}
    (hdescribed : ∀ arg ∈ args, arg.Described)
    (hshort : ∀ arg ∈ args, arg.isVector = true → arg.name.toList.length < 53)
    (before : Memory) (decoding : Decoding)
    (hmemory : decoding.memory = before ++ args.flatMap newCells)
    (hnodup : (decoding.memory.map Prod.fst).Nodup) :
    Option.Rel (fun after plain ↦ ArgsDone tlFree args before decoding after plain ∧
        (after.memory.map Prod.fst).Nodup)
      (runDecodeStmts model readHeap (args.flatMap appendDeserializeArg) decoding)
      (deserializeArgs model readObject decoding.flags args decoding.cursor) := by
  induction args generalizing before decoding with
  | nil =>
    refine .some ⟨⟨rfl, ⟨[], (List.append_nil _).symm⟩, [], hmemory, rfl, ?_⟩, hnodup⟩
    exact mirrors_empty le_rfl (iff_of_true ⟨nofun, trivial⟩ trivial)
  | cons arg rest ih =>
    have hdescribed' := List.forall_mem_cons.mp hdescribed
    have hshort' := List.forall_mem_cons.mp hshort
    have hnames := names_newCells hdescribed'.1 hshort'.1
    rw [List.flatMap_cons, ← List.append_assoc] at hmemory
    rw [List.flatMap_cons]
    rcases hdescribed'.1.type_cases with ⟨htype, hflags⟩ | ⟨type, htype⟩
    · have hnew : newCells arg = [] := by rw [newCells, appendStructArg_flags hflags, List.map_nil]
      have hassigned (flags : List UInt32) : ArgAssigned (newCells arg) flags arg := by
        intro _ member hmember
        rw [appendStructArg_flags hflags] at hmember
        cases hmember
      simp only [appendDeserializeArg, deserializeArgs, htype, hflags, if_true,
        List.singleton_append, runDecodeStmts]
      apply rel_bind (rel_self _)
      rintro ⟨word, cursor⟩ _ rfl
      apply rel_bind_right (ih hdescribed'.2 hshort'.2 (before ++ newCells arg)
        ⟨decoding.flags ++ [word], decoding.memory, cursor, decoding.next⟩ hmemory hnodup)
      rintro after ⟨fields, last⟩ ⟨hdone, hlast⟩
      exact ⟨_, rfl, hdone.cons hdescribed hshort hlast ⟨[word], rfl⟩
        (fun more ↦ argMirror_new hdescribed'.1 hshort'.1 (hassigned _) _), hlast⟩
    · have htest : argPresent decoding.flags arg =
          flagTest decoding.flags arg.flagn arg.flagb := rfl
      simp only [appendDeserializeArg, deserializeArgs, htype, List.singleton_append,
        runDecodeStmts, htest]
      cases hflag : flagTest decoding.flags arg.flagn arg.flagb with
      | none => exact .none
      | some present =>
        cases present with
        | false =>
          apply rel_bind_right (ih hdescribed'.2 hshort'.2 (before ++ newCells arg) decoding hmemory
            hnodup)
          rintro after ⟨fields, last⟩ ⟨hdone, hlast⟩
          refine ⟨_, rfl, hdone.cons hdescribed hshort hlast ⟨[], (List.append_nil _).symm⟩
            (fun more ↦ argMirror_new hdescribed'.1 hshort'.1 ?_ _), hlast⟩
          intro htrue
          rw [flagTest_append more hflag] at htrue
          cases htrue
        | true =>
          have hmiddle : ∀ name ∈ argNames arg, name ∉ before.map Prod.fst ∧
              name ∉ (rest.flatMap newCells).map Prod.fst := by
            intro name hname
            rw [hmemory, List.map_append, List.map_append, hnames, List.nodup_append,
              List.nodup_append] at hnodup
            exact ⟨fun hmem ↦ hnodup.1.2.2 name hmem name hname rfl,
              fun hmem ↦ hnodup.2.2 name (List.mem_append_right _ hname) name hmem rfl⟩
          have hsame {cells after : Memory} (hcells : cells.map Prod.fst = argNames arg)
              (hafter : after = before ++ cells ++ rest.flatMap newCells) :
              (after.map Prod.fst).Nodup := by
            rw [hmemory, List.map_append, List.map_append, hnames] at hnodup
            rw [hafter, List.map_append, List.map_append, hcells]
            exact hnodup
          apply rel_bind (runAssign_arg htype hdescribed'.1 hmemory hmiddle hreaders hshort'.1)
          rintro (middle | middle) (⟨field, cursor⟩ | ⟨field, cursor⟩) hmirrors
          · obtain ⟨hflags, hcursor, cells, hcells, hmirror⟩ := hmirrors
            have hlater := ih hdescribed'.2 hshort'.2 (before ++ cells) middle hcells
              (hsame hmirror.1 hcells)
            rw [hflags, hcursor] at hlater
            apply rel_bind_right hlater
            rintro after ⟨fields, last⟩ ⟨hdone, hlast⟩
            refine ⟨_, rfl, hdone.cons hdescribed hshort hlast
              ⟨[], by rw [hflags, List.append_nil]⟩ (fun more ↦ argMirror_present hmirror ?_), hlast⟩
            rw [hflags]
            exact flagTest_append more hflag
          · exact hmirrors.elim
          · exact hmirrors.elim
          · obtain ⟨hflags, hcursor, hnext, cells, hcells, hrefused⟩ := hmirrors
            refine .some ⟨⟨hcursor, ⟨[], by rw [hflags, List.append_nil]⟩,
              cells ++ rest.flatMap newCells, by rw [hcells, List.append_assoc], ?_⟩,
              hsame hrefused.names hcells⟩
            rw [hnext]
            exact ArgsMirror.refused hdescribed hshort hrefused (hflags ▸ hflag) _

end Statements

/-! ## A whole object -/

section Object

variable {tlFree : HeapObj → Option (List ℕ)} {method : Method} {flags : List UInt32}
  {header cells : Memory}

theorem zip_memory (memory : Memory) : (memory.map Prod.fst).zip (memory.map Prod.snd) = memory :=
  (List.zip_of_prod rfl rfl).symm

/-- The members of an object that has the names of its struct. -/
theorem memory_mk {memory : Memory} (block : ℕ)
    (hnames : memory.map Prod.fst = (appendStruct method).map Member.name) :
    (HeapObj.mk block method flags (memory.map Prod.snd)).memory method = memory := by
  rw [HeapObj.memory, ← hnames]
  exact zip_memory memory

/-- The members of the header hold buffers of their own. -/
structure HeaderMirror (tlFree : HeapObj → Option (List ℕ)) (method : Method) (lower upper : ℕ)
    (header cells : Memory) : Prop where
  names : header.map Prod.fst = (structHeader method).map Member.name
  le : lower ≤ upper
  nodup : (HeapValue.ownedAll (header.map Prod.snd)).Nodup
  range : ∀ block ∈ HeapValue.ownedAll (header.map Prod.snd), lower ≤ block ∧ block < upper
  lost : HeapValue.lostAll (header.map Prod.snd) = []
  assigned : HeapValue.AllAssigned (header.map Prod.snd)
  released : ∃ data buf,
    runFreeStmts tlFree (header ++ cells)
      (if method.name = "vector" then [.call .bufFree "data_".toList] else []) = some data ∧
    runFreeStmts tlFree (header ++ cells) [.call .bufFree "_buf".toList] = some buf ∧
    (data ++ buf).Perm (HeapValue.ownedAll (header.map Prod.snd))

/-- An object is made of its block, its header and the members for its arguments. -/
theorem mirrors_object (hdescribed : method.Described) (hfit : NamesFit method)
    {next middle upper : ℕ} {fields : List Field} {fits : Prop} {messages : ℕ}
    (hheader : HeaderMirror tlFree method (next + 1) middle header cells)
    (hargs : ArgsMirror tlFree method.args flags middle upper cells fields)
    (hfits : fits ↔ Field.AllLengthsFit fields) (hmessages : messages = Field.messageCounts fields)
    {obj : HeapObj} (hobj : obj = .mk next method flags ((header ++ cells).map Prod.snd)) :
    Mirrors ⟨obj.owned, obj.lost, freeMethod tlFree method obj⟩ next upper obj.Assigned fits
      messages := by
  have hnames : (header ++ cells).map Prod.fst = (appendStruct method).map Member.name := by
    rw [List.map_append, hheader.names, hargs.names, appendStruct, List.map_append, List.map_flatMap]
    congr 1
    exact List.flatMap_congr fun arg harg ↦
      (names_appendStructArg (hdescribed arg harg) (hfit.short arg harg)).symm
  have hnodup : ((header ++ cells).map Prod.fst).Nodup := hnames ▸ nodup_names hdescribed hfit
  have hget (arg : Arg) (harg : arg ∈ method.args) (name : List Char) (hname : name ∈ argNames arg) :
      (header ++ cells).get name = cells.get name := get_right hnodup hargs.names harg hname
  have hassigned : obj.Assigned ↔ (∀ arg ∈ method.args, ArgAssigned cells flags arg) ∧
      HeapValue.AllAssigned (cells.map Prod.snd) := by
    rw [hobj, HeapObj.Assigned, ← hnames, zip_memory, List.map_append, allAssigned_append,
      and_iff_right hheader.assigned]
    exact and_congr_left' (forall₂_congr fun arg harg ↦ ArgAssigned.congr_iff
      (names_appendStructArg (hdescribed arg harg) (hfit.short arg harg)) (hget arg harg))
  have hblock : Holding.Settled ⟨[next], [], some [next]⟩ next (next + 1) True :=
    Holding.settled_released next
  have hown : Holding.Settled ⟨HeapValue.ownedAll (header.map Prod.snd), [],
      some (HeapValue.ownedAll (header.map Prod.snd))⟩ (next + 1) middle True :=
    ⟨hheader.le, hheader.nodup, hheader.range,
      fun _ ↦ ⟨_, rfl, by rw [List.append_nil]⟩⟩
  have hall := (hblock.append hown).append hargs.mirrors.settled
  have howned : obj.owned = next :: HeapValue.ownedAll (header.map Prod.snd) ++
      HeapValue.ownedAll (cells.map Prod.snd) := by
    rw [hobj, HeapObj.owned, List.map_append, ownedAll_append, List.cons_append]
  have hlost : obj.lost = HeapValue.lostAll (cells.map Prod.snd) := by
    rw [hobj, HeapObj.lost, List.map_append, lostAll_append, hheader.lost, List.nil_append]
  refine ⟨(hall.imp fun h ↦ ⟨⟨trivial, trivial⟩, hfits.mp h⟩).perm ?_ ?_ ?_, ?_, ?_⟩
  · rw [howned]
    rfl
  · rw [hlost]
    rfl
  · intro released hreleased
    rw [Holding.released_append, Holding.releaseBoth_eq_some_iff] at hreleased
    obtain ⟨earlier, later, hearlier, hlater, rfl⟩ := hreleased
    obtain ⟨data, buf, hdata, hbuf, hperm⟩ := hheader.released
    refine ⟨data ++ later ++ buf ++ [next], ?_, ?_⟩
    · have hmemory : obj.memory method = header ++ cells := by
        rw [hobj]
        exact memory_mk next hnames
      have hargsFree : runFreeStmts tlFree (header ++ cells) (method.args.flatMap appendFreeArg) =
          some later := (runFreeStmts_args hdescribed hget).trans hlater
      change freeMethod tlFree method obj = _
      rw [freeMethod, hmemory, appendFree, runFreeStmts_append, runFreeStmts_append, hdata, hbuf,
        hargsFree, hobj]
      rfl
    · rw [← Option.some.inj hearlier, List.perm_iff_count]
      intro block
      have hcount := hperm.count_eq block
      simp only [List.count_append] at hcount ⊢
      omega
  · rw [hassigned, hfits]
    exact hargs.mirrors.assigned
  · rw [hmessages, hlost]
    exact hargs.mirrors.messages

end Object

/-! ## The header of a decoder -/

section Header

variable {model : DataModel} {readHeap : HeapReader} {tlFree : HeapObj → Option (List ℕ)}
  {method : Method} {stmts : List DecodeStmt} {cells changed rest : Memory} {cursor : Cursor}
  {next : ℕ}

theorem run_read (member : List Char) (reader : Reader) (stmts : List DecodeStmt)
    (decoding : Decoding) :
    runDecodeStmts model readHeap (.assign 0 0 (.read member reader) :: stmts) decoding =
      (readValue model readHeap reader decoding.cursor decoding.next).bind fun heap ↦
        (decoding.memory.set member heap.1).bind fun memory ↦
          runDecodeStmts model readHeap stmts ⟨decoding.flags, memory, heap.2.1, heap.2.2⟩ := by
  have htest : flagTest decoding.flags 0 0 = some true := rfl
  simp only [runDecodeStmts, htest, runAssign, Option.bind_eq_bind, Option.bind_some, if_true,
    Option.bind_assoc]

variable (changed) in
theorem set_header {name : List Char} {value : HeapValue} (hrest : name ∉ rest.map Prod.fst)
    (hset : cells.set name value = some changed) :
    Memory.set (cells ++ rest) name value = some (changed ++ rest) := by
  have hmiddle : Memory.set ([] ++ cells ++ rest) name value =
      (cells.set name value).map fun changed ↦ [] ++ changed ++ rest :=
    Memory.set_middle List.not_mem_nil hrest
  rw [hset] at hmiddle
  exact hmiddle

/-- The members of the header when they have been read. -/
def headerCells (next : ℕ) (id : UInt32) (buf : Bytes) : Memory :=
  [("_id".toList, .word id), ("_buf".toList, .buf next buf)]

/-- Those of `vector`. -/
def vectorCells (next : ℕ) (id : UInt32) (buf : Bytes) (len : UInt32) (data : Bytes) : Memory :=
  headerCells next id buf ++ [("len_".toList, .word len), ("data_".toList, .buf (next + 1) data)]

/-- The header of a constructor other than `vector`. -/
theorem run_header (hname : method.name ≠ "vector")
    (hrest : ∀ name ∈ (structHeader method).map Member.name, name ∉ rest.map Prod.fst) :
    runDecodeStmts model readHeap (decodeHeader method ++ stmts)
        ⟨[], (structHeader method).map (fun member ↦ (member.name, .zero)) ++ rest, cursor, next⟩ =
      (cursor.addBuf cursor.size.toNat).bind fun buf ↦
        (deserializeUi32 model cursor).bind fun id ↦
          runDecodeStmts model readHeap stmts
            ⟨[], headerCells next id.1 buf ++ rest, id.2, next + 1⟩ := by
  rw [structHeader, if_neg hname, List.append_nil] at hrest ⊢
  have hbuf := hrest "_buf".toList (by decide)
  have hid := hrest "_id".toList (by decide)
  rw [decodeHeader, if_neg hname, List.append_nil, List.cons_append, run_read, readValue,
    Option.bind_map]
  congr 1
  funext buf
  simp only [Function.comp]
  rw [set_header ([("_id".toList, .zero), ("_buf".toList, .buf next buf)]) hbuf rfl,
    Option.bind_some, List.cons_append, run_read, readValue, Option.bind_map]
  congr 1
  funext id
  simp only [Function.comp]
  rw [set_header (headerCells next id.1 buf) hid rfl]
  rfl

/-- The header of `vector`. -/
theorem run_header_vector (hname : method.name = "vector")
    (hrest : ∀ name ∈ (structHeader method).map Member.name, name ∉ rest.map Prod.fst) :
    runDecodeStmts model readHeap (decodeHeader method ++ stmts)
        ⟨[], (structHeader method).map (fun member ↦ (member.name, .zero)) ++ rest, cursor, next⟩ =
      (cursor.addBuf cursor.size.toNat).bind fun buf ↦
        (deserializeUi32 model cursor).bind fun id ↦
          (deserializeUi32 model id.2).bind fun len ↦
            (len.2.addBuf len.2.size.toNat).bind fun data ↦
              runDecodeStmts model readHeap stmts
                ⟨[], vectorCells next id.1 buf len.1 data ++ rest, len.2, next + 2⟩ := by
  rw [structHeader, if_pos hname] at hrest ⊢
  have hbuf := hrest "_buf".toList (by decide)
  have hid := hrest "_id".toList (by decide)
  have hlen := hrest "len_".toList (by decide)
  have hdata := hrest "data_".toList (by decide)
  have hzero : List.map (fun member : Member ↦ (member.name, HeapValue.zero))
      [⟨"len_".toList, .uint32⟩, ⟨"data_".toList, .buf⟩] =
        [("len_".toList, .zero), ("data_".toList, .zero)] := rfl
  rw [decodeHeader, if_pos hname, List.append_assoc, List.cons_append, run_read, readValue,
    Option.bind_map, List.map_append, hzero]
  congr 1
  funext buf
  simp only [Function.comp]
  rw [set_header ([("_id".toList, .zero), ("_buf".toList, .buf next buf)] ++
      [("len_".toList, .zero), ("data_".toList, .zero)]) hbuf rfl,
    Option.bind_some, List.cons_append, run_read, readValue, Option.bind_map]
  congr 1
  funext id
  simp only [Function.comp]
  rw [set_header (headerCells next id.1 buf ++
      [("len_".toList, .zero), ("data_".toList, .zero)]) hid rfl,
    Option.bind_some, List.nil_append, List.cons_append, run_read, readValue, Option.bind_map]
  congr 1
  funext len
  simp only [Function.comp]
  rw [set_header (headerCells next id.1 buf ++
      [("len_".toList, .word len.1), ("data_".toList, .zero)]) hlen rfl,
    Option.bind_some, List.cons_append, run_read, readValue, Option.bind_map]
  congr 1
  funext data
  simp only [Function.comp]
  rw [set_header (vectorCells next id.1 buf len.1 data) hdata rfl]
  rfl

/-- The header holds the copy of the buffer, which the last call of the destructor releases. -/
theorem headerMirror (hname : method.name ≠ "vector") (id : UInt32) (buf : Bytes) :
    HeaderMirror tlFree method next (next + 1) (headerCells next id buf) rest where
  names := by
    rw [structHeader, if_neg hname]
    rfl
  le := Nat.le_succ next
  nodup := List.nodup_singleton next
  range block hblock := by
    rw [List.mem_singleton.mp hblock]
    exact ⟨le_rfl, Nat.lt_succ_self next⟩
  lost := rfl
  assigned := ⟨trivial, trivial, trivial⟩
  released := by
    rw [if_neg hname]
    exact ⟨[], [next], rfl, rfl, List.Perm.refl _⟩

/-- That of `vector` holds two copies. -/
theorem headerMirror_vector (hname : method.name = "vector") (id : UInt32) (buf : Bytes)
    (len : UInt32) (data : Bytes) :
    HeaderMirror tlFree method next (next + 2) (vectorCells next id buf len data) rest where
  names := by
    rw [structHeader, if_pos hname]
    rfl
  le := Nat.le_add_right next 2
  nodup := by
    change [next, next + 1].Nodup
    rw [List.nodup_cons, List.mem_singleton]
    exact ⟨by omega, List.nodup_singleton _⟩
  range block hblock := by
    change block ∈ [next, next + 1] at hblock
    rw [List.mem_cons, List.mem_singleton] at hblock
    omega
  lost := rfl
  assigned := ⟨trivial, trivial, trivial, trivial, trivial⟩
  released := by
    rw [if_pos hname]
    exact ⟨[next + 1], [next], rfl, rfl, List.Perm.swap _ _ _⟩

end Header

/-! ## Both decoders of a constructor -/

section Method

variable {model : DataModel} {readHeap : HeapReader} {readObject : ObjectReader}
  {tlFree : HeapObj → Option (List ℕ)} {method : Method}

/-- The two decoders of a constructor have read the same object. -/
structure ObjectsMirror (tlFree : HeapObj → Option (List ℕ)) (method : Method) (next : ℕ)
    (heap : HeapObj × Cursor × ℕ) (plain : TlObj × Cursor) : Prop where
  cursor : heap.2.1 = plain.2
  id : heap.1.id = plain.1.id
  buf : heap.1.buf = plain.1.buf
  mirrors : Mirrors ⟨heap.1.owned, heap.1.lost, freeMethod tlFree method heap.1⟩ next heap.2.2
    heap.1.Assigned plain.1.LengthsFit plain.1.messageCount

/-- The members of a new struct. -/
theorem memory_new (method : Method) :
    Memory.new method = (structHeader method).map (fun member ↦ (member.name, .zero)) ++
      method.args.flatMap newCells := by
  rw [Memory.new, appendStruct, List.map_append, List.map_flatMap]
  rfl

/-- The statements for the arguments, behind a header that has been read. -/
theorem rel_args (hreaders : ReadersMirror readHeap readObject tlFree)
    (hdescribed : method.Described) (hfit : NamesFit method) {header : Memory}
    (hheader : header.map Prod.fst = (structHeader method).map Member.name) (cursor : Cursor)
    (next : ℕ) :
    Option.Rel (ArgsDone tlFree method.args header
        ⟨[], header ++ method.args.flatMap newCells, cursor, next⟩)
      (runDecodeStmts model readHeap (method.args.flatMap appendDeserializeArg)
        ⟨[], header ++ method.args.flatMap newCells, cursor, next⟩)
      (deserializeArgs model readObject [] method.args cursor) := by
  have hnames : (header ++ method.args.flatMap newCells).map Prod.fst =
      (appendStruct method).map Member.name := by
    rw [List.map_append, hheader, names_flatMap_newCells hdescribed hfit.short, appendStruct,
      List.map_append, List.map_flatMap]
    congr 1
    exact List.flatMap_congr fun arg harg ↦
      (names_appendStructArg (hdescribed arg harg) (hfit.short arg harg)).symm
  have hnodup : ((header ++ method.args.flatMap newCells).map Prod.fst).Nodup :=
    hnames ▸ nodup_names hdescribed hfit
  exact rel_imp (runDecodeStmts_args hreaders hdescribed hfit.short header _ rfl hnodup)
    fun _ _ h ↦ h.1

/-- The statements for the arguments complete the object. -/
theorem objectsMirror_of_args (hdescribed : method.Described) (hfit : NamesFit method)
    {header : Memory} {next middle : ℕ} {cursor : Cursor} {id : UInt32} {buf : Bytes}
    (first : List Field) {after : Decoding} {plain : List Field × Cursor}
    (hheader : ∀ cells, HeaderMirror tlFree method (next + 1) middle header cells)
    {block : ℕ} (hid : ∃ more, header = headerCells block id buf ++ more)
    (hfirst : ∀ rest, Field.AllLengthsFit (first ++ rest) ↔ Field.AllLengthsFit rest)
    (hmessages : ∀ rest, Field.messageCounts (first ++ rest) = Field.messageCounts rest)
    (hargs : ArgsDone tlFree method.args header
      ⟨[], header ++ method.args.flatMap newCells, cursor, middle⟩ after plain) :
    ObjectsMirror tlFree method next
      (.mk next method after.flags (after.memory.map Prod.snd), after.cursor, after.next)
      (.mk id buf (first ++ plain.1), plain.2) := by
  obtain ⟨hcursor, -, cells, hmemory, hcells⟩ := hargs
  obtain ⟨more, hmore⟩ := hid
  refine ⟨hcursor, ?_, ?_, ?_⟩
  · rw [hmemory, hmore]
    rfl
  · rw [hmemory, hmore]
    rfl
  · apply mirrors_object hdescribed hfit (hheader cells) hcells (hfirst plain.1)
      (hmessages plain.1)
    rw [hmemory]

variable (model) in
/-- Both decoders of a constructor read the same object. -/
theorem heapDeserializeMethod_mirrors (hreaders : ReadersMirror readHeap readObject tlFree)
    (hdescribed : method.Described) (hfit : NamesFit method) (cursor : Cursor) (next : ℕ) :
    Option.Rel (ObjectsMirror tlFree method next)
      (heapDeserializeMethod model readHeap method cursor next)
      (deserializeMethod model readObject method cursor) := by
  have hrest (name : List Char) (hname : name ∈ (structHeader method).map Member.name) :
      name ∉ (method.args.flatMap newCells).map Prod.fst := by
    have hnew : (Memory.new method).map Prod.fst = (appendStruct method).map Member.name := by
      rw [Memory.new, List.map_map]
      rfl
    have hnodup := nodup_names hdescribed hfit
    rw [← hnew, memory_new, List.map_append, List.map_map, List.nodup_append] at hnodup
    exact fun hmem ↦ hnodup.2.2 name hname name hmem rfl
  rw [heapDeserializeMethod, if_pos (nodup_names hdescribed hfit), appendDeserializeTable,
    memory_new, deserializeMethod]
  by_cases hname : method.name = "vector"
  · simp only [if_pos hname]
    rw [run_header_vector hname hrest]
    simp only [Option.bind_eq_bind, Option.bind_assoc]
    apply rel_bind (rel_self _)
    rintro buf _ rfl
    apply rel_bind (rel_self _)
    rintro id _ rfl
    apply rel_bind (rel_self _)
    rintro len _ rfl
    apply rel_bind (rel_self _)
    rintro data _ rfl
    have hheader (cells : Memory) : HeaderMirror tlFree method (next + 1) (next + 1 + 2)
        (vectorCells (next + 1) id.1 buf len.1 data) cells :=
      headerMirror_vector hname id.1 buf len.1 data
    apply rel_bind (rel_args hreaders hdescribed hfit (hheader []).names len.2 (next + 1 + 2))
    rintro after plain hargs
    exact .some (objectsMirror_of_args hdescribed hfit [.int len.1, .buf data] hheader
      ⟨[("len_".toList, .word len.1), ("data_".toList, .buf (next + 1 + 1) data)], rfl⟩
      (fun rest ↦ by simp [Field.AllLengthsFit, Field.LengthsFit])
      (fun rest ↦ by simp [Field.messageCounts, Field.messageCount]) hargs)
  · simp only [if_neg hname]
    rw [run_header hname hrest]
    simp only [Option.bind_eq_bind, Option.bind_assoc]
    apply rel_bind (rel_self _)
    rintro buf _ rfl
    apply rel_bind (rel_self _)
    rintro id _ rfl
    have hheader (cells : Memory) : HeaderMirror tlFree method (next + 1) (next + 1 + 1)
        (headerCells (next + 1) id.1 buf) cells := headerMirror hname id.1 buf
    apply rel_bind (rel_args hreaders hdescribed hfit (hheader []).names id.2 (next + 1 + 1))
    rintro after plain hargs
    exact .some (objectsMirror_of_args hdescribed hfit [] hheader ⟨[], rfl⟩
      (fun rest ↦ Iff.rfl) (fun rest ↦ rfl) hargs)

end Method

/-! ## Objects inside objects -/

section Table

variable {model : DataModel} {table : List Method} {method : Method}

theorem id_deserializeMethod {readObject : ObjectReader} {cursor rest : Cursor} {tl : TlObj}
    (h : deserializeMethod model readObject method cursor = some (tl, rest)) :
    ∃ after, deserializeUi32 model cursor = some (tl.id, after) := by
  rw [deserializeMethod, Option.bind_eq_bind, Option.bind_eq_some_iff] at h
  obtain ⟨buf, -, h⟩ := h
  rw [Option.bind_eq_bind, Option.bind_eq_some_iff] at h
  obtain ⟨⟨id, after⟩, hid, h⟩ := h
  refine ⟨after, ?_⟩
  rw [hid]
  by_cases hname : method.name = "vector"
  · simp only [if_pos hname, Option.bind_eq_bind, Option.bind_eq_some_iff] at h
    obtain ⟨len, -, data, -, fields, -, h⟩ := h
    cases h
    rfl
  · simp only [if_neg hname, Option.bind_eq_bind, Option.bind_eq_some_iff] at h
    obtain ⟨fields, -, h⟩ := h
    cases h
    rfl

variable (model) in
/-- Objects inside an object are read alike, and `tl_free` releases them. -/
theorem readersMirror (hdescribed : ∀ method ∈ table, method.Described)
    (hfit : ∀ method ∈ table, NamesFit method) (fuel : ℕ) :
    ReadersMirror (heapDeserializeFuel model table fuel) (tlDeserializeFuel model table fuel)
      (tlFreeFuel table fuel) := by
  induction fuel with
  | zero => exact fun _ _ ↦ .none
  | succ fuel ih =>
    intro cursor next
    rw [heapDeserializeFuel, tlDeserializeFuel]
    have hnull : ValueMirrors (tlFreeFuel table (fuel + 1)) (some .tlFree) next
        (.pointer none, cursor, next) (.object none, cursor) :=
      valueMirrors_plain rfl rfl Iff.rfl rfl
    cases hread : cursor.read 4 with
    | none => exact .none
    | some bytes =>
      simp only [Option.bind_eq_bind, Option.bind_some]
      by_cases hzero : getUi32 bytes = 0
      · rw [if_pos hzero, if_pos hzero]
        exact .some hnull
      · rw [if_neg hzero, if_neg hzero]
        cases hmethod : getFun table (getUi32 bytes) with
        | none => exact .some hnull
        | some method =>
          have hmem : method ∈ table := List.mem_of_find?_eq_some hmethod
          apply rel_bind (rel_mem (heapDeserializeMethod_mirrors model ih (hdescribed method hmem)
            (hfit method hmem) cursor next))
          rintro ⟨obj, after, upper⟩ ⟨tl, rest⟩ ⟨⟨hcursor, hobj, -, hmirrors⟩, hplain⟩
          obtain ⟨_, hid⟩ := id_deserializeMethod hplain
          have hread' : deserializeUi32 model cursor =
              some (getUi32 bytes, cursor.advance model 4) := by
            rw [deserializeUi32, hread]
            rfl
          rw [hread', Option.some.injEq, Prod.mk.injEq] at hid
          have hfree : tlFreeFuel table (fuel + 1) obj =
              freeMethod (tlFreeFuel table fuel) method obj := by
            rw [tlFreeFuel, hobj, ← hid.1, hmethod]
          refine .some ⟨hcursor, rfl, ?_⟩
          change Mirrors ⟨obj.owned, obj.lost, tlFreeFuel table (fuel + 1) obj⟩ _ _ _ _ _
          rw [hfree]
          exact hmirrors

/-- What the decoder of a constructor leaves in the heap: its members are assigned, and its
destructor releases every block once. -/
def Releases (model : DataModel) (table : List Method) (fuel : ℕ) (method : Method)
    (cursor : Cursor) (next : ℕ) : Prop :=
  ∀ obj rest after,
    heapDeserializeMethod model (heapDeserializeFuel model table fuel) method cursor next =
        some (obj, rest, after) →
      obj.Assigned ∧ Holding.ReleasesOnce
        ⟨obj.owned, obj.lost, freeMethod (tlFreeFuel table fuel) method obj⟩

/-- The bytes at a cursor describe an object whose vectors have lengths from 0 to 10000 and hold no
message. -/
def BytesFit (model : DataModel) (table : List Method) (fuel : ℕ) (method : Method)
    (cursor : Cursor) : Prop :=
  ∀ tl rest, deserializeMethod model (tlDeserializeFuel model table fuel) method cursor =
    some (tl, rest) → tl.Fits

instance decidableBytesFit (model : DataModel) (table : List Method) (fuel : ℕ) (method : Method)
    (cursor : Cursor) : Decidable (BytesFit model table fuel method cursor) :=
  decidable_of_iff ((deserializeMethod model (tlDeserializeFuel model table fuel) method cursor).all
    fun read ↦ read.1.Fits) <| by
    rw [Option.all_eq_true]
    exact ⟨fun h tl rest heq ↦ of_decide_eq_true (h _ heq),
      fun h read hread ↦ decide_eq_true (h read.1 read.2 hread)⟩

theorem releases_iff (hdescribed : ∀ method ∈ table, method.Described)
    (hfit : ∀ method ∈ table, NamesFit method) (hmem : method ∈ table) (fuel : ℕ) (cursor : Cursor)
    (next : ℕ) :
    Releases model table fuel method cursor next ↔ BytesFit model table fuel method cursor := by
  have hboth := heapDeserializeMethod_mirrors model (readersMirror model hdescribed hfit fuel)
    (hdescribed method hmem) (hfit method hmem) cursor next
  unfold Releases BytesFit
  generalize heapDeserializeMethod model _ method cursor next = heap at hboth ⊢
  generalize deserializeMethod model _ method cursor = plain at hboth ⊢
  cases hboth with
  | none => exact iff_of_true nofun nofun
  | @some heap plain hobjects =>
    obtain ⟨obj, rest, after⟩ := heap
    obtain ⟨tl, rest'⟩ := plain
    obtain ⟨hsettled, hassigned, hmessages⟩ := hobjects.mirrors
    have hcount : obj.lost = [] ↔ tl.messageCount = 0 := by
      rw [← List.length_eq_zero_iff]
      exact iff_of_eq (congrArg (· = 0) hmessages)
    constructor
    · intro hreleases tl' _ heq
      obtain ⟨hall, honce⟩ := hreleases obj rest after rfl
      cases heq
      have hfits := hassigned.mp hall
      exact ⟨hfits, hcount.mp ((hsettled.releasesOnce_iff hfits).mp honce)⟩
    · intro hbytes obj' _ _ heq
      obtain ⟨hfits, hnone⟩ := hbytes tl rest' rfl
      cases heq
      exact ⟨hassigned.mpr hfits, (hsettled.releasesOnce_iff hfits).mpr (hcount.mpr hnone)⟩

/-- The emitted struct, decoder and destructor agree exactly if the names of the members differ, the
lengths of vectors are declared in full, and the bytes hold neither a refused length nor a vector of
messages. -/
theorem emitters_agree_iff (hdescribed : ∀ method ∈ table, method.Described)
    (hmem : method ∈ table) (fuel : ℕ) (cursor : Cursor) (next : ℕ) :
    ((∀ other ∈ table, FieldsAgree other) ∧ Releases model table fuel method cursor next) ↔
      (∀ other ∈ table, NamesFit other) ∧ BytesFit model table fuel method cursor := by
  have hnames : (∀ other ∈ table, FieldsAgree other) ↔ ∀ other ∈ table, NamesFit other :=
    forall₂_congr fun other hother ↦ fieldsAgree_iff (hdescribed other hother)
  rw [hnames]
  exact and_congr_right fun hfit ↦ releases_iff hdescribed hfit hmem fuel cursor next

end Table

/-! ## A poll -/

instance decidableArgDescribed (arg : Arg) : Decidable arg.Described :=
  @instDecidableAnd _ _ _ <|
    match arg.type with
    | none => inferInstanceAs (Decidable (arg.isFlags = true))
    | some _ => inferInstanceAs (Decidable (_ ∧ _))

instance decidableMethodDescribed (method : Method) : Decidable method.Described :=
  inferInstanceAs (Decidable (∀ arg ∈ method.args, arg.Described))

instance decidableNamesFit (method : Method) : Decidable (NamesFit method) :=
  decidable_of_iff (method.fieldNames.Nodup ∧
      ∀ arg ∈ method.args, arg.isVector = true → arg.name.toList.length < 53)
    ⟨fun h ↦ ⟨h.1, h.2⟩, fun h ↦ ⟨h.nodup, h.short⟩⟩

def pollMethod : Method where
  name := "poll"
  id := 0x58747131
  args := [⟨"id", some "long", 0, 0⟩, ⟨"flags", none, 0, 0⟩, ⟨"closed", some "true", 1, 0⟩,
    ⟨"public_voters", some "true", 1, 1⟩, ⟨"multiple_choice", some "true", 1, 2⟩,
    ⟨"quiz", some "true", 1, 3⟩, ⟨"question", some "TextWithEntities", 0, 0⟩,
    ⟨"answers", some "Vector<PollAnswer>", 0, 0⟩, ⟨"close_period", some "int", 1, 4⟩,
    ⟨"close_date", some "int", 1, 5⟩]
  isMtproto := false

/-- `poll`, `pollAnswer`, `textWithEntities` and `messageEntityTextUrl`. -/
def pollMethods : List Method :=
  [pollMethod,
    ⟨"pollAnswer", 0xff16e2ca,
      [⟨"text", some "TextWithEntities", 0, 0⟩, ⟨"option", some "bytes", 0, 0⟩], false⟩,
    ⟨"textWithEntities", 0x751f3146,
      [⟨"text", some "string", 0, 0⟩, ⟨"entities", some "Vector<MessageEntity>", 0, 0⟩], false⟩,
    ⟨"messageEntityTextUrl", 0x76a6d327,
      [⟨"offset", some "int", 0, 0⟩, ⟨"length", some "int", 0, 0⟩, ⟨"url", some "string", 0, 0⟩],
      false⟩]

/-- A `textWithEntities`, which is a link to `u` or has no entities. -/
def linkText (text : Bytes) (linked : Bool) : Bytes :=
  le32 0x751f3146 ++ tlBytes text ++ le32 idVector ++
    if linked then
      le32 1 ++ le32 0x76a6d327 ++ le32 0 ++ le32 (UInt32.ofNat text.length) ++ tlBytes [117]
    else le32 0

/-- A `poll` with a period, a question that is a link, and two answers. -/
def pollCursor : Cursor :=
  cursorAt (le32 0x58747131 ++ le64 7 ++ le32 16 ++ linkText [63] true ++ le32 idVector ++ le32 2 ++
    (le32 0xff16e2ca ++ linkText [97] false ++ tlBytes [0]) ++
    (le32 0xff16e2ca ++ linkText [98] true ++ tlBytes [1]) ++ le32 60) [0] 0

/-- Strings, objects in objects, and vectors of them. -/
theorem poll_agree :
    (∀ other ∈ pollMethods, FieldsAgree other) ∧
      Releases .lp64 pollMethods 4 pollMethod pollCursor 0 :=
  (emitters_agree_iff (by decide +kernel) List.mem_cons_self 4 pollCursor 0).mpr
    ⟨by decide +kernel, by decide +kernel⟩

/-! ## A container with a message -/

/-- `msg_container#73f1f8dc messages:vector<%Message>`. -/
def containerMethod : Method where
  name := "msg_container"
  id := 0x73f1f8dc
  args := [⟨"messages", some "vector<%Message>", 0, 0⟩]
  isMtproto := true

/-- A container of messages without a body. -/
def containerCursor (count : ℕ) : Cursor :=
  cursorAt (le32 0x73f1f8dc ++ le32 (UInt32.ofNat count) ++ List.replicate (16 * count) 0) [0] 0

theorem containerMethod_described : ∀ method ∈ [containerMethod], method.Described := by
  decide +kernel

/-- The body of a message in a container is not released. -/
theorem fullContainer_not_agree :
    ¬ ((∀ other ∈ [containerMethod], FieldsAgree other) ∧
      Releases .lp64 [containerMethod] 1 containerMethod (containerCursor 1) 0) := by
  rw [emitters_agree_iff containerMethod_described (List.mem_singleton_self _)]
  rintro ⟨-, hbytes⟩
  exact absurd hbytes (by decide +kernel)

end LibTg.Tl
