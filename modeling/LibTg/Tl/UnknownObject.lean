import LibTg.Tl.Access

/-!
# What is read behind an unknown object

`tl_deserialize` answers `NULL` for an id that is zero or not in its table, and leaves the cursor in
front of the id. Whatever the decoders around it read next, they read from there. So the bytes of an
unknown object are used for something else exactly if anything at all is read behind it, and whether
this happens depends on its place: `EndsFuel` says that it is the last thing in a buffer.
-/

namespace LibTg.Tl

section Trace

variable (table : List Method)

/-- An id that is zero or not in the table. -/
def UnknownId (id : UInt32) : Prop := id = 0 ∨ getFun table id = none

/-- `tl_deserialize` looks up an unknown id. -/
def LooksUpUnknown (access : Access) : Prop :=
  access.purpose = .id ∧ ∃ bytes, access.before.read 4 = some bytes ∧ UnknownId table (getUi32 bytes)

/-- An unknown id is looked up. -/
def HoldsUnknown (accesses : List Access) : Prop :=
  ∃ access ∈ accesses, LooksUpUnknown table access

instance (id : UInt32) : Decidable (UnknownId table id) :=
  decidable_of_iff (id = 0 ∨ (getFun table id).isNone) (by rw [Option.isNone_iff_eq_none]; rfl)

instance (access : Access) : Decidable (LooksUpUnknown table access) :=
  decidable_of_iff (access.purpose = .id ∧
    (access.before.read 4).any fun bytes ↦ UnknownId table (getUi32 bytes))
    (by simp [LooksUpUnknown, Option.any_eq_true])

instance (accesses : List Access) : Decidable (HoldsUnknown table accesses) :=
  inferInstanceAs (Decidable (∃ access ∈ accesses, LooksUpUnknown table access))

/-- When an unknown id has been looked up, no access touches it again, except to dump it. -/
def Unused (accesses : List Access) : Prop :=
  ∀ earlier access later, accesses = earlier ++ access :: later → LooksUpUnknown table access →
    ∀ next ∈ later, next.purpose ≠ .dump →
      next.before.off + next.count ≤ access.before.off ∨ access.before.off + 4 ≤ next.before.off

/-- Something is read at a cursor, by the first access. -/
def ReadsAt (accesses : List Access) (start : Cursor) : Prop :=
  ∃ first rest, accesses = first :: rest ∧ first.before = start ∧ 0 < first.count ∧
    first.purpose ≠ .dump

/-- Something is read at a cursor, or nothing is read and the cursor stays. -/
def Begins (accesses : List Access) (start : Cursor) (stop : Option Cursor) : Prop :=
  ReadsAt accesses start ∨ accesses = [] ∧ ∀ cursor ∈ stop, cursor = start

/-- Behind an unknown object that is not used the cursor is still in front of it, and a condition says
when it is not used. -/
structure Traced (accesses : List Access) (stop : Option Cursor) (ends : Prop) : Prop where
  stuck : HoldsUnknown table accesses → Unused table accesses → ∀ cursor ∈ stop,
    ∃ access ∈ accesses, LooksUpUnknown table access ∧ access.before = cursor
  iff : HoldsUnknown table accesses → (Unused table accesses ↔ ends)

variable {table} {first second : List Access} {start cursor : Cursor} {stop : Option Cursor}
  {ends ends' : Prop}

theorem holdsUnknown_append :
    HoldsUnknown table (first ++ second) ↔ HoldsUnknown table first ∨ HoldsUnknown table second := by
  simp only [HoldsUnknown, List.mem_append, or_and_right, exists_or]

/-- Values are no ids. -/
theorem not_holdsUnknown_of_values (hvalue : ∀ access ∈ first, access.purpose = .value) :
    ¬ HoldsUnknown table first := by
  rintro ⟨access, hmem, hid, -⟩
  rw [hvalue access hmem] at hid
  cases hid

/-- Without an unknown object there is nothing to say. -/
theorem Traced.of_known (hknown : ¬ HoldsUnknown table first) : Traced table first stop ends :=
  ⟨fun h ↦ absurd h hknown, fun h ↦ absurd h hknown⟩

theorem ReadsAt.append (h : ReadsAt first start) (second : List Access) : ReadsAt (first ++ second) start := by
  obtain ⟨access, rest, rfl, hbefore⟩ := h
  exact ⟨access, rest ++ second, rfl, hbefore⟩

theorem ReadsAt.ne_nil (h : ReadsAt first start) : first ≠ [] := by
  obtain ⟨access, rest, rfl, -⟩ := h
  exact List.cons_ne_nil access rest

theorem unused_of_append_left (h : Unused table (first ++ second)) : Unused table first := by
  rintro earlier access later rfl hunknown next hnext hpurpose
  refine h earlier access (later ++ second) ?_ hunknown next (List.mem_append_left _ hnext) hpurpose
  rw [List.append_assoc, List.cons_append]

/-- What is known does not matter for what comes behind it. -/
theorem unused_append_of_known (hknown : ¬ HoldsUnknown table first) :
    Unused table (first ++ second) ↔ Unused table second := by
  constructor
  · rintro h earlier access later rfl hunknown
    exact h (first ++ earlier) access later (List.append_assoc ..).symm hunknown
  · rintro h earlier access later heq hunknown
    rcases List.append_eq_append_iff.mp heq with ⟨more, rfl, hsecond⟩ | ⟨more, rfl, hlater⟩
    · exact h more access later hsecond hunknown
    · cases more with
      | nil => exact h [] access later hlater.symm hunknown
      | cons other more =>
        rw [List.cons_append, List.cons.injEq] at hlater
        obtain ⟨rfl, -⟩ := hlater
        exact absurd ⟨access, List.mem_append_right _ List.mem_cons_self, hunknown⟩ hknown

/-- Behind an unknown object in front of the cursor, every access that reads something is a use. -/
theorem not_unused_append {access : Access} (hmem : access ∈ first)
    (hunknown : LooksUpUnknown table access) (hsecond : ReadsAt second access.before) :
    ¬ Unused table (first ++ second) := by
  obtain ⟨next, rest, rfl, hbefore, hcount, hpurpose⟩ := hsecond
  obtain ⟨earlier, later, rfl⟩ := List.append_of_mem hmem
  intro h
  have hused := h earlier access (later ++ next :: rest) (by simp) hunknown next
    (List.mem_append_right _ List.mem_cons_self) hpurpose
  rw [hbefore] at hused
  omega

/-- A known part in front of something. -/
theorem Traced.append_known (hknown : ¬ HoldsUnknown table first) (h : Traced table second stop ends) :
    Traced table (first ++ second) stop ends := by
  have hholds : HoldsUnknown table (first ++ second) ↔ HoldsUnknown table second := by
    rw [holdsUnknown_append, or_iff_right hknown]
  refine ⟨fun hunknown hunused cursor hcursor ↦ ?_, fun hunknown ↦ ?_⟩
  · obtain ⟨access, hmem, hstuck⟩ := h.stuck (hholds.mp hunknown)
      ((unused_append_of_known hknown).mp hunused) cursor hcursor
    exact ⟨access, List.mem_append_right _ hmem, hstuck⟩
  · rw [unused_append_of_known hknown]
    exact h.iff (hholds.mp hunknown)

/-- An unknown object in front of something: nothing may be read there. -/
theorem Traced.append_unknown (hunknown : HoldsUnknown table first)
    (hfirst : Traced table first (some cursor) ends) (hsecond : Begins second cursor stop) :
    Traced table (first ++ second) stop (ends ∧ second = []) := by
  rcases hsecond with hreads | ⟨rfl, hstop⟩
  · have hused (hunused : Unused table (first ++ second)) : False := by
      obtain ⟨access, hmem, hlooked, rfl⟩ :=
        hfirst.stuck hunknown (unused_of_append_left hunused) cursor rfl
      exact not_unused_append hmem hlooked hreads hunused
    exact ⟨fun _ hunused ↦ (hused hunused).elim,
      fun _ ↦ iff_of_false hused fun h ↦ hreads.ne_nil h.2⟩
  · rw [List.append_nil]
    refine ⟨fun _ hunused final hfinal ↦ ?_, fun _ ↦ (hfirst.iff hunknown).trans ?_⟩
    · rw [hstop final hfinal]
      exact hfirst.stuck hunknown hunused cursor rfl
    · exact (and_iff_left rfl).symm

/-- The condition may be put in other words. -/
theorem Traced.congr (h : Traced table first stop ends) (hiff : ends ↔ ends') :
    Traced table first stop ends' :=
  ⟨h.stuck, fun hunknown ↦ (h.iff hunknown).trans hiff⟩

section Bind

variable {Value : Type} {result : Option (Value × Cursor)} {later : Value × Cursor → List Access}
  {laterStop : Value × Cursor → Option Cursor} {laterEnds : Value × Cursor → Prop}

/-- One computation after another: either the first one holds an unknown object and nothing is read
behind it, or the second one decides. -/
theorem Traced.bind (hfirst : Traced table first (result.map Prod.snd) ends)
    (hbegins : ∀ read ∈ result, Begins (later read) read.2 (laterStop read))
    (hlater : ∀ read ∈ result, Traced table (later read) (laterStop read) (laterEnds read)) :
    Traced table (first ++ result.elim [] later) (result.bind laterStop)
      ((HoldsUnknown table first → ends ∧ ∀ read, result = some read → later read = []) ∧
        (¬ HoldsUnknown table first → ∃ read, result = some read ∧ laterEnds read)) := by
  by_cases hunknown : HoldsUnknown table first
  · cases result with
    | none =>
      rw [Option.elim_none, List.append_nil]
      refine ⟨fun _ _ ↦ nofun, fun _ ↦ (hfirst.iff hunknown).trans ?_⟩
      exact ⟨fun h ↦ ⟨fun _ ↦ ⟨h, nofun⟩, absurd hunknown⟩, fun h ↦ (h.1 hunknown).1⟩
    | some read =>
      refine (hfirst.append_unknown hunknown (hbegins read rfl)).congr ⟨fun h ↦ ?_, fun h ↦ ?_⟩
      · exact ⟨fun _ ↦ ⟨h.1, fun _ hread ↦ by cases hread; exact h.2⟩, absurd hunknown⟩
      · exact ⟨(h.1 hunknown).1, (h.1 hunknown).2 read rfl⟩
  · cases result with
    | none =>
      rw [Option.elim_none, List.append_nil]
      exact Traced.of_known hunknown
    | some read =>
      refine ((hlater read rfl).append_known hunknown).congr ⟨fun h ↦ ?_, fun h ↦ ?_⟩
      · exact ⟨fun h' ↦ absurd h' hunknown, fun _ ↦ ⟨read, rfl, h⟩⟩
      · obtain ⟨other, hother, hends⟩ := h.2 hunknown
        cases hother
        exact hends

end Bind

section Known

variable {Value : Type} {result : Option Value} {later : Value → List Access}
  {laterStop : Value → Option Cursor}

/-- A known computation in front of another one. -/
theorem Traced.after_known (hknown : ¬ HoldsUnknown table first)
    (hlater : ∀ value ∈ result, Traced table (later value) (laterStop value) ends) :
    Traced table (first ++ result.elim [] later) (result.bind laterStop) ends := by
  cases result with
  | none =>
    rw [Option.elim_none, List.append_nil]
    exact Traced.of_known hknown
  | some value => exact (hlater value rfl).append_known hknown

/-- The same with a condition on what it has computed. -/
theorem Traced.bind_known {laterEnds : Value → Prop} (hknown : ¬ HoldsUnknown table first)
    (hlater : ∀ value ∈ result, Traced table (later value) (laterStop value) (laterEnds value)) :
    Traced table (first ++ result.elim [] later) (result.bind laterStop)
      (∃ value, result = some value ∧ laterEnds value) := by
  refine Traced.after_known hknown fun value hvalue ↦ (hlater value hvalue).congr ?_
  exact ⟨fun h ↦ ⟨value, hvalue, h⟩, fun ⟨other, hother, h⟩ ↦
    Option.mem_unique hvalue hother ▸ h⟩

end Known

end Trace

/-! ## Values -/

section Leaves

variable {model : DataModel} {cursor : Cursor}

theorem values_tail (len offset : ℕ) :
    ∀ access ∈ accessesTail model cursor len offset, access.purpose = .value := by
  unfold accessesTail
  rw [List.forall_mem_cons]
  refine ⟨rfl, ?_⟩
  cases cursor.addBuf len with
  | none => exact List.forall_mem_nil _
  | some bytes =>
    dsimp only [Option.elim_some]
    rw [List.forall_mem_cons]
    refine ⟨rfl, ?_⟩
    split
    · exact List.forall_mem_singleton.mpr rfl
    · exact List.forall_mem_nil _

theorem values_bytes : ∀ access ∈ accessesBytes model cursor, access.purpose = .value := by
  unfold accessesBytes
  rw [List.forall_mem_cons]
  refine ⟨rfl, ?_⟩
  cases cursor.addBuf 4 with
  | none => exact List.forall_mem_nil _
  | some bytes =>
    dsimp only [Option.elim_some]
    split
    · exact List.forall_mem_cons.mpr ⟨rfl, values_tail _ _⟩
    · exact List.forall_mem_cons.mpr ⟨rfl, values_tail _ _⟩

theorem values_mtpMessage :
    ∀ access ∈ accessesMtpMessage model cursor, access.purpose = .value := by
  have hthen {Value : Type} {accesses : List Access} {result : Option Value}
      {later : Value → List Access} (hfirst : ∀ access ∈ accesses, access.purpose = .value)
      (hlater : ∀ value, ∀ access ∈ later value, access.purpose = .value) :
      ∀ access ∈ accesses ++ result.elim [] later, access.purpose = .value := by
    rw [List.forall_mem_append]
    refine ⟨hfirst, ?_⟩
    cases result with
    | none => exact List.forall_mem_nil _
    | some value => exact hlater value
  exact hthen (List.forall_mem_singleton.mpr rfl) fun _ ↦
    hthen (List.forall_mem_singleton.mpr rfl) fun _ ↦
      hthen (List.forall_mem_singleton.mpr rfl) fun _ ↦ List.forall_mem_singleton.mpr rfl

theorem values_len : ∀ access ∈ accessesLen model cursor, access.purpose = .value := by
  unfold accessesLen
  rw [List.forall_mem_append]
  refine ⟨List.forall_mem_singleton.mpr rfl, ?_⟩
  cases deserializeUi32 model cursor with
  | none => exact List.forall_mem_nil _
  | some first =>
    dsimp only [Option.elim_some]
    split
    · exact List.forall_mem_singleton.mpr rfl
    · exact List.forall_mem_nil _

theorem reads_ui32 : ReadsAt (accessesUi32 model cursor) cursor :=
  ⟨_, _, rfl, rfl, Nat.succ_pos 3, nofun⟩

theorem reads_ui64 : ReadsAt (accessesUi64 model cursor) cursor :=
  ⟨_, _, rfl, rfl, Nat.succ_pos 7, nofun⟩

theorem reads_bytes : ReadsAt (accessesBytes model cursor) cursor :=
  ⟨_, _, rfl, rfl, Nat.succ_pos 3, nofun⟩

theorem reads_buf {size : ℤ} (hsize : 0 < (UInt32.ofInt size).toNat) :
    ReadsAt (accessesBuf model cursor size) cursor :=
  ⟨_, _, rfl, rfl, hsize, nofun⟩

end Leaves

/-! ## The place of an unknown object -/

/-- With the flags words read so far, the statements for the arguments read nothing. -/
def Silent (flags : List UInt32) : List Arg → Prop
  | [] => True
  | arg :: rest =>
    match arg.type with
    | none => ¬ arg.isFlags ∧ Silent flags rest
    | some type =>
      match argPresent flags arg with
      | none => True
      | some false => Silent flags rest
      | some true => type = "true" ∧ Silent flags rest

section Ends

variable (model : DataModel) (table : List Method) (readObject : ObjectReader)
  (objectAccesses : Cursor → List Access) (endsObject : Cursor → Prop)

/-- The loop over the elements of a vector ends with an unknown object: it is inside the last
element. -/
def EndsElems (elem : String) : ℕ → Cursor → Prop
  | 0, _ => False
  | count + 1, cursor =>
    (HoldsUnknown table (accessesElem model objectAccesses elem cursor) →
      endsObject cursor ∧ ∀ first, deserializeElem model readObject elem cursor = some first →
        count = 0) ∧
    (¬ HoldsUnknown table (accessesElem model objectAccesses elem cursor) →
      ∃ first, deserializeElem model readObject elem cursor = some first ∧
        EndsElems elem count first.2)

/-- The value of an argument ends with an unknown object. -/
def EndsValue (type : String) (cursor : Cursor) : Prop :=
  match vectorElem type with
  | some elem => ∃ len, deserializeLen model cursor = some len ∧
      EndsElems model table readObject objectAccesses endsObject elem len.1.toNat len.2
  | none => endsObject cursor

/-- The arguments end with an unknown object: those behind it read nothing. -/
def EndsArgs : List UInt32 → List Arg → Cursor → Prop
  | _, [], _ => False
  | flags, arg :: rest, cursor =>
    match arg.type with
    | none =>
      if arg.isFlags then
        ∃ word, deserializeUi32 model cursor = some word ∧ EndsArgs (flags ++ [word.1]) rest word.2
      else EndsArgs flags rest cursor
    | some type =>
      match argPresent flags arg with
      | none => False
      | some false => EndsArgs flags rest cursor
      | some true =>
        (HoldsUnknown table (accessesValue model readObject objectAccesses type cursor) →
          EndsValue model table readObject objectAccesses endsObject type cursor ∧
            ∀ field next, deserializeValue model readObject type cursor = some (.next field next) →
              Silent flags rest) ∧
        (¬ HoldsUnknown table (accessesValue model readObject objectAccesses type cursor) →
          ∃ field next, deserializeValue model readObject type cursor = some (.next field next) ∧
            EndsArgs flags rest next)

/-- The object of a constructor ends with an unknown object. -/
def EndsMethod (method : Method) (cursor : Cursor) : Prop :=
  ∃ id, deserializeUi32 model cursor = some id ∧
    if method.name = "vector" then
      ∃ len, deserializeUi32 model id.2 = some len ∧
        EndsArgs model table readObject objectAccesses endsObject [] method.args len.2
    else EndsArgs model table readObject objectAccesses endsObject [] method.args id.2

end Ends

/-- The object at a cursor is unknown or ends with an unknown object, up to a nesting depth of
`fuel`. -/
def EndsFuel (model : DataModel) (table : List Method) : ℕ → Cursor → Prop
  | 0, _ => True
  | fuel + 1, cursor =>
    ∀ bytes, cursor.read 4 = some bytes → getUi32 bytes ≠ 0 →
      ∀ method, getFun table (getUi32 bytes) = some method →
        EndsMethod model table (tlDeserializeFuel model table fuel) (accessesFuel model table fuel)
          (EndsFuel model table fuel) method cursor

/-! ## Every decoder -/

/-- Where the statements for an argument leave the cursor, if the function goes on. -/
def Flow.cursor : Flow → Option Cursor
  | .next _ cursor => some cursor
  | .stop _ _ => none

section Fields

variable {model : DataModel} {table : List Method} {readObject : ObjectReader}
  {objectAccesses : Cursor → List Access} {endsObject : Cursor → Prop}

/-- An object begins with the lookup of its id, and is traced. -/
structure ObjectTraced (table : List Method) (readObject : ObjectReader)
    (objectAccesses : Cursor → List Access) (endsObject : Cursor → Prop) (cursor : Cursor) :
    Prop where
  reads : ReadsAt (objectAccesses cursor) cursor
  traced : Traced table (objectAccesses cursor) ((readObject cursor).map Prod.snd)
    (endsObject cursor)

/-- A field in front of the others does not move the cursor. -/
theorem snd_map_cons (field : Field) (result : Option (List Field × Cursor)) :
    (result.map (Prod.map (field :: ·) id)).map Prod.snd = result.map Prod.snd := by
  rw [Option.map_map]
  rfl

/-- Where the arguments leave the cursor, with a flags word in front. -/
theorem stop_flags {arg : Arg} (htype : arg.type = none) (hflags : arg.isFlags = true)
    (flags : List UInt32) (rest : List Arg) (cursor : Cursor) :
    (deserializeArgs model readObject flags (arg :: rest) cursor).map Prod.snd =
      (deserializeUi32 model cursor).bind fun word ↦
        (deserializeArgs model readObject (flags ++ [word.1]) rest word.2).map Prod.snd := by
  rw [deserializeArgs_flags htype hflags, Option.map_bind]
  exact congrArg (Option.bind (deserializeUi32 model cursor))
    (funext fun word ↦ snd_map_cons (zeroField arg) _)

variable (objectAccesses) in
/-- The same for an argument that is not read. -/
theorem stop_skipped {arg : Arg} {flags : List UInt32}
    (hskipped : (arg.type = none ∧ arg.isFlags = false) ∨
      (arg.type ≠ none ∧ argPresent flags arg = some false))
    (rest : List Arg) (cursor : Cursor) :
    (deserializeArgs model readObject flags (arg :: rest) cursor).map Prod.snd =
        (deserializeArgs model readObject flags rest cursor).map Prod.snd ∧
      accessesArgs model readObject objectAccesses flags (arg :: rest) cursor =
        accessesArgs model readObject objectAccesses flags rest cursor := by
  rcases hskipped with ⟨htype, hflags⟩ | ⟨htype, hpresent⟩
  · rw [deserializeArgs_untyped htype hflags, snd_map_cons]
    simp only [accessesArgs, htype, hflags, Bool.false_eq_true, if_false, and_true]
  · obtain ⟨type, htype⟩ := Option.ne_none_iff_exists'.mp htype
    rw [deserializeArgs_absent htype hpresent, snd_map_cons]
    simp only [accessesArgs, htype, hpresent, and_true]

/-- The same for an argument that is read. -/
theorem stop_present {arg : Arg} {flags : List UInt32} {type : String} (htype : arg.type = some type)
    (hpresent : argPresent flags arg = some true) (rest : List Arg) (cursor : Cursor) :
    (deserializeArgs model readObject flags (arg :: rest) cursor).map Prod.snd =
      (deserializeValue model readObject type cursor).bind fun
        | .next _ cursor => (deserializeArgs model readObject flags rest cursor).map Prod.snd
        | .stop _ cursor => some cursor := by
  rw [deserializeArgs_present htype hpresent, Option.map_bind]
  refine congrArg (Option.bind (deserializeValue model readObject type cursor))
    (funext fun flow ↦ ?_)
  cases flow with
  | next field next => exact snd_map_cons field _
  | stop field next => rfl

variable (model readObject objectAccesses) in
theorem accesses_present {arg : Arg} {flags : List UInt32} {type : String}
    (htype : arg.type = some type) (hpresent : argPresent flags arg = some true) (rest : List Arg)
    (cursor : Cursor) :
    accessesArgs model readObject objectAccesses flags (arg :: rest) cursor =
      accessesValue model readObject objectAccesses type cursor ++
        (deserializeValue model readObject type cursor).elim [] fun
          | .next _ cursor => accessesArgs model readObject objectAccesses flags rest cursor
          | .stop _ _ => [] := by
  rw [accessesArgs, htype]
  dsimp only
  split
  case h_1 h => cases hpresent.symm.trans h
  case h_2 h => cases hpresent.symm.trans h
  case h_3 => rfl

/-- A vector whose length is refused holds no object. -/
theorem vector_refused {elem : String} {cursor final : Cursor} {field : Field}
    (hstop : deserializeVector model readObject elem cursor = some (.stop field final)) :
    ¬ HoldsUnknown table (accessesVector model readObject objectAccesses elem cursor) := by
  rw [deserializeVector, Option.bind_eq_bind, Option.bind_eq_some_iff] at hstop
  obtain ⟨len, hlen, hstop⟩ := hstop
  dsimp only at hstop
  split at hstop
  case isTrue hbad =>
    apply not_holdsUnknown_of_values
    rw [accessesVector, hlen, Option.elim_some, if_pos hbad, List.append_nil]
    exact values_len
  case isFalse hgood =>
    rw [Option.bind_eq_bind, Option.bind_eq_some_iff] at hstop
    obtain ⟨elems, -, heq⟩ := hstop
    cases heq

variable (hobject : ∀ cursor, ObjectTraced table readObject objectAccesses endsObject cursor)

include hobject

theorem elem_reads (elem : String) (cursor : Cursor) :
    ReadsAt (accessesElem model objectAccesses elem cursor) cursor := by
  unfold accessesElem
  split
  · exact reads_ui32
  split
  · exact reads_ui64
  split
  · exact reads_bytes
  split
  · exact reads_ui64.append _
  · exact (hobject cursor).reads

variable (model) in
theorem elem_traced (elem : String) (cursor : Cursor) :
    Traced table (accessesElem model objectAccesses elem cursor)
      ((deserializeElem model readObject elem cursor).map Prod.snd) (endsObject cursor) := by
  unfold accessesElem
  split
  · exact .of_known (not_holdsUnknown_of_values (List.forall_mem_singleton.mpr rfl))
  split
  · exact .of_known (not_holdsUnknown_of_values (List.forall_mem_singleton.mpr rfl))
  split
  · exact .of_known (not_holdsUnknown_of_values values_bytes)
  split
  · exact .of_known (not_holdsUnknown_of_values values_mtpMessage)
  case isFalse hint hlong hbytes hmessage =>
    obtain ⟨hint, hbool⟩ := not_or.mp hint
    obtain ⟨hlong, hdouble⟩ := not_or.mp hlong
    rw [deserializeElem, if_neg hint, if_neg hbool, if_neg hlong, if_neg hdouble, if_neg hbytes,
      if_neg hmessage, Option.map_map]
    exact (hobject cursor).traced

variable (model) in
theorem elems_begins (elem : String) (count : ℕ) (cursor : Cursor) :
    Begins (accessesElems model readObject objectAccesses elem count cursor) cursor
        ((deserializeElems model readObject elem count cursor).map Prod.snd) ∧
      (accessesElems model readObject objectAccesses elem count cursor = [] ↔ count = 0) := by
  cases count with
  | zero => exact ⟨.inr ⟨rfl, fun final hfinal ↦ by cases hfinal; rfl⟩, iff_of_true rfl rfl⟩
  | succ count =>
    have hreads : ReadsAt (accessesElems model readObject objectAccesses elem (count + 1) cursor)
        cursor := (elem_reads hobject elem cursor).append _
    exact ⟨.inl hreads, iff_of_false hreads.ne_nil (Nat.succ_ne_zero count)⟩

theorem elems_traced (elem : String) (count : ℕ) (cursor : Cursor) :
    Traced table (accessesElems model readObject objectAccesses elem count cursor)
      ((deserializeElems model readObject elem count cursor).map Prod.snd)
      (EndsElems model table readObject objectAccesses endsObject elem count cursor) := by
  induction count generalizing cursor with
  | zero => exact .of_known (not_holdsUnknown_of_values (List.forall_mem_nil _))
  | succ count ih =>
    have hstop : (deserializeElems model readObject elem (count + 1) cursor).map Prod.snd =
        (deserializeElem model readObject elem cursor).bind fun first ↦
          (deserializeElems model readObject elem count first.2).map Prod.snd := by
      rw [deserializeElems, Option.bind_eq_bind, Option.map_bind]
      congr 1
      funext first
      rw [Function.comp_apply, Option.bind_eq_bind, Option.map_bind, Option.map_eq_bind]
      rfl
    rw [hstop]
    have hboth := (elem_traced model hobject elem cursor).bind
      (fun first _ ↦ (elems_begins model hobject elem count first.2).1)
      (fun first _ ↦ ih first.2)
    refine hboth.congr (and_congr_left' (forall_congr' fun _ ↦ and_congr_right' ?_))
    exact forall₂_congr fun first _ ↦ (elems_begins model hobject elem count first.2).2

theorem value_reads {type : String} (htype : type ≠ "true") (cursor : Cursor) :
    ReadsAt (accessesValue model readObject objectAccesses type cursor) cursor := by
  rw [accessesValue, if_neg htype]
  split
  · exact reads_ui32
  split
  · exact reads_ui64
  split
  · exact reads_bytes
  split
  · exact reads_buf (by decide)
  split
  · exact reads_buf (by decide)
  split
  · exact (reads_ui32.append _).append _
  · exact (hobject cursor).reads

theorem vector_traced (elem : String) (cursor : Cursor) :
    Traced table (accessesVector model readObject objectAccesses elem cursor)
      ((deserializeVector model readObject elem cursor).bind Flow.cursor)
      (∃ len, deserializeLen model cursor = some len ∧
        EndsElems model table readObject objectAccesses endsObject elem len.1.toNat len.2) := by
  have hlater (len : UInt32 × Cursor) :
      Traced table
        (if intOfUi32 len.1 < 0 ∨ 10000 < intOfUi32 len.1 then []
          else accessesElems model readObject objectAccesses elem len.1.toNat len.2)
        (if intOfUi32 len.1 < 0 ∨ 10000 < intOfUi32 len.1 then none
          else (deserializeElems model readObject elem len.1.toNat len.2).map Prod.snd)
        (EndsElems model table readObject objectAccesses endsObject elem len.1.toNat len.2) := by
    split
    · exact .of_known (not_holdsUnknown_of_values (List.forall_mem_nil _))
    · exact elems_traced hobject elem len.1.toNat len.2
  have hstop : (deserializeVector model readObject elem cursor).bind Flow.cursor =
      (deserializeLen model cursor).bind fun len ↦
        if intOfUi32 len.1 < 0 ∨ 10000 < intOfUi32 len.1 then none
          else (deserializeElems model readObject elem len.1.toNat len.2).map Prod.snd := by
    rw [deserializeVector, Option.bind_eq_bind, Option.bind_assoc]
    refine congrArg (Option.bind (deserializeLen model cursor)) (funext fun len ↦ ?_)
    dsimp only
    split
    · rfl
    · rw [Option.bind_eq_bind, Option.bind_assoc, Option.map_eq_bind]
      rfl
  rw [hstop]
  exact Traced.bind_known (not_holdsUnknown_of_values values_len) fun len _ ↦ hlater len

variable (model) in
theorem value_traced (type : String) (cursor : Cursor) :
    Traced table (accessesValue model readObject objectAccesses type cursor)
        ((deserializeValue model readObject type cursor).bind Flow.cursor)
        (EndsValue model table readObject objectAccesses endsObject type cursor) ∧
      ∀ field final, deserializeValue model readObject type cursor = some (.stop field final) →
        ¬ HoldsUnknown table (accessesValue model readObject objectAccesses type cursor) := by
  have hknown {accesses : List Access} {stop : Option Cursor} {ends : Prop}
      (hvalues : ∀ access ∈ accesses, access.purpose = .value) :
      Traced table accesses stop ends ∧ (∀ field final,
        deserializeValue model readObject type cursor = some (.stop field final) →
          ¬ HoldsUnknown table accesses) :=
    ⟨.of_known (not_holdsUnknown_of_values hvalues),
      fun _ _ _ ↦ not_holdsUnknown_of_values hvalues⟩
  unfold accessesValue
  split
  · exact hknown (List.forall_mem_singleton.mpr rfl)
  split
  · exact hknown (List.forall_mem_nil _)
  split
  · exact hknown (List.forall_mem_singleton.mpr rfl)
  split
  · exact hknown values_bytes
  split
  · exact hknown (List.forall_mem_singleton.mpr rfl)
  split
  · exact hknown (List.forall_mem_singleton.mpr rfl)
  case isFalse hint htrue hlong hbytes h128 h256 =>
    obtain ⟨hint, hbool⟩ := not_or.mp hint
    obtain ⟨hlong, hdouble⟩ := not_or.mp hlong
    simp only [deserializeValue, hint, htrue, hbool, hlong, hdouble, hbytes, h128, h256, if_false]
    unfold EndsValue
    cases vectorElem type with
    | some elem => exact ⟨vector_traced hobject elem cursor, fun _ _ ↦ vector_refused⟩
    | none =>
      dsimp only
      refine ⟨?_, fun _ _ hstop ↦ ?_⟩
      · have hstop : ((readObject cursor).map fun read ↦ Flow.next (.object read.1) read.2).bind
            Flow.cursor = (readObject cursor).map Prod.snd := by
          cases readObject cursor <;> rfl
        rw [hstop]
        exact (hobject cursor).traced
      · obtain ⟨read, -, heq⟩ := Option.map_eq_some_iff.mp hstop
        cases heq

variable (model) in
theorem args_begins (flags : List UInt32) (args : List Arg) (cursor : Cursor) :
    Begins (accessesArgs model readObject objectAccesses flags args cursor) cursor
        ((deserializeArgs model readObject flags args cursor).map Prod.snd) ∧
      (accessesArgs model readObject objectAccesses flags args cursor = [] ↔ Silent flags args) := by
  have hread {args : List Arg}
      (hreads : ReadsAt (accessesArgs model readObject objectAccesses flags args cursor) cursor)
      (hsilent : ¬ Silent flags args) :
      Begins (accessesArgs model readObject objectAccesses flags args cursor) cursor
          ((deserializeArgs model readObject flags args cursor).map Prod.snd) ∧
        (accessesArgs model readObject objectAccesses flags args cursor = [] ↔ Silent flags args) :=
    ⟨.inl hreads, iff_of_false hreads.ne_nil hsilent⟩
  induction args with
  | nil => exact ⟨.inr ⟨rfl, fun final hfinal ↦ by cases hfinal; rfl⟩, iff_of_true rfl trivial⟩
  | cons arg rest ih =>
    cases htype : arg.type with
    | none =>
      cases hflags : arg.isFlags with
      | true =>
        apply hread
        · simp only [accessesArgs, htype, hflags, if_true]
          exact reads_ui32.append _
        · simp [Silent, htype, hflags]
      | false =>
        obtain ⟨hstop, haccesses⟩ : _ ∧ _ :=
          stop_skipped objectAccesses (.inl ⟨htype, hflags⟩) rest cursor
        rw [hstop, haccesses]
        simpa [Silent, htype, hflags] using ih
    | some type =>
      cases hpresent : argPresent flags arg with
      | none =>
        have haccesses : accessesArgs model readObject objectAccesses flags (arg :: rest) cursor = [] := by
          simp only [accessesArgs, htype, hpresent]
        have hresult : deserializeArgs model readObject flags (arg :: rest) cursor = none := by
          simp only [deserializeArgs, htype, hpresent, Option.bind_eq_bind, Option.bind_none]
        rw [haccesses, hresult]
        exact ⟨.inr ⟨rfl, fun final hfinal ↦ by cases hfinal⟩,
          iff_of_true rfl (by simp [Silent, htype, hpresent])⟩
      | some present =>
        cases present with
        | false =>
          obtain ⟨hstop, haccesses⟩ : _ ∧ _ :=
            stop_skipped objectAccesses (.inr ⟨by simp [htype], hpresent⟩) rest cursor
          rw [hstop, haccesses]
          simpa [Silent, htype, hpresent] using ih
        | true =>
          have haccesses := accesses_present model readObject objectAccesses htype hpresent rest
            cursor
          by_cases htrue : type = "true"
          · have hvalue : deserializeValue model readObject type cursor =
                some (.next (.bool true) cursor) := by simp [deserializeValue, htrue]
            have hnone : accessesValue model readObject objectAccesses type cursor = [] := by
              simp [accessesValue, htrue]
            rw [stop_present htype hpresent, haccesses, hvalue, hnone]
            simpa [Silent, htype, hpresent, htrue] using ih
          · apply hread
            · rw [haccesses]
              exact (value_reads hobject htrue cursor).append _
            · simp [Silent, htype, hpresent, htrue]

variable (model) in
theorem args_traced (flags : List UInt32) (args : List Arg) (cursor : Cursor) :
    Traced table (accessesArgs model readObject objectAccesses flags args cursor)
      ((deserializeArgs model readObject flags args cursor).map Prod.snd)
      (EndsArgs model table readObject objectAccesses endsObject flags args cursor) := by
  induction args generalizing flags cursor with
  | nil => exact .of_known (not_holdsUnknown_of_values (List.forall_mem_nil _))
  | cons arg rest ih =>
    cases htype : arg.type with
    | none =>
      cases hflags : arg.isFlags with
      | true =>
        rw [stop_flags htype hflags]
        simp only [accessesArgs, EndsArgs, htype, hflags, if_true]
        exact Traced.bind_known
          (not_holdsUnknown_of_values (List.forall_mem_singleton.mpr rfl))
          fun word _ ↦ ih (flags ++ [word.1]) word.2
      | false =>
        obtain ⟨hstop, haccesses⟩ : _ ∧ _ :=
          stop_skipped objectAccesses (.inl ⟨htype, hflags⟩) rest cursor
        rw [hstop, haccesses]
        simpa [EndsArgs, htype, hflags] using ih flags cursor
    | some type =>
      cases hpresent : argPresent flags arg with
      | none =>
        simp only [accessesArgs, htype, hpresent]
        exact .of_known (not_holdsUnknown_of_values (List.forall_mem_nil _))
      | some present =>
        cases present with
        | false =>
          obtain ⟨hstop, haccesses⟩ : _ ∧ _ :=
            stop_skipped objectAccesses (.inr ⟨by simp [htype], hpresent⟩) rest cursor
          rw [hstop, haccesses]
          simpa [EndsArgs, htype, hpresent] using ih flags cursor
        | true =>
          obtain ⟨hvalue, hrefused⟩ := value_traced model hobject type cursor
          have hbind (result : Option (Field × Cursor)) (hresult : result.map Prod.snd =
              (deserializeValue model readObject type cursor).bind Flow.cursor) :=
            (hresult ▸ hvalue).bind
              (fun read _ ↦ (args_begins model hobject flags rest read.2).1)
              fun read _ ↦ ih flags read.2
          rw [stop_present htype hpresent, accesses_present model readObject objectAccesses htype hpresent]
          simp only [EndsArgs, htype, hpresent]
          cases hflow : deserializeValue model readObject type cursor with
          | none =>
            exact (hbind none (by rw [hflow]; rfl)).congr (by simp)
          | some flow =>
            cases flow with
            | stop field final =>
              rw [Option.elim_some, List.append_nil]
              exact .of_known (hrefused field final hflow)
            | next field next =>
              refine (hbind (some (field, next)) (by rw [hflow]; rfl)).congr ?_
              simp [(args_begins model hobject flags rest next).2]

theorem method_traced (method : Method) (cursor : Cursor) :
    Traced table (accessesMethod model readObject objectAccesses method cursor)
      ((deserializeMethod model readObject method cursor).map Prod.snd)
      (EndsMethod model table readObject objectAccesses endsObject method cursor) := by
  have hcopy (cursor : Cursor) (count : ℕ) : ¬ HoldsUnknown table [accessCopy cursor count] :=
    not_holdsUnknown_of_values (List.forall_mem_singleton.mpr rfl)
  have hui32 (cursor : Cursor) : ¬ HoldsUnknown table (accessesUi32 model cursor) :=
    not_holdsUnknown_of_values (List.forall_mem_singleton.mpr rfl)
  have hargs (cursor : Cursor) := args_traced model hobject [] method.args cursor
  simp only [Option.map_eq_bind, Function.comp_def] at hargs
  unfold accessesMethod deserializeMethod EndsMethod
  by_cases hname : method.name = "vector"
  · simp only [hname, if_true, Option.bind_eq_bind, Option.map_bind, Function.comp_def,
      Option.map_some]
    exact Traced.after_known (hcopy _ _) fun buf _ ↦ Traced.bind_known (hui32 _) fun id _ ↦
      Traced.bind_known (hui32 _) fun len _ ↦ Traced.after_known (hcopy _ _) fun data _ ↦
        hargs len.2
  · simp only [hname, if_false, Option.bind_eq_bind, Option.map_bind, Function.comp_def,
      Option.map_some]
    exact Traced.after_known (hcopy _ _) fun buf _ ↦ Traced.bind_known (hui32 _) fun id _ ↦
      hargs id.2

end Fields

section Table

variable (model : DataModel) (table : List Method)

/-- The lookup of an unknown id, and the dump behind it. -/
theorem traced_lookup {cursor : Cursor} {dumps : List Access} {stop : Option Cursor}
    (hstop : ∀ final ∈ stop, final = cursor) (hdumps : ∀ access ∈ dumps, access.purpose = .dump) :
    Traced table (⟨cursor, 4, cursor, .id⟩ :: dumps) stop True := by
  refine ⟨fun hunknown _ final hfinal ↦ ?_, fun _ ↦ iff_of_true ?_ trivial⟩
  · obtain rfl := hstop final hfinal
    obtain ⟨access, hmem, hlooked⟩ := hunknown
    rcases List.mem_cons.mp hmem with rfl | hdump
    · exact ⟨_, List.mem_cons_self, hlooked, rfl⟩
    · rw [LooksUpUnknown, hdumps access hdump] at hlooked
      cases hlooked.1
  · intro earlier access later heq hlooked next hnext hpurpose
    cases earlier with
    | nil =>
      rw [List.nil_append, List.cons.injEq] at heq
      exact absurd (hdumps next (heq.2 ▸ hnext)) hpurpose
    | cons first earlier =>
      rw [List.cons_append, List.cons.injEq] at heq
      have hmem : access ∈ dumps := heq.2 ▸ List.mem_append_right _ List.mem_cons_self
      rw [LooksUpUnknown, hdumps access hmem] at hlooked
      cases hlooked.1

theorem object_traced (fuel : ℕ) (cursor : Cursor) :
    ObjectTraced table (tlDeserializeFuel model table fuel) (accessesFuel model table fuel)
      (EndsFuel model table fuel) cursor := by
  induction fuel generalizing cursor with
  | zero =>
    exact ⟨⟨_, _, rfl, rfl, Nat.succ_pos 3, nofun⟩, traced_lookup table nofun (List.forall_mem_nil _)⟩
  | succ fuel ih =>
    refine ⟨⟨_, _, rfl, rfl, Nat.succ_pos 3, nofun⟩, ?_⟩
    rw [accessesFuel, tlDeserializeFuel, EndsFuel]
    cases hread : cursor.read 4 with
    | none =>
      exact (traced_lookup table (by simp) (List.forall_mem_nil _)).congr (by simp)
    | some bytes =>
      simp only [Option.elim_some, Option.bind_eq_bind, Option.bind_some]
      by_cases hzero : getUi32 bytes = 0
      · rw [if_pos hzero, if_pos hzero]
        refine (traced_lookup table (fun final hfinal ↦ ?_) (List.forall_mem_nil _)).congr ?_
        · cases hfinal
          rfl
        · simp [hzero]
      · rw [if_neg hzero, if_neg hzero]
        cases hmethod : getFun table (getUi32 bytes) with
        | none =>
          refine (traced_lookup table (fun final hfinal ↦ ?_)
            (List.forall_mem_singleton.mpr rfl)).congr ?_
          · cases hfinal
            rfl
          · simp [hmethod]
        | some method =>
          have hknown : ¬ HoldsUnknown table [⟨cursor, 4, cursor, .id⟩] := by
            rintro ⟨access, hmem, -, found, hfound, hunknown⟩
            rw [List.mem_singleton] at hmem
            subst hmem
            rw [hread] at hfound
            cases hfound
            rcases hunknown with h | h
            · exact hzero h
            · rw [hmethod] at h
              cases h
          have hstop : ((deserializeMethod model (tlDeserializeFuel model table fuel) method
              cursor).bind fun read ↦ some (some read.1, read.2)).map Prod.snd =
                (deserializeMethod model (tlDeserializeFuel model table fuel) method cursor).map
                  Prod.snd := by
            rw [Option.map_bind, Option.map_eq_bind]
            rfl
          dsimp only
          rw [hstop]
          exact ((method_traced ih method cursor).append_known hknown).congr
            (by simp [hzero, hmethod])

end Table

end LibTg.Tl
