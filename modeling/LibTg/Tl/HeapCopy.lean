import LibTg.Tl.Bounds
import LibTg.Tl.EmitterSpec
import LibTg.Tl.Relocate

/-!
# Decoding a buffer twice

An object keeps a copy of the buffer that it was read from, and this copy can be decoded again. The
second object differs from the first one in the numbers of its blocks only, and `tl_free` of the one
releases no block of the other.
-/

namespace LibTg.Tl

/-! ## Objects up to their blocks -/

mutual

/-- An object without the numbers of its blocks. -/
def HeapObj.unplaced : HeapObj → HeapObj
  | .mk _ method flags values => .mk 0 method flags (HeapValue.allUnplaced values)

/-- A value without the numbers of its blocks. -/
def HeapValue.unplaced : HeapValue → HeapValue
  | .buf _ bytes => .buf 0 bytes
  | .message message _ => .message message 0
  | .pointer (some obj) => .pointer (some obj.unplaced)
  | .array _ elems => .array 0 (HeapValue.allUnplaced elems)
  | value => value

/-- Several values without the numbers of their blocks. -/
def HeapValue.allUnplaced : List HeapValue → List HeapValue
  | [] => []
  | value :: rest => value.unplaced :: HeapValue.allUnplaced rest

end

theorem allUnplaced_eq_map (values : List HeapValue) :
    HeapValue.allUnplaced values = values.map HeapValue.unplaced := by
  induction values with
  | nil => rfl
  | cons value rest ih => rw [HeapValue.allUnplaced, ih, List.map_cons]

theorem buf_unplaced (obj : HeapObj) : obj.unplaced.buf = obj.buf := by
  obtain ⟨block, method, flags, values⟩ := obj
  match values with
  | [] => rfl
  | [_] => rfl
  | _ :: .buf _ _ :: _ => rfl
  | _ :: .pointer (some _) :: _ => rfl
  | _ :: .pointer none :: _ => rfl
  | _ :: .zero :: _ => rfl
  | _ :: .word _ :: _ => rfl
  | _ :: .long _ :: _ => rfl
  | _ :: .double _ :: _ => rfl
  | _ :: .bool _ :: _ => rfl
  | _ :: .message _ _ :: _ => rfl
  | _ :: .array _ _ :: _ => rfl

/-- The members of a struct without the numbers of their blocks. -/
def Memory.unplaced (memory : Memory) : Memory := memory.map (Prod.map id HeapValue.unplaced)

theorem map_snd_unplaced (memory : Memory) :
    memory.unplaced.map Prod.snd = HeapValue.allUnplaced (memory.map Prod.snd) := by
  rw [allUnplaced_eq_map, Memory.unplaced, List.map_map, List.map_map]
  rfl

theorem set_unplaced (memory : Memory) (name : List Char) (value : HeapValue) :
    memory.unplaced.set name value.unplaced = (memory.set name value).map Memory.unplaced := by
  have hnames : memory.unplaced.map Prod.fst = memory.map Prod.fst := by
    rw [Memory.unplaced, List.map_map]
    rfl
  unfold Memory.set
  rw [hnames, apply_ite (Option.map Memory.unplaced)]
  congr 1
  rw [Option.map_some, Memory.unplaced, Memory.unplaced, List.map_map, List.map_map]
  congr 1
  apply List.map_congr_left
  intro member _
  simp only [Function.comp, Prod.map_fst, id_eq]
  split <;> rfl

/-- An assignment to structs that differ in their blocks only. -/
theorem set_of_unplaced {memory other after : Memory} {name : List Char} {value value' : HeapValue}
    (hmemory : other.unplaced = memory.unplaced) (hvalue : value'.unplaced = value.unplaced)
    (hset : memory.set name value = some after) :
    ∃ after', other.set name value' = some after' ∧ after'.unplaced = after.unplaced := by
  have hsame := set_unplaced other name value'
  rw [hmemory, hvalue, set_unplaced, hset, Option.map_some, eq_comm, Option.map_eq_some_iff] at hsame
  exact hsame

/-! ## The decoder at another place -/

section Relocate

variable {model : DataModel} {before after : Bytes}

/-- Two decoders that have read the same bytes and have assigned the same values in other blocks. -/
structure SameDecoding (model : DataModel) (before after : Bytes) (inner outer : Decoding) : Prop where
  flags : outer.flags = inner.flags
  memory : outer.memory.unplaced = inner.memory.unplaced
  cursor : Relocated model before after inner.cursor outer.cursor

/-- Two assignments that have ended alike. -/
inductive SameEnding (model : DataModel) (before after : Bytes) : Ending → Ending → Prop
  | next {inner outer : Decoding} (h : SameDecoding model before after inner outer) :
    SameEnding model before after (.next inner) (.next outer)
  | stop {inner outer : Decoding} (h : SameDecoding model before after inner outer) :
    SameEnding model before after (.stop inner) (.stop outer)

/-- What `read` builds at a cursor, `reread` builds in other blocks at a cursor in a larger block. -/
def HeapRelocates (model : DataModel) (before after : Bytes) {Value : Type*} (plain : Value → Value)
    (read reread : Cursor → ℕ → Option (Value × Cursor × ℕ)) : Prop :=
  ∀ inner outer next next' value cursor upper, Relocated model before after inner outer →
    read inner next = some (value, cursor, upper) →
    ∃ value' cursor' upper', reread outer next' = some (value', cursor', upper') ∧
      plain value' = plain value ∧ Relocated model before after cursor cursor'

/-- A reader that leaves its result in at most one new block. -/
theorem Relocates.heap {Result : Type} {read : Cursor → Option (Result × Cursor)}
    (h : Relocates model before after read read) (pack : ℕ → Result → HeapValue) (grown : ℕ → ℕ)
    (hpack : ∀ next next' result, (pack next' result).unplaced = (pack next result).unplaced) :
    HeapRelocates model before after HeapValue.unplaced
      (fun cursor next ↦ (read cursor).map fun result ↦ (pack next result.1, result.2, grown next))
      (fun cursor next ↦
        (read cursor).map fun result ↦ (pack next result.1, result.2, grown next)) := by
  intro inner outer next next' value cursor upper hinner hread
  obtain ⟨⟨result, middle⟩, hresult, heq⟩ := Option.map_eq_some_iff.mp hread
  obtain ⟨moved, hmoved, hmiddle⟩ := h inner outer result middle hinner hresult
  cases heq
  exact ⟨pack next' result, moved, grown next', Option.map_eq_some_iff.mpr ⟨_, hmoved, rfl⟩,
    hpack next next' result, hmiddle⟩

section Object

variable {readObject rereadObject : HeapReader}
  (hobject : HeapRelocates model before after (Option.map HeapObj.unplaced) readObject rereadObject)

include hobject

theorem heapRelocates_value (reader : Reader) :
    HeapRelocates model before after HeapValue.unplaced (readValue model readObject reader)
      (readValue model rereadObject reader) := by
  cases reader with
  | ui32 => exact relocates_ui32.heap (fun _ value ↦ .word value) id fun _ _ _ ↦ rfl
  | ui64 => exact relocates_ui64.heap (fun _ value ↦ .long value) id fun _ _ _ ↦ rfl
  | double => exact relocates_double.heap (fun _ bits ↦ .double bits) id fun _ _ _ ↦ rfl
  | bytes => exact relocates_bytes.heap .buf (· + 1) fun _ _ _ ↦ rfl
  | buf size => exact (relocates_buf size).heap .buf (· + 1) fun _ _ _ ↦ rfl
  | copy =>
    intro inner outer next next' value cursor upper hinner hread
    obtain ⟨bytes, hbytes, heq⟩ := Option.map_eq_some_iff.mp hread
    cases heq
    refine ⟨.buf next' bytes, outer, next' + 1, ?_, rfl, hinner⟩
    rw [readValue, hinner.size, hinner.addBuf hbytes, Option.map_some]
  | message =>
    exact relocates_mtpMessage.heap (fun next message ↦ .message message next) (· + 1)
      fun _ _ _ ↦ rfl
  | object =>
    intro inner outer next next' value cursor upper hinner hread
    obtain ⟨⟨object, middle, last⟩, hfound, heq⟩ := Option.map_eq_some_iff.mp hread
    obtain ⟨object', middle', last', hmoved, hsame, hmiddle⟩ :=
      hobject inner outer next next' object middle last hinner hfound
    cases heq
    refine ⟨.pointer object', middle', last', Option.map_eq_some_iff.mpr ⟨_, hmoved, rfl⟩, ?_,
      hmiddle⟩
    cases object with
    | none =>
      rw [Option.map_none, Option.map_eq_none_iff] at hsame
      rw [hsame]
    | some object =>
      rw [Option.map_some, Option.map_eq_some_iff] at hsame
      obtain ⟨found, rfl, hfound⟩ := hsame
      exact congrArg (HeapValue.pointer ∘ some) hfound

theorem heapRelocates_values (reader : Reader) (count : ℕ) :
    HeapRelocates model before after HeapValue.allUnplaced
      (readValues model readObject reader count) (readValues model rereadObject reader count) := by
  induction count with
  | zero =>
    intro inner outer next next' value cursor upper hinner hread
    cases hread
    exact ⟨_, _, _, rfl, rfl, hinner⟩
  | succ count ih =>
    intro inner outer next next' value cursor upper hinner hread
    rw [readValues, Option.bind_eq_bind, Option.bind_eq_some_iff] at hread
    obtain ⟨⟨first, middle, low⟩, hfirst, hread⟩ := hread
    rw [Option.bind_eq_bind, Option.bind_eq_some_iff] at hread
    obtain ⟨⟨rest, final, high⟩, hrest, heq⟩ := hread
    obtain ⟨first', middle', low', hfirst', hsame, hmiddle⟩ :=
      heapRelocates_value hobject reader inner outer next next' first middle low hinner hfirst
    obtain ⟨rest', final', high', hrest', hsames, hfinal⟩ :=
      ih middle middle' low low' rest final high hmiddle hrest
    cases heq
    refine ⟨first' :: rest', final', high', ?_, ?_, hfinal⟩
    · rw [readValues, hfirst', Option.bind_eq_bind, Option.bind_some]
      dsimp only
      rw [hrest']
      rfl
    · rw [HeapValue.allUnplaced, HeapValue.allUnplaced, hsame, hsames]

theorem sameEnding_assign (assign : Assign) {inner outer : Decoding}
    (hinner : SameDecoding model before after inner outer) {ending : Ending}
    (hrun : runAssign model readObject assign inner = some ending) :
    ∃ ending', runAssign model rereadObject assign outer = some ending' ∧
      SameEnding model before after ending ending' := by
  cases assign with
  | true member =>
    rw [runAssign, Option.bind_eq_bind, Option.bind_eq_some_iff] at hrun
    obtain ⟨memory, hset, heq⟩ := hrun
    obtain ⟨memory', hset', hsame⟩ := set_of_unplaced hinner.memory rfl hset
    cases heq
    rw [runAssign, hset', Option.bind_eq_bind, Option.bind_some]
    exact ⟨_, rfl, .next ⟨hinner.flags, hsame, hinner.cursor⟩⟩
  | read member reader =>
    rw [runAssign, Option.bind_eq_bind, Option.bind_eq_some_iff] at hrun
    obtain ⟨⟨value, cursor, upper⟩, hread, hrun⟩ := hrun
    rw [Option.bind_eq_bind, Option.bind_eq_some_iff] at hrun
    obtain ⟨memory, hset, heq⟩ := hrun
    obtain ⟨value', cursor', upper', hread', hvalue, hcursor⟩ := heapRelocates_value hobject reader
      inner.cursor outer.cursor inner.next outer.next value cursor upper hinner.cursor hread
    obtain ⟨memory', hset', hsame⟩ := set_of_unplaced hinner.memory hvalue hset
    cases heq
    rw [runAssign, hread', Option.bind_eq_bind, Option.bind_some]
    dsimp only
    rw [hset', Option.bind_eq_bind, Option.bind_some]
    exact ⟨_, rfl, .next ⟨hinner.flags, hsame, hcursor⟩⟩
  | vector len array elem reader =>
    rw [runAssign, Option.bind_eq_bind, Option.bind_eq_some_iff] at hrun
    obtain ⟨⟨count, cursor⟩, hcount, hrun⟩ := hrun
    rw [Option.bind_eq_bind, Option.bind_eq_some_iff] at hrun
    obtain ⟨memory, hset, hrun⟩ := hrun
    obtain ⟨cursor', hcount', hcursor⟩ :=
      relocates_len inner.cursor outer.cursor count cursor hinner.cursor hcount
    obtain ⟨memory', hset', hsame⟩ :=
      set_of_unplaced hinner.memory (rfl : (HeapValue.word count).unplaced = _) hset
    rw [runAssign, hcount', Option.bind_eq_bind, Option.bind_some]
    dsimp only at hrun ⊢
    rw [hset', Option.bind_eq_bind, Option.bind_some]
    split at hrun
    case isTrue hbad =>
      rw [if_pos hbad]
      cases hrun
      exact ⟨_, rfl, .stop ⟨hinner.flags, hsame, hcursor⟩⟩
    case isFalse hgood =>
      rw [if_neg hgood]
      split at hrun
      case isTrue hzero =>
        rw [if_pos hzero]
        cases hrun
        exact ⟨_, rfl, .next ⟨hinner.flags, hsame, hcursor⟩⟩
      case isFalse hzero =>
        rw [if_neg hzero]
        rw [Option.bind_eq_bind, Option.bind_eq_some_iff] at hrun
        obtain ⟨⟨elems, final, upper⟩, helems, hrun⟩ := hrun
        obtain ⟨filled, hfilled, heq⟩ := Option.bind_eq_some_iff.mp hrun
        obtain ⟨elems', final', upper', helems', hvalues, hfinal⟩ :=
          heapRelocates_values hobject reader count.toNat cursor cursor' (inner.next + 1)
            (outer.next + 1) elems final upper hcursor helems
        have harray : (HeapValue.array outer.next elems').unplaced =
            (HeapValue.array inner.next elems).unplaced := by
          rw [HeapValue.unplaced, HeapValue.unplaced, hvalues]
        obtain ⟨filled', hfilled', hsame'⟩ := set_of_unplaced hsame harray hfilled
        cases heq
        rw [helems', Option.bind_eq_bind, Option.bind_some]
        dsimp only
        rw [hfilled', Option.bind_some]
        exact ⟨_, rfl, .next ⟨hinner.flags, hsame', hfinal⟩⟩

theorem sameDecoding_stmts (stmts : List DecodeStmt) {inner outer final : Decoding}
    (hinner : SameDecoding model before after inner outer)
    (hrun : runDecodeStmts model readObject stmts inner = some final) :
    ∃ final', runDecodeStmts model rereadObject stmts outer = some final' ∧
      SameDecoding model before after final final' := by
  induction stmts generalizing inner outer with
  | nil =>
    cases hrun
    exact ⟨outer, rfl, hinner⟩
  | cons stmt rest ih =>
    cases stmt with
    | flags =>
      rw [runDecodeStmts, Option.bind_eq_bind, Option.bind_eq_some_iff] at hrun
      obtain ⟨⟨word, cursor⟩, hword, hrun⟩ := hrun
      obtain ⟨cursor', hword', hcursor⟩ :=
        relocates_ui32 inner.cursor outer.cursor word cursor hinner.cursor hword
      rw [runDecodeStmts, hword', Option.bind_eq_bind, Option.bind_some]
      have hsame : SameDecoding model before after
          ⟨inner.flags ++ [word], inner.memory, cursor, inner.next⟩
          ⟨outer.flags ++ [word], outer.memory, cursor', outer.next⟩ :=
        ⟨by rw [hinner.flags], hinner.memory, hcursor⟩
      exact ih hsame hrun
    | assign flagn flagb assign =>
      rw [runDecodeStmts, Option.bind_eq_bind, Option.bind_eq_some_iff] at hrun
      obtain ⟨present, hpresent, hrun⟩ := hrun
      rw [runDecodeStmts, hinner.flags, hpresent, Option.bind_eq_bind, Option.bind_some]
      cases present with
      | false => exact ih hinner hrun
      | true =>
        rw [if_pos rfl, Option.bind_eq_bind, Option.bind_eq_some_iff] at hrun
        obtain ⟨ending, hending, hrun⟩ := hrun
        obtain ⟨ending', hending', hsame⟩ := sameEnding_assign hobject assign hinner hending
        rw [if_pos rfl, hending', Option.bind_eq_bind, Option.bind_some]
        cases hsame with
        | next h => exact ih h hrun
        | stop h =>
          cases hrun
          exact ⟨_, rfl, h⟩

theorem heapRelocates_method (method : Method) :
    HeapRelocates model before after HeapObj.unplaced
      (heapDeserializeMethod model readObject method)
      (heapDeserializeMethod model rereadObject method) := by
  intro inner outer next next' value cursor upper hinner hread
  unfold heapDeserializeMethod at hread ⊢
  split at hread
  case isFalse => cases hread
  case isTrue hnodup =>
    rw [if_pos hnodup]
    rw [Option.bind_eq_bind, Option.bind_eq_some_iff] at hread
    obtain ⟨decoding, hrun, heq⟩ := hread
    have hstart : SameDecoding model before after ⟨[], Memory.new method, inner, next + 1⟩
        ⟨[], Memory.new method, outer, next' + 1⟩ := ⟨rfl, rfl, hinner⟩
    obtain ⟨decoding', hrun', hsame⟩ := sameDecoding_stmts hobject _ hstart hrun
    cases heq
    rw [hrun', Option.bind_eq_bind, Option.bind_some]
    refine ⟨_, _, _, rfl, ?_, hsame.cursor⟩
    rw [HeapObj.unplaced, HeapObj.unplaced, ← map_snd_unplaced, ← map_snd_unplaced, hsame.memory,
      hsame.flags]

end Object

variable (model before after) in
/-- An object is built in the same way elsewhere, and a larger depth does no harm. -/
theorem heapRelocates_fuel (table : List Method) {fuel more : ℕ} (hle : fuel ≤ more) :
    HeapRelocates model before after (Option.map HeapObj.unplaced)
      (heapDeserializeFuel model table fuel) (heapDeserializeFuel model table more) := by
  induction fuel generalizing more with
  | zero => exact fun _ _ _ _ _ _ _ _ hread ↦ nomatch hread
  | succ fuel ih =>
    intro inner outer next next' value cursor upper hinner hread
    cases more with
    | zero => omega
    | succ more =>
      rw [heapDeserializeFuel, Option.bind_eq_bind, Option.bind_eq_some_iff] at hread
      obtain ⟨bytes, hbytes, hread⟩ := hread
      rw [heapDeserializeFuel, hinner.read hbytes, Option.bind_eq_bind, Option.bind_some]
      split at hread
      case isTrue hzero =>
        rw [if_pos hzero]
        cases hread
        exact ⟨none, outer, next', rfl, rfl, hinner⟩
      case isFalse hzero =>
        rw [if_neg hzero]
        cases hmethod : getFun table (getUi32 bytes) with
        | none =>
          rw [hmethod] at hread
          cases hread
          exact ⟨none, outer, next', rfl, rfl, hinner⟩
        | some method =>
          rw [hmethod] at hread
          rw [Option.bind_eq_bind, Option.bind_eq_some_iff] at hread
          obtain ⟨⟨object, middle, last⟩, hobject, heq⟩ := hread
          obtain ⟨object', middle', last', hmoved, hsame, hmiddle⟩ :=
            heapRelocates_method (ih (Nat.le_of_succ_le_succ hle)) method inner outer next next'
              object middle last hinner hobject
          cases heq
          dsimp only
          rw [hmoved, Option.bind_eq_bind, Option.bind_some]
          exact ⟨_, _, _, rfl, congrArg some hsame, hmiddle⟩

end Relocate

/-! ## What `tl_free` releases -/

section Free

variable {tlFree : HeapObj → Option (List ℕ)}
  (hfree : ∀ obj released, tlFree obj = some released → released ⊆ obj.owned)

theorem owned_subset_ownedAll {value : HeapValue} {values : List HeapValue}
    (hmem : value ∈ values) : value.owned ⊆ HeapValue.ownedAll values := by
  obtain ⟨before, after, rfl⟩ := List.append_of_mem hmem
  rw [ownedAll_append, HeapValue.ownedAll]
  exact fun block hblock ↦ List.mem_append_right _ (List.mem_append_left _ hblock)

theorem subset_of_releaseBoth {first second : Option (List ℕ)} {released blocks : List ℕ}
    (hreleased : Holding.releaseBoth first second = some released)
    (hfirst : ∀ earlier, first = some earlier → earlier ⊆ blocks)
    (hsecond : ∀ later, second = some later → later ⊆ blocks) : released ⊆ blocks := by
  obtain ⟨earlier, later, hearlier, hlater, rfl⟩ := Holding.releaseBoth_eq_some_iff.mp hreleased
  exact List.append_subset.mpr ⟨hfirst earlier hearlier, hsecond later hlater⟩

theorem mem_values_of_get {obj : HeapObj} {method : Method} {name : List Char} {value : HeapValue}
    (hget : (obj.memory method).get name = some value) : value ∈ obj.values := by
  obtain ⟨before, after, heq, -⟩ := List.lookup_eq_some_iff.mp hget
  have hmem : (name, value) ∈ obj.memory method := by
    rw [heq]
    exact List.mem_append_right _ List.mem_cons_self
  exact (List.of_mem_zip hmem).2

include hfree

theorem callFree_subset {call : FreeCall} {value : HeapValue} {released : List ℕ}
    (hreleased : callFree tlFree call value = some released) : released ⊆ value.owned := by
  unfold callFree at hreleased
  split at hreleased
  case h_3 obj => exact hfree obj released hreleased
  case h_5 block bytes =>
    cases hreleased
    exact List.Subset.refl _
  case h_6 => cases hreleased
  all_goals
    cases hreleased
    exact List.nil_subset _

theorem freeAll_subset {call : Option FreeCall} {values : List HeapValue} {released : List ℕ}
    (hreleased : freeAll tlFree call values = some released) :
    released ⊆ HeapValue.ownedAll values := by
  induction values generalizing released with
  | nil =>
    cases hreleased
    exact List.nil_subset _
  | cons value rest ih =>
    apply subset_of_releaseBoth hreleased
    · intro earlier hearlier
      cases call with
      | none =>
        cases hearlier
        exact List.nil_subset _
      | some call =>
        exact List.Subset.trans (callFree_subset hfree hearlier)
          (owned_subset_ownedAll List.mem_cons_self)
    · intro later hlater
      exact List.Subset.trans (ih hlater) (List.subset_append_right _ _)

theorem freeLoop_subset {call : Option FreeCall} {length : ℤ} {array : HeapValue}
    {released : List ℕ} (hreleased : freeLoop tlFree call length array = some released) :
    released ⊆ array.owned := by
  unfold freeLoop at hreleased
  split at hreleased
  case isTrue =>
    cases hreleased
    exact List.nil_subset _
  case isFalse =>
    split at hreleased
    case h_1 block elems =>
      split at hreleased
      case isTrue =>
        intro freed hfreed
        have htake := freeAll_subset hfree hreleased hfreed
        have hall : freed ∈ HeapValue.ownedAll (elems.take length.toNat ++ elems.drop length.toNat) := by
          rw [ownedAll_append]
          exact List.mem_append_left _ htake
        rw [List.take_append_drop] at hall
        exact List.mem_cons_of_mem block hall
      case isFalse => cases hreleased
    case h_2 => cases hreleased

theorem runFreeStmt_subset {obj : HeapObj} {method : Method} {stmt : FreeStmt} {released : List ℕ}
    (hreleased : runFreeStmt tlFree (obj.memory method) stmt = some released) :
    released ⊆ HeapValue.ownedAll obj.values := by
  cases stmt with
  | call call member =>
    obtain ⟨value, hvalue, hcall⟩ := Option.bind_eq_some_iff.mp hreleased
    exact List.Subset.trans (callFree_subset hfree hcall)
      (owned_subset_ownedAll (mem_values_of_get hvalue))
  | vector len array call =>
    obtain ⟨count, -, hrest⟩ := Option.bind_eq_some_iff.mp hreleased
    obtain ⟨cells, hcells, hboth⟩ := Option.bind_eq_some_iff.mp hrest
    have howned := owned_subset_ownedAll (mem_values_of_get hcells)
    apply subset_of_releaseBoth hboth
    · exact fun earlier hearlier ↦ List.Subset.trans (freeLoop_subset hfree hearlier) howned
    · intro later hlater
      refine List.Subset.trans ?_ howned
      unfold freeArray at hlater
      split at hlater
      case h_1 =>
        cases hlater
        exact List.nil_subset _
      case h_2 block elems =>
        cases hlater
        exact List.cons_subset.mpr ⟨List.mem_cons_self, List.nil_subset _⟩
      case h_3 => cases hlater

theorem runFreeStmts_subset {obj : HeapObj} {method : Method} {stmts : List FreeStmt}
    {released : List ℕ}
    (hreleased : runFreeStmts tlFree (obj.memory method) stmts = some released) :
    released ⊆ HeapValue.ownedAll obj.values := by
  induction stmts generalizing released with
  | nil =>
    cases hreleased
    exact List.nil_subset _
  | cons stmt rest ih =>
    exact subset_of_releaseBoth hreleased (fun _ ↦ runFreeStmt_subset hfree) fun _ ↦ ih

theorem freeMethod_subset {method : Method} {obj : HeapObj} {released : List ℕ}
    (hreleased : freeMethod tlFree method obj = some released) : released ⊆ obj.owned := by
  obtain ⟨block, made, flags, values⟩ := obj
  apply subset_of_releaseBoth hreleased
  · intro earlier hearlier
    exact List.Subset.trans (runFreeStmts_subset hfree hearlier) (List.subset_cons_self _ _)
  · intro later hlater
    cases hlater
    exact List.cons_subset.mpr ⟨List.mem_cons_self, List.nil_subset _⟩

end Free

/-- Only blocks that can be reached from an object are released with it. -/
theorem tlFree_subset (table : List Method) (fuel : ℕ) (obj : HeapObj) (released : List ℕ)
    (hreleased : tlFreeFuel table fuel obj = some released) : released ⊆ obj.owned := by
  induction fuel generalizing obj released with
  | zero => cases hreleased
  | succ fuel ih =>
    rw [tlFreeFuel] at hreleased
    split at hreleased
    case h_1 =>
      cases hreleased
      exact List.nil_subset _
    case h_2 method _ => exact freeMethod_subset ih hreleased

/-! ## Both objects -/

section Again

variable {model : DataModel} {table : List Method}

/-- The blocks of an object that has been decoded are those that were allocated for it. -/
theorem owned_range (hdescribed : ∀ method ∈ table, method.Described)
    (hfit : ∀ method ∈ table, NamesFit method) {fuel next upper : ℕ} {cursor after : Cursor}
    {obj : HeapObj}
    (hdecoded : heapDeserializeFuel model table fuel cursor next = some (some obj, after, upper)) :
    next ≤ upper ∧ ∀ block ∈ obj.owned, next ≤ block ∧ block < upper := by
  have hboth := readersMirror model hdescribed hfit fuel cursor next
  rw [hdecoded] at hboth
  generalize tlDeserializeFuel model table fuel cursor = plain at hboth
  cases hboth with
  | some hmirrors => exact ⟨hmirrors.mirrors.settled.le, hmirrors.mirrors.settled.range⟩

/-- What the decoder without a heap reads is built in the heap, with the same copy of the buffer. -/
theorem exists_decoded (hdescribed : ∀ method ∈ table, method.Described)
    (hfit : ∀ method ∈ table, NamesFit method) {fuel : ℕ} {cursor rest : Cursor} {tl : TlObj}
    (hplain : tlDeserializeFuel model table fuel cursor = some (some tl, rest)) (next : ℕ) :
    ∃ obj after upper,
      heapDeserializeFuel model table fuel cursor next = some (some obj, after, upper) ∧
        obj.buf = tl.buf := by
  cases fuel with
  | zero => cases hplain
  | succ fuel =>
    rw [tlDeserializeFuel, Option.bind_eq_bind, Option.bind_eq_some_iff] at hplain
    obtain ⟨bytes, hbytes, hplain⟩ := hplain
    rw [heapDeserializeFuel, hbytes, Option.bind_eq_bind, Option.bind_some]
    split at hplain
    case isTrue => cases hplain
    case isFalse hzero =>
      rw [if_neg hzero]
      cases hmethod : getFun table (getUi32 bytes) with
      | none =>
        rw [hmethod] at hplain
        cases hplain
      | some method =>
        rw [hmethod] at hplain
        dsimp only at hplain ⊢
        obtain ⟨found, hfound, heq⟩ := Option.bind_eq_some_iff.mp hplain
        have hmem : method ∈ table := List.mem_of_find?_eq_some hmethod
        have hboth := heapDeserializeMethod_mirrors model (readersMirror model hdescribed hfit fuel)
          (hdescribed method hmem) (hfit method hmem) cursor next
        rw [hfound] at hboth
        generalize heapDeserializeMethod model _ method cursor next = heap at hboth ⊢
        cases heq
        cases hboth with
        | some hobjects => exact ⟨_, _, _, rfl, hobjects.buf⟩

variable {data rest : Bytes} {tl : TlObj}

/-- A complete object keeps the whole buffer that it stands at the start of. -/
theorem parse_buf (hparse : parse model table data = some (some tl, rest)) : tl.buf = data := by
  unfold parse parseFuel at hparse
  rw [Option.bind_eq_bind, Option.bind_eq_some_iff] at hparse
  obtain ⟨⟨id, input⟩, -, hparse⟩ := hparse
  dsimp only at hparse
  split at hparse
  · cases hparse
  · split at hparse
    · cases hparse
    · obtain ⟨⟨object, final⟩, hmethod, heq⟩ := Option.bind_eq_some_iff.mp hparse
      cases heq
      unfold parseMethod at hmethod
      obtain ⟨⟨id, rest⟩, -, hmethod⟩ := Option.bind_eq_some_iff.mp hmethod
      dsimp only at hmethod
      split at hmethod
      · obtain ⟨⟨len, rest⟩, -, hmethod⟩ := Option.bind_eq_some_iff.mp hmethod
        obtain ⟨⟨fields, last⟩, -, hmethod⟩ := Option.bind_eq_some_iff.mp hmethod
        cases hmethod
        rfl
      · obtain ⟨⟨fields, last⟩, -, hmethod⟩ := Option.bind_eq_some_iff.mp hmethod
        cases hmethod
        rfl

/-- A buffer whose block ends with it, and the same bytes in a larger block. -/
theorem relocated_slack {slack : Bytes} (hfits : (data ++ slack).length < 2 ^ 32) :
    Relocated model [] slack (cursorAt data [] 0) (cursorAt data slack 0) where
  block := by
    change data ++ slack = [] ++ (data ++ [] ++ slack)
    rw [List.append_nil, List.nil_append]
  off := by cases model <;> rfl
  size := rfl
  fits := hfits

/-- Whatever stands behind a buffer, the complete object at its start is built in the same way. -/
theorem exists_unplaced (hdescribed : ∀ method ∈ table, method.Described)
    (hfit : ∀ method ∈ table, NamesFit method) (hscoped : ∀ method ∈ table, Scoped 0 method.args)
    (hparse : parse model table data = some (some tl, rest)) (hsize : data.length + 1 < 2 ^ 32) :
    ∃ plain : HeapObj, plain.buf = data ∧
      ∀ slack next, (data ++ slack).length < 2 ^ 32 → ∃ obj after upper,
        heapDeserializeFuel model table ((data ++ slack).length + 1) (cursorAt data slack 0) next =
          some (some obj, after, upper) ∧ obj.unplaced = plain := by
  obtain ⟨last, hplain, -⟩ : ∃ next, tlDeserialize model table (cursorAt data [] 0) =
      some (some tl, cursorAt data [] next) ∧ _ := tlDeserialize_of_parse hsize hscoped hparse
  obtain ⟨obj, after, upper, hheap, hbuf⟩ := exists_decoded hdescribed hfit hplain 0
  refine ⟨obj.unplaced, ?_, fun slack next hfits ↦ ?_⟩
  · rw [buf_unplaced, hbuf, parse_buf hparse]
  · have hle : (cursorAt data [] 0).block.length + 1 ≤ (data ++ slack).length + 1 := by
      change (data ++ []).length + 1 ≤ _
      rw [List.append_nil, List.length_append]
      exact Nat.succ_le_succ (Nat.le_add_right _ _)
    obtain ⟨moved, after', upper', hmoved, hsame, -⟩ :=
      heapRelocates_fuel model [] slack table hle (cursorAt data [] 0) (cursorAt data slack 0) 0
        next (some obj) after upper (relocated_slack hfits) hheap
    rw [Option.map_some, Option.map_eq_some_iff] at hsame
    obtain ⟨copy, rfl, hcopy⟩ := hsame
    exact ⟨copy, after', upper', hmoved, hcopy⟩

end Again

end LibTg.Tl
