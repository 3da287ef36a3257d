import LibTg.Data.Run
import LibTg.Tl.Serialize
import Mathlib.Data.List.Induction

/-!
# Programs over growing buffers

Strings in C end with a zero byte, the padding of `serialize_bytes` is a new buffer whose size has been
set, and three bytes of a length are read as four. All this relies on the rest of a block being zero.
Here programs that use the operations of `tl/buf.c` in any order are compared with programs over byte
strings.

A buffer stands for its variable: `buf_cat`, `buf_cat_*` and `buf_realloc` put their result in the place
of the destination, as `b = buf_cat(b, x)` does. After `c = buf_cat(a, b)` the variable `a` has its old
size and perhaps a block that is gone. It is no buffer any more, and no program here uses it.
-/

namespace LibTg.Tl

/-! ## The promise -/

/-- A buffer stands for a byte string: its block has `asize + 1` bytes, the first `size` of them are the
string, and the others are zero. -/
structure Represents (buf : Buf) (bytes : Bytes) : Prop where
  size_le : buf.size ≤ buf.asize
  block : buf.mem.length = buf.asize + 1
  zero : ∀ index, buf.size ≤ index → index ≤ buf.asize → buf.mem[index]? = some 0
  bytes : buf.bytes = bytes

/-! ## The other operations of `tl/buf.c` -/

/-- The loop of `buf_swap`. The bytes from index `lo` up to `stop`, without it, are left to swap. -/
def swapLoop (mem : Bytes) (lo : ℕ) : ℕ → Bytes
  | 0 => mem
  | hi + 1 =>
    if lo < hi then swapLoop ((mem.set lo (mem.getD hi 0)).set hi (mem.getD lo 0)) (lo + 1) hi
    else mem

theorem length_swapLoop (mem : Bytes) (lo stop : ℕ) :
    (swapLoop mem lo stop).length = mem.length := by
  induction stop generalizing mem lo with
  | zero => rfl
  | succ hi ih =>
    rw [swapLoop]
    split
    · rw [ih, List.length_set, List.length_set]
    · rfl

def bufSwap (buf : Buf) : Buf where
  block := buf.block
  mem := swapLoop buf.mem 0 buf.size
  size := buf.size
  asize := buf.asize
  mem_length := (length_swapLoop _ _ _).trans buf.mem_length
  size_le := buf.size_le

/-- `buf_rand`, for the values of `rand() % 256`. There is no `buf_realloc` in it. -/
def bufRand (drawn : Bytes) : Option Buf :=
  if hfits : drawn.length ≤ bufsiz then
    some
      { block := 0
        mem := overwrite bufNew.mem 0 drawn
        size := drawn.length
        asize := bufsiz
        mem_length := by
          rw [length_overwrite (by rw [bufNew.mem_length, Nat.zero_add]; exact Nat.le_succ_of_le hfits)]
          exact bufNew.mem_length
        size_le := hfits }
  else none

section Realloc

variable (moves : ℕ → Bool)

def bufAddBuf (buf : Buf) : Option Buf := bufAdd moves buf.bytes

def bufAddBufs (bufs : List Buf) : Option Buf := bufCatAll moves bufNew (bufs.map Buf.bytes)

def bufAddUi32 (value : UInt32) : Option Buf := bufAdd moves (le32 value)

def bufAddUi64 (value : UInt64) : Option Buf := bufAdd moves (le64 value)

/-- `buf_add_double`, of the bits of a double. -/
def bufAddDouble (bits : UInt64) : Option Buf := bufAdd moves (le64 bits)

def bufCatData (dest : Buf) (data : Bytes) : Option Buf :=
  (bufAdd moves data).bind fun src ↦ bufCat moves dest src.bytes

def bufCatUi32 (dest : Buf) (value : UInt32) : Option Buf :=
  (bufAddUi32 moves value).bind fun src ↦ bufCat moves dest src.bytes

def bufCatUi64 (dest : Buf) (value : UInt64) : Option Buf :=
  (bufAddUi64 moves value).bind fun src ↦ bufCat moves dest src.bytes

def bufCatDouble (dest : Buf) (bits : UInt64) : Option Buf :=
  (bufAddDouble moves bits).bind fun src ↦ bufCat moves dest src.bytes

def bufCatRand (dest : Buf) (drawn : Bytes) : Option Buf :=
  (bufRand drawn).bind fun src ↦ bufCat moves dest src.bytes

/-- `buf_xor`. The loop goes by the size of the first buffer, and is that of `buf_add`. -/
def bufXor (first second : Buf) : Option Buf :=
  if first.size ≤ second.mem.length then
    bufAdd moves (List.zipWith (· ^^^ ·) first.bytes (second.mem.take first.size))
  else none

/-- `buf_cat` of two variables. If they are the same one and the block has moved, the source has been
released before it is read. -/
def bufCatVar (pool : List Buf) (dest source : ℕ) : Option Buf :=
  (pool[dest]?).bind fun first ↦ (pool[source]?).bind fun second ↦
    (bufCat moves first second.bytes).bind fun result ↦
      if dest = source ∧ result.block ≠ first.block then none else some result

end Realloc

/-! ## Programs -/

/-- An operation on variables, which are numbered. An operation that makes a buffer assigns it to the
next one, and one that changes a buffer assigns the result to the same one. -/
inductive BufOp where
  | init
  | add (data : Bytes)
  | addBuf (source : ℕ)
  | addBufs (sources : List ℕ)
  | addUi32 (value : UInt32)
  | addUi64 (value : UInt64)
  | addDouble (bits : UInt64)
  | cat (dest source : ℕ)
  | catUi32 (dest : ℕ) (value : UInt32)
  | catUi64 (dest : ℕ) (value : UInt64)
  | catDouble (dest : ℕ) (bits : UInt64)
  | catData (dest : ℕ) (data : Bytes)
  | catRand (dest : ℕ) (drawn : Bytes)
  | realloc (dest size : ℕ)
  | swap (dest : ℕ)
  | xor (first second : ℕ)
  | rand (drawn : Bytes)

/-- An operation together with what the allocator does in it. -/
structure BufCall where
  moves : ℕ → Bool
  op : BufOp

section Steps

variable {Value : Type*}

/-- A new variable. -/
def assignNew (pool : List Value) (result : Option Value) : Option (List Value) :=
  result.map fun value ↦ pool ++ [value]

/-- A new value for a variable. -/
def assignTo (pool : List Value) (dest : ℕ) (result : Value → Option Value) : Option (List Value) :=
  (pool[dest]?).bind fun value ↦ (result value).map fun changed ↦ pool.set dest changed

def readVars (pool : List Value) : List ℕ → Option (List Value)
  | [] => some []
  | source :: rest =>
    (pool[source]?).bind fun value ↦ (readVars pool rest).map fun values ↦ value :: values

end Steps

/-- An operation of `tl/buf.c`. -/
def bufStep (pool : List Buf) (call : BufCall) : Option (List Buf) :=
  match call.op with
  | .init => assignNew pool (some bufNew)
  | .add data => assignNew pool (bufAdd call.moves data)
  | .addBuf source => assignNew pool ((pool[source]?).bind (bufAddBuf call.moves))
  | .addBufs sources => assignNew pool ((readVars pool sources).bind (bufAddBufs call.moves))
  | .addUi32 value => assignNew pool (bufAddUi32 call.moves value)
  | .addUi64 value => assignNew pool (bufAddUi64 call.moves value)
  | .addDouble bits => assignNew pool (bufAddDouble call.moves bits)
  | .cat dest source => assignTo pool dest fun _ ↦ bufCatVar call.moves pool dest source
  | .catUi32 dest value => assignTo pool dest fun buf ↦ bufCatUi32 call.moves buf value
  | .catUi64 dest value => assignTo pool dest fun buf ↦ bufCatUi64 call.moves buf value
  | .catDouble dest bits => assignTo pool dest fun buf ↦ bufCatDouble call.moves buf bits
  | .catData dest data => assignTo pool dest fun buf ↦ bufCatData call.moves buf data
  | .catRand dest drawn => assignTo pool dest fun buf ↦ bufCatRand call.moves buf drawn
  | .realloc dest size => assignTo pool dest fun buf ↦ bufRealloc call.moves buf size
  | .swap dest => assignTo pool dest fun buf ↦ some (bufSwap buf)
  | .xor first second => assignNew pool <|
    (pool[first]?).bind fun left ↦ (pool[second]?).bind fun right ↦ bufXor call.moves left right
  | .rand drawn => assignNew pool (bufRand drawn)

/-- What an operation means for byte strings. -/
def denoteStep (strings : List Bytes) (call : BufCall) : Option (List Bytes) :=
  match call.op with
  | .init => assignNew strings (some [])
  | .add data => assignNew strings (some data)
  | .addBuf source => assignNew strings (strings[source]?)
  | .addBufs sources => assignNew strings ((readVars strings sources).map List.flatten)
  | .addUi32 value => assignNew strings (some (le32 value))
  | .addUi64 value => assignNew strings (some (le64 value))
  | .addDouble bits => assignNew strings (some (le64 bits))
  | .cat dest source => assignTo strings dest fun bytes ↦
    (strings[source]?).map fun other ↦ bytes ++ other
  | .catUi32 dest value => assignTo strings dest fun bytes ↦ some (bytes ++ le32 value)
  | .catUi64 dest value => assignTo strings dest fun bytes ↦ some (bytes ++ le64 value)
  | .catDouble dest bits => assignTo strings dest fun bytes ↦ some (bytes ++ le64 bits)
  | .catData dest data => assignTo strings dest fun bytes ↦ some (bytes ++ data)
  | .catRand dest drawn => assignTo strings dest fun bytes ↦ some (bytes ++ drawn)
  | .realloc dest _ => assignTo strings dest some
  | .swap dest => assignTo strings dest fun bytes ↦ some bytes.reverse
  | .xor first second => assignNew strings <|
    (strings[first]?).bind fun left ↦ (strings[second]?).map fun right ↦
      List.zipWith (· ^^^ ·) left right
  | .rand drawn => assignNew strings (some drawn)

/-- The size that an operation asks for. Its variables have been assigned, the sizes for `buf_xor` are
equal, and no more than `BUFSIZ` bytes are drawn. -/
def BufOp.total (pool : List Buf) : BufOp → Option ℕ
  | .init => some 0
  | .add data => some data.length
  | .addBuf source => (pool[source]?).map Buf.size
  | .addBufs sources => (readVars pool sources).map fun bufs ↦ (bufs.map Buf.size).sum
  | .addUi32 _ => some 4
  | .addUi64 _ => some 8
  | .addDouble _ => some 8
  | .cat dest source =>
    (pool[dest]?).bind fun first ↦ (pool[source]?).map fun second ↦ first.size + second.size
  | .catUi32 dest _ => (pool[dest]?).map fun buf ↦ buf.size + 4
  | .catUi64 dest _ => (pool[dest]?).map fun buf ↦ buf.size + 8
  | .catDouble dest _ => (pool[dest]?).map fun buf ↦ buf.size + 8
  | .catData dest data => (pool[dest]?).map fun buf ↦ buf.size + data.length
  | .catRand dest drawn => (pool[dest]?).bind fun buf ↦
    if drawn.length ≤ bufsiz then some (buf.size + drawn.length) else none
  | .realloc dest size => (pool[dest]?).map fun _ ↦ size
  | .swap dest => (pool[dest]?).map Buf.size
  | .xor first second => (pool[first]?).bind fun left ↦ (pool[second]?).bind fun right ↦
    if left.size = right.size then some left.size else none
  | .rand drawn => if drawn.length ≤ bufsiz then some drawn.length else none

/-- The sizes stay below `2 ^ 32 - 1`. -/
def Sized (pool : List Buf) (call : BufCall) : Prop :=
  ∃ total ∈ call.op.total pool, total + 1 < 2 ^ 32

/-- If `buf_cat` appends a buffer to itself, its block is not moved. -/
def SourceKept (pool : List Buf) (call : BufCall) : Prop :=
  match call.op with
  | .cat dest source => dest = source → ∀ buf ∈ pool[dest]?,
    buf.asize < 2 * buf.size → call.moves (2 * buf.size) = false
  | _ => True

/-! ## Blocks that are zero behind their contents -/

section Slack

variable {buf : Buf} {bytes : Bytes}

/-- A buffer represents a string whose block is the string and zeros. -/
theorem represents_of_mem
    (hmem : buf.mem = bytes ++ List.replicate (buf.asize + 1 - bytes.length) 0)
    (hsize : buf.size = bytes.length) : Represents buf bytes where
  size_le := buf.size_le
  block := buf.mem_length
  zero index hlow hhigh := by
    rw [hmem, List.getElem?_append_right (hsize ▸ hlow), List.getElem?_replicate, if_pos]
    omega
  bytes := by rw [Buf.bytes, hmem, hsize, List.take_left]

theorem Represents.size_eq (h : Represents buf bytes) : buf.size = bytes.length := by
  have hle := h.size_le
  rw [← h.bytes, Buf.bytes, List.length_take, h.block]
  omega

theorem Represents.mem_eq (h : Represents buf bytes) :
    buf.mem = bytes ++ List.replicate (buf.asize + 1 - bytes.length) 0 := by
  have hsize := h.size_eq
  have hzeros : buf.mem.drop buf.size = List.replicate (buf.asize + 1 - bytes.length) 0 := by
    rw [List.eq_replicate_iff, List.length_drop, h.block, hsize]
    refine ⟨rfl, fun byte hbyte ↦ ?_⟩
    obtain ⟨index, hindex⟩ := List.mem_iff_getElem?.mp hbyte
    rw [List.getElem?_drop] at hindex
    have hbound := (List.getElem?_eq_some_iff.mp hindex).1
    rw [h.block] at hbound
    rw [h.zero _ (by omega) (by omega)] at hindex
    exact (Option.some.inj hindex).symm
  rw [← hzeros, ← h.bytes]
  exact (List.take_append_drop buf.size buf.mem).symm

/-- Reading beyond the contents gives zeros. -/
theorem Represents.take_mem (h : Represents buf bytes) {count : ℕ} (hlow : bytes.length ≤ count)
    (hhigh : count ≤ buf.asize + 1) :
    buf.mem.take count = bytes ++ List.replicate (count - bytes.length) 0 := by
  rw [h.mem_eq, List.take_append, List.take_of_length_le hlow, List.take_replicate]
  congr 2
  omega

theorem represents_bufNew : Represents bufNew [] := represents_of_mem rfl rfl

variable (moves : ℕ → Bool)

/-- The zeros that `buf_realloc` adds begin where the old ones end. -/
theorem bufRealloc_represents (h : Represents buf bytes) {size : ℕ} (hfits : size + 1 < 2 ^ 32) :
    ∃ grown, bufRealloc moves buf size = some grown ∧ Represents grown bytes ∧
      grown.asize = max buf.asize size ∧
      grown.block = if buf.asize < size ∧ moves size = true then buf.block + 1 else buf.block := by
  by_cases hgrow : buf.asize < size
  · have hsize := h.size_eq
    have hle := h.size_le
    have hwrap : size + 1 ≤ (size + 1) % 2 ^ 32 := by rw [Nat.mod_eq_of_lt hfits]
    rw [bufRealloc, dif_pos hgrow, if_pos hwrap]
    refine ⟨_, rfl, represents_of_mem ?_ hsize, (max_eq_right hgrow.le).symm, ?_⟩
    · change buf.mem.take buf.asize ++ List.replicate (size - buf.asize + 1) 0 =
        bytes ++ List.replicate (size + 1 - bytes.length) 0
      rw [h.take_mem (by omega) (by omega), List.append_assoc, List.replicate_append_replicate]
      congr 2
      omega
    · simp [hgrow]
  · rw [bufRealloc, dif_neg hgrow]
    exact ⟨buf, rfl, h, (max_eq_left (by omega)).symm, by simp [hgrow]⟩

/-- `buf_cat` is concatenation. -/
theorem bufCat_represents (h : Represents buf bytes) (src : Bytes)
    (hfits : bytes.length + src.length + 1 < 2 ^ 32) :
    ∃ result, bufCat moves buf src = some result ∧ Represents result (bytes ++ src) ∧
      result.block = if buf.asize < bytes.length + src.length ∧
        moves (bytes.length + src.length) = true then buf.block + 1 else buf.block := by
  have hwrap : (buf.size + src.length) % 2 ^ 32 = bytes.length + src.length := by
    rw [h.size_eq]
    exact Nat.mod_eq_of_lt (by omega)
  obtain ⟨grown, hrealloc, hgrown, hasize, hblock⟩ := bufRealloc_represents moves h hfits
  have hsize := hgrown.size_eq
  have hsplit : grown.mem = bytes ++ List.replicate src.length 0 ++
      List.replicate (grown.asize + 1 - (bytes.length + src.length)) 0 := by
    rw [hgrown.mem_eq, List.append_assoc, List.replicate_append_replicate]
    congr 2
    omega
  have hroom : grown.size + src.length ≤ grown.mem.length := by
    rw [hgrown.block]
    omega
  unfold bufCat
  rw [← hwrap] at hrealloc
  split
  case h_1 heq =>
    rw [hrealloc] at heq
    cases heq
  case h_2 found heq =>
    rw [hrealloc] at heq
    cases heq
    rw [dif_pos hroom]
    refine ⟨_, rfl, represents_of_mem ?_ ?_, hblock⟩
    · change overwrite grown.mem grown.size src =
        bytes ++ src ++ List.replicate (grown.asize + 1 - (bytes ++ src).length) 0
      rw [hsize, hsplit, overwrite_append _ _ _ _ List.length_replicate, List.length_append]
    · rw [List.length_append]
      exact hwrap

theorem bufAdd_represents (data : Bytes) (hfits : data.length + 1 < 2 ^ 32) :
    ∃ result, bufAdd moves data = some result ∧ Represents result data := by
  have hall : ([] : Bytes).length + data.length + 1 < 2 ^ 32 := by
    rw [List.length_nil]
    omega
  obtain ⟨result, hresult, hrepresents, -⟩ := bufCat_represents moves represents_bufNew data hall
  exact ⟨result, hresult, hrepresents⟩

theorem bufCatAll_represents (chunks : List Bytes) (h : Represents buf bytes)
    (hfits : bytes.length + chunks.flatten.length + 1 < 2 ^ 32) :
    ∃ result, bufCatAll moves buf chunks = some result ∧
      Represents result (bytes ++ chunks.flatten) := by
  induction chunks generalizing buf bytes with
  | nil =>
    rw [List.flatten_nil, List.append_nil]
    exact ⟨buf, rfl, h⟩
  | cons chunk rest ih =>
    rw [List.flatten_cons, List.length_append] at hfits
    obtain ⟨middle, hmiddle, hholds, -⟩ := bufCat_represents moves h chunk (by omega)
    rw [bufCatAll, List.foldlM_cons, hmiddle, Option.bind_eq_bind, Option.bind_some,
      List.flatten_cons, ← List.append_assoc]
    exact ih hholds (by rw [List.length_append]; omega)

theorem swapLoop_of_le (mem : Bytes) {lo stop : ℕ} (hle : stop ≤ lo + 1) :
    swapLoop mem lo stop = mem := by
  cases stop with
  | zero => rfl
  | succ hi => rw [swapLoop, if_neg (by omega)]

/-- One turn of the loop exchanges the outer bytes. -/
theorem swapLoop_turn (front inner back : Bytes) (first last : UInt8) :
    swapLoop (front ++ first :: (inner ++ [last]) ++ back) front.length
        (front.length + (inner.length + 2)) =
      swapLoop (front ++ [last] ++ inner ++ first :: back) (front ++ [last]).length
        ((front ++ [last]).length + inner.length) := by
  have hleft : front ++ first :: (inner ++ [last]) ++ back =
      front ++ first :: (inner ++ last :: back) := by simp
  have hright : front ++ first :: (inner ++ last :: back) =
      (front ++ first :: inner) ++ last :: back := by simp
  have hhi : front.length + (inner.length + 1) = (front ++ first :: inner).length := by simp
  have hfirst : (front ++ first :: (inner ++ last :: back)).getD front.length 0 = first := by
    rw [List.getD_append_right _ _ _ _ le_rfl, Nat.sub_self, List.getD_cons_zero]
  have hlast : (front ++ first :: (inner ++ last :: back)).getD (front.length + (inner.length + 1)) 0 =
      last := by
    rw [hright, hhi, List.getD_append_right _ _ _ _ le_rfl, Nat.sub_self, List.getD_cons_zero]
  have hset : (front ++ first :: (inner ++ last :: back)).set front.length last =
      (front ++ last :: inner) ++ last :: back := by
    rw [List.set_append_right _ _ le_rfl, Nat.sub_self, List.set_cons_zero]
    simp
  have hset' : ((front ++ last :: inner) ++ last :: back).set (front.length + (inner.length + 1))
      first = (front ++ last :: inner) ++ first :: back := by
    have hhi' : front.length + (inner.length + 1) = (front ++ last :: inner).length := by simp
    rw [hhi', List.set_append_right _ _ le_rfl, Nat.sub_self, List.set_cons_zero]
  have hlt : front.length < front.length + (inner.length + 1) := by omega
  rw [hleft, ← Nat.add_assoc _ _ 1, swapLoop, if_pos hlt, hfirst, hlast, hset, hset',
    List.length_append, List.length_singleton]
  congr 1
  · simp
  · omega

/-- The loop reverses what is between two positions. -/
theorem swapLoop_eq (front middle back : Bytes) :
    swapLoop (front ++ middle ++ back) front.length (front.length + middle.length) =
      front ++ middle.reverse ++ back := by
  induction middle using List.bidirectionalRec generalizing front back with
  | nil => exact swapLoop_of_le _ (Nat.le_succ _)
  | singleton first => exact swapLoop_of_le _ le_rfl
  | cons_append first inner last ih =>
    have hlength : (first :: (inner ++ [last])).length = inner.length + 2 := by simp
    rw [hlength, swapLoop_turn, ih]
    simp

/-- `buf_swap` reverses the contents. -/
theorem bufSwap_represents (h : Represents buf bytes) :
    Represents (bufSwap buf) bytes.reverse := by
  have hswap : swapLoop buf.mem 0 buf.size =
      bytes.reverse ++ List.replicate (buf.asize + 1 - bytes.length) 0 := by
    have hloop := swapLoop_eq [] bytes (List.replicate (buf.asize + 1 - bytes.length) 0)
    rw [List.nil_append, List.nil_append, List.length_nil, Nat.zero_add] at hloop
    rw [h.mem_eq, h.size_eq, hloop]
  apply represents_of_mem
  · rw [List.length_reverse]
    exact hswap
  · rw [List.length_reverse]
    exact h.size_eq

theorem bufRand_represents {drawn : Bytes} (hfits : drawn.length ≤ bufsiz) :
    ∃ result, bufRand drawn = some result ∧ Represents result drawn := by
  rw [bufRand, dif_pos hfits]
  refine ⟨_, rfl, represents_of_mem ?_ rfl⟩
  have hsplit : bufNew.mem =
      [] ++ List.replicate drawn.length 0 ++ List.replicate (bufsiz + 1 - drawn.length) 0 := by
    have hlength : drawn.length + (bufsiz + 1 - drawn.length) = bufsiz + 1 := by omega
    rw [List.nil_append, List.replicate_append_replicate, hlength]
    rfl
  change overwrite bufNew.mem 0 drawn = drawn ++ List.replicate (bufsiz + 1 - drawn.length) 0
  rw [hsplit]
  exact overwrite_append [] _ _ _ List.length_replicate

theorem bufXor_represents {other : Buf} {bytes' : Bytes} (h : Represents buf bytes)
    (hother : Represents other bytes') (hequal : buf.size = other.size)
    (hfits : buf.size + 1 < 2 ^ 32) :
    ∃ result, bufXor moves buf other = some result ∧
      Represents result (List.zipWith (· ^^^ ·) bytes bytes') := by
  have hinside : buf.size ≤ other.mem.length := by
    have hle := hother.size_le
    rw [hother.block]
    omega
  have hsecond : other.mem.take buf.size = bytes' := by
    rw [hequal]
    exact hother.bytes
  rw [bufXor, if_pos hinside, h.bytes, hsecond]
  apply bufAdd_represents
  have hsize := h.size_eq
  rw [List.length_zipWith]
  omega

theorem bufCatData_represents (h : Represents buf bytes) (data : Bytes)
    (hfits : bytes.length + data.length + 1 < 2 ^ 32) :
    ∃ result, bufCatData moves buf data = some result ∧ Represents result (bytes ++ data) := by
  obtain ⟨src, hsrc, hholds⟩ := bufAdd_represents moves data (by omega)
  obtain ⟨result, hresult, hrepresents, -⟩ := bufCat_represents moves h data hfits
  refine ⟨result, ?_, hrepresents⟩
  rw [bufCatData, hsrc, Option.bind_some, hholds.bytes, hresult]

theorem bufCatRand_represents (h : Represents buf bytes) {drawn : Bytes}
    (hdrawn : drawn.length ≤ bufsiz) (hfits : bytes.length + drawn.length + 1 < 2 ^ 32) :
    ∃ result, bufCatRand moves buf drawn = some result ∧ Represents result (bytes ++ drawn) := by
  obtain ⟨src, hsrc, hholds⟩ := bufRand_represents hdrawn
  obtain ⟨result, hresult, hrepresents, -⟩ := bufCat_represents moves h drawn hfits
  refine ⟨result, ?_, hrepresents⟩
  rw [bufCatRand, hsrc, Option.bind_some, hholds.bytes, hresult]

end Slack

/-! ## One operation -/

section Step

variable {pool : List Buf} {strings : List Bytes}

/-- Both programs have gone on, and every buffer represents its string. -/
def Agree (buffers : Option (List Buf)) (texts : Option (List Bytes)) : Prop :=
  ∃ pool strings, buffers = some pool ∧ texts = some strings ∧ List.Forall₂ Represents pool strings

theorem getElem?_represents (h : List.Forall₂ Represents pool strings) {index : ℕ} {buf : Buf}
    (hbuf : pool[index]? = some buf) : ∃ bytes, strings[index]? = some bytes ∧ Represents buf bytes := by
  induction h generalizing index with
  | nil => cases hbuf
  | @cons first text _ _ hfirst _ ih =>
    cases index with
    | zero =>
      cases hbuf
      exact ⟨text, rfl, hfirst⟩
    | succ index => exact ih hbuf

theorem set_represents (h : List.Forall₂ Represents pool strings) (index : ℕ) {buf : Buf}
    {bytes : Bytes} (hbuf : Represents buf bytes) :
    List.Forall₂ Represents (pool.set index buf) (strings.set index bytes) := by
  induction h generalizing index with
  | nil => exact .nil
  | cons hfirst hrest ih =>
    cases index with
    | zero => exact .cons hbuf hrest
    | succ index => exact .cons hfirst (ih index)

/-- An operation that makes a buffer. -/
theorem agree_assignNew (h : List.Forall₂ Represents pool strings) {result : Option Buf}
    {text : Option Bytes} {bytes : Bytes} (htext : text = some bytes)
    (hresult : ∃ buf, result = some buf ∧ Represents buf bytes) :
    Agree (assignNew pool result) (assignNew strings text) := by
  obtain ⟨buf, rfl, hbuf⟩ := hresult
  rw [htext]
  exact ⟨_, _, rfl, rfl, List.rel_append h (.cons hbuf .nil)⟩

/-- An operation that changes one. -/
theorem agree_assignTo (h : List.Forall₂ Represents pool strings) {dest : ℕ} {buf : Buf}
    (hdest : pool[dest]? = some buf) {change : Buf → Option Buf} {edit : Bytes → Option Bytes}
    (hchange : ∀ bytes, strings[dest]? = some bytes → Represents buf bytes →
      ∃ changed edited, change buf = some changed ∧ edit bytes = some edited ∧
        Represents changed edited) :
    Agree (assignTo pool dest change) (assignTo strings dest edit) := by
  obtain ⟨bytes, hbytes, hbuf⟩ := getElem?_represents h hdest
  obtain ⟨changed, edited, hchanged, hedited, hrepresents⟩ := hchange bytes hbytes hbuf
  rw [assignTo, assignTo, hdest, hbytes, Option.bind_some, Option.bind_some, hchanged, hedited]
  exact ⟨_, _, rfl, rfl, set_represents h dest hrepresents⟩

theorem readVars_represents (h : List.Forall₂ Represents pool strings) {sources : List ℕ}
    {bufs : List Buf} (hbufs : readVars pool sources = some bufs) :
    ∃ texts, readVars strings sources = some texts ∧ List.Forall₂ Represents bufs texts := by
  induction sources generalizing bufs with
  | nil =>
    cases hbufs
    exact ⟨[], rfl, .nil⟩
  | cons source rest ih =>
    rw [readVars, Option.bind_eq_some_iff] at hbufs
    obtain ⟨buf, hbuf, hrest⟩ := hbufs
    obtain ⟨others, hothers, rfl⟩ := Option.map_eq_some_iff.mp hrest
    obtain ⟨bytes, hbytes, hrepresents⟩ := getElem?_represents h hbuf
    obtain ⟨texts, htexts, hall⟩ := ih hothers
    refine ⟨bytes :: texts, ?_, .cons hrepresents hall⟩
    rw [readVars, hbytes, Option.bind_some, htexts, Option.map_some]

theorem represents_contents {bufs : List Buf} {texts : List Bytes}
    (h : List.Forall₂ Represents bufs texts) :
    bufs.map Buf.bytes = texts ∧ (bufs.map Buf.size).sum = texts.flatten.length := by
  induction h with
  | nil => exact ⟨rfl, rfl⟩
  | cons hfirst _ ih =>
    rw [List.map_cons, List.map_cons, List.sum_cons, List.flatten_cons, List.length_append, ih.1,
      ih.2, hfirst.bytes, hfirst.size_eq]
    exact ⟨rfl, rfl⟩

/-- `buf_cat` of two variables. -/
theorem bufCatVar_represents {moves : ℕ → Bool} {dest source : ℕ} {first second : Buf}
    (hdest : pool[dest]? = some first)
    (hsource : pool[source]? = some second) (hfits : first.size + second.size + 1 < 2 ^ 32)
    (hkept : dest = source → first.asize < 2 * first.size → moves (2 * first.size) = false)
    {bytes other : Bytes} (hbytes : Represents first bytes) (hother : Represents second other) :
    ∃ result, bufCatVar moves pool dest source = some result ∧
      Represents result (bytes ++ other) := by
  rw [hbytes.size_eq, hother.size_eq] at hfits
  obtain ⟨result, hresult, hrepresents, hblock⟩ := bufCat_represents moves hbytes other hfits
  refine ⟨result, ?_, hrepresents⟩
  rw [bufCatVar, hdest, hsource, Option.bind_some, Option.bind_some, hother.bytes, hresult,
    Option.bind_some]
  apply if_neg
  rintro ⟨heq, hmoved⟩
  have hsame : second = first := by
    rw [← heq, hdest] at hsource
    exact (Option.some.inj hsource).symm
  have hdouble : bytes.length + other.length = 2 * first.size := by
    rw [← hbytes.size_eq, ← hother.size_eq, hsame]
    omega
  rw [hdouble] at hblock
  rw [hblock] at hmoved
  by_cases hgrow : first.asize < 2 * first.size
  · rw [hkept heq hgrow, if_neg fun hmove ↦ Bool.false_ne_true hmove.2] at hmoved
    exact hmoved rfl
  · rw [if_neg fun hmove ↦ hgrow hmove.1] at hmoved
    exact hmoved rfl

/-- An operation that appends bytes to a buffer. -/
theorem agree_append (h : List.Forall₂ Represents pool strings) {dest total : ℕ} {buf : Buf}
    (hdest : pool[dest]? = some buf) {change : Buf → Option Buf} (appended : Bytes)
    (htotal : buf.size + appended.length = total) (hfits : total + 1 < 2 ^ 32)
    (hchange : ∀ bytes, Represents buf bytes → bytes.length + appended.length + 1 < 2 ^ 32 →
      ∃ result, change buf = some result ∧ Represents result (bytes ++ appended)) :
    Agree (assignTo pool dest change)
      (assignTo strings dest fun bytes ↦ some (bytes ++ appended)) := by
  refine agree_assignTo h hdest fun bytes _ hbuf ↦ ?_
  have hlength : bytes.length + appended.length + 1 < 2 ^ 32 := by
    rw [← hbuf.size_eq, htotal]
    exact hfits
  obtain ⟨result, hresult, hrepresents⟩ := hchange bytes hbuf hlength
  exact ⟨result, _, hresult, rfl, hrepresents⟩

/-- Every operation does to the buffers what it means for the strings. -/
theorem bufStep_agrees (h : List.Forall₂ Represents pool strings) (call : BufCall)
    (hsized : Sized pool call) (hkept : SourceKept pool call) :
    Agree (bufStep pool call) (denoteStep strings call) := by
  obtain ⟨moves, op⟩ := call
  obtain ⟨total, htotal, hfits⟩ := hsized
  rw [Option.mem_def] at htotal
  cases op with
  | init => exact agree_assignNew h rfl ⟨_, rfl, represents_bufNew⟩
  | add data =>
    cases htotal
    exact agree_assignNew h rfl (bufAdd_represents moves data hfits)
  | addBuf source =>
    obtain ⟨buf, hbuf, rfl⟩ := Option.map_eq_some_iff.mp htotal
    obtain ⟨bytes, hbytes, hrepresents⟩ := getElem?_represents h hbuf
    have hadd := bufAdd_represents moves bytes (hrepresents.size_eq ▸ hfits)
    rw [← hrepresents.bytes] at hadd
    refine agree_assignNew h hbytes ?_
    rw [hbuf, ← hrepresents.bytes]
    exact hadd
  | addBufs sources =>
    obtain ⟨bufs, hbufs, rfl⟩ := Option.map_eq_some_iff.mp htotal
    obtain ⟨texts, htexts, hall⟩ := readVars_represents h hbufs
    obtain ⟨hcontents, hsum⟩ := represents_contents hall
    rw [hsum] at hfits
    have hcat := bufCatAll_represents moves texts represents_bufNew
      (by rw [List.length_nil, Nat.zero_add]; exact hfits)
    refine agree_assignNew h (congrArg (Option.map List.flatten) htexts) ?_
    dsimp only
    rw [hbufs, Option.bind_some, bufAddBufs, hcontents]
    exact hcat
  | addUi32 value => exact agree_assignNew h rfl (bufAdd_represents moves _ (by simp))
  | addUi64 value => exact agree_assignNew h rfl (bufAdd_represents moves _ (by simp))
  | addDouble bits => exact agree_assignNew h rfl (bufAdd_represents moves _ (by simp))
  | cat dest source =>
    obtain ⟨first, hfirst, hmap⟩ := Option.bind_eq_some_iff.mp htotal
    obtain ⟨second, hsecond, rfl⟩ := Option.map_eq_some_iff.mp hmap
    obtain ⟨other, hother, hrepresents⟩ := getElem?_represents h hsecond
    refine agree_assignTo h hfirst fun bytes _ hbytes ↦ ?_
    have hkept' : dest = source → first.asize < 2 * first.size → moves (2 * first.size) = false := by
      exact fun heq ↦ hkept heq first hfirst
    obtain ⟨result, hresult, hcat⟩ :=
      bufCatVar_represents hfirst hsecond hfits hkept' hbytes hrepresents
    exact ⟨result, bytes ++ other, hresult, by rw [hother, Option.map_some], hcat⟩
  | catUi32 dest value =>
    obtain ⟨buf, hbuf, hsize⟩ := Option.map_eq_some_iff.mp htotal
    exact agree_append h hbuf (le32 value) (by rw [length_le32, hsize]) hfits
      fun bytes hbytes hlength ↦ bufCatData_represents moves hbytes (le32 value) hlength
  | catUi64 dest value =>
    obtain ⟨buf, hbuf, hsize⟩ := Option.map_eq_some_iff.mp htotal
    exact agree_append h hbuf (le64 value) (by rw [length_le64, hsize]) hfits
      fun bytes hbytes hlength ↦ bufCatData_represents moves hbytes (le64 value) hlength
  | catDouble dest bits =>
    obtain ⟨buf, hbuf, hsize⟩ := Option.map_eq_some_iff.mp htotal
    exact agree_append h hbuf (le64 bits) (by rw [length_le64, hsize]) hfits
      fun bytes hbytes hlength ↦ bufCatData_represents moves hbytes (le64 bits) hlength
  | catData dest data =>
    obtain ⟨buf, hbuf, hsize⟩ := Option.map_eq_some_iff.mp htotal
    exact agree_append h hbuf data hsize hfits
      fun bytes hbytes hlength ↦ bufCatData_represents moves hbytes data hlength
  | catRand dest drawn =>
    obtain ⟨buf, hbuf, hif⟩ := Option.bind_eq_some_iff.mp htotal
    rw [Option.ite_none_right_eq_some, Option.some.injEq] at hif
    exact agree_append h hbuf drawn hif.2 hfits
      fun bytes hbytes hlength ↦ bufCatRand_represents moves hbytes hif.1 hlength
  | realloc dest size =>
    obtain ⟨buf, hbuf, rfl⟩ := Option.map_eq_some_iff.mp htotal
    refine agree_assignTo h hbuf fun bytes _ hbytes ↦ ?_
    obtain ⟨grown, hgrown, hrepresents, -, -⟩ := bufRealloc_represents moves hbytes hfits
    exact ⟨grown, bytes, hgrown, rfl, hrepresents⟩
  | swap dest =>
    obtain ⟨buf, hbuf, -⟩ := Option.map_eq_some_iff.mp htotal
    exact agree_assignTo h hbuf fun bytes _ hbytes ↦
      ⟨_, _, rfl, rfl, bufSwap_represents hbytes⟩
  | xor first second =>
    obtain ⟨left, hleft, hbind⟩ := Option.bind_eq_some_iff.mp htotal
    obtain ⟨right, hright, hif⟩ := Option.bind_eq_some_iff.mp hbind
    rw [Option.ite_none_right_eq_some, Option.some.injEq] at hif
    obtain ⟨hequal, rfl⟩ := hif
    obtain ⟨bytes, hbytes, hrepresents⟩ := getElem?_represents h hleft
    obtain ⟨other, hother, hrepresents'⟩ := getElem?_represents h hright
    refine agree_assignNew h (by rw [hbytes, hother]; rfl) ?_
    dsimp only
    rw [hleft, hright]
    exact bufXor_represents moves hrepresents hrepresents' hequal hfits
  | rand drawn =>
    rw [BufOp.total, Option.ite_none_right_eq_some, Option.some.injEq] at htotal
    exact agree_assignNew h rfl (bufRand_represents htotal.1)

end Step

/-! ## Programs -/

instance decidableSized (pool : List Buf) (call : BufCall) : Decidable (Sized pool call) :=
  match htotal : call.op.total pool with
  | none => .isFalse fun ⟨total, hmem, _⟩ ↦ by rw [htotal] at hmem; cases hmem
  | some total => decidable_of_iff (total + 1 < 2 ^ 32)
      ⟨fun h ↦ ⟨total, htotal, h⟩, fun ⟨other, hmem, h⟩ ↦ by rw [htotal] at hmem; cases hmem; exact h⟩

instance decidableSourceKept (pool : List Buf) : ∀ call, Decidable (SourceKept pool call)
  | ⟨moves, .cat dest source⟩ => inferInstanceAs (Decidable (dest = source → ∀ buf ∈ pool[dest]?,
      buf.asize < 2 * buf.size → moves (2 * buf.size) = false))
  | ⟨_, .init⟩ | ⟨_, .add _⟩ | ⟨_, .addBuf _⟩ | ⟨_, .addBufs _⟩ | ⟨_, .addUi32 _⟩ | ⟨_, .addUi64 _⟩
  | ⟨_, .addDouble _⟩ | ⟨_, .catUi32 _ _⟩ | ⟨_, .catUi64 _ _⟩ | ⟨_, .catDouble _ _⟩
  | ⟨_, .catData _ _⟩ | ⟨_, .catRand _ _⟩ | ⟨_, .realloc _ _⟩ | ⟨_, .swap _⟩ | ⟨_, .xor _ _⟩
  | ⟨_, .rand _⟩ => .isTrue trivial

/-- Three buffers, of which the first grows twice. -/
def threeBuffers : List BufCall :=
  [⟨fun _ ↦ true, .add (List.replicate 600 1)⟩, ⟨fun _ ↦ true, .catUi32 0 7⟩,
    ⟨fun _ ↦ true, .addBuf 0⟩, ⟨fun _ ↦ true, .cat 0 1⟩, ⟨fun _ ↦ true, .realloc 0 2000⟩,
    ⟨fun _ ↦ true, .swap 0⟩, ⟨fun _ ↦ true, .xor 1 1⟩]

/-- A buffer of 600 bytes is appended to itself, and its block is moved. -/
def appendToItself : List BufCall :=
  [⟨fun _ ↦ true, .add (List.replicate 600 1)⟩, ⟨fun _ ↦ true, .cat 0 0⟩]

end LibTg.Tl
