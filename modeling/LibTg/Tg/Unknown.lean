import LibTg.Tg.Dispatch
import LibTg.Tl.UnknownObject
import LibTg.Tl.Value

/-!
# Unknown constructors

The emitted decoders store the `NULL` of `tl_deserialize` and go on in front of the unknown object. So
its own bytes become the fields and elements behind it, if there are any. `_tg_receive` follows the
pointer, and a request is handed the object with the `NULL` inside.
-/

namespace LibTg.Tg

open LibTg.Tl

section Unknown

variable (model : DataModel) (table : List Method)

/-- The first access of `tl_deserialize`. -/
def topAccess (cursor : Cursor) : Access := ⟨cursor, 4, cursor, .id⟩

/-- Somewhere in the buffer, an object with an unknown id is read. -/
def ContainsUnknown (cursor : Cursor) : Prop := HoldsUnknown table (accesses model table cursor)

/-- The unknown object is the last thing in the buffer. -/
def EndsUnknown (cursor : Cursor) : Prop :=
  EndsFuel model table (cursor.block.length + 1) cursor

variable (gunzip : Bytes → Gunzipped) (own : ℕ) (msg slack : Bytes) (queues : List Queue)

/-- Unknown objects do no harm. At the top level `_tg_receive` returns. Inside another object the call
of `tl_deserialize` answers `NULL`, and nothing that comes later is read from the unknown object. -/
structure Contained : Prop where
  top : LooksUpUnknown table (topAccess (cursorAt msg slack 0)) →
    ∃ fuel, (tgReceive model table gunzip own fuel msg slack queues).isSome
  reported : ∀ access ∈ accesses model table (cursorAt msg slack 0), LooksUpUnknown table access →
    tlDeserialize model table access.before = some (none, access.before)
  unused : Unused table (accesses model table (cursorAt msg slack 0))

variable {model table gunzip own msg slack queues} {cursor : Cursor}

/-- An unknown object is `NULL`, and the cursor stays in front of it. -/
theorem tlDeserialize_of_unknown (h : LooksUpUnknown table (topAccess cursor)) :
    tlDeserialize model table cursor = some (none, cursor) := by
  obtain ⟨-, bytes, hread, hunknown⟩ := h
  have hread' : cursor.read 4 = some bytes := hread
  rw [tlDeserialize, tlDeserializeFuel, hread', Option.bind_eq_bind, Option.bind_some]
  rcases hunknown with hzero | hmissing
  · rw [if_pos hzero]
  · rw [hmissing]
    exact ite_self _

/-- A known object is never `NULL`, whatever is inside it. -/
theorem tlDeserialize_ne_null (h : ¬ LooksUpUnknown table (topAccess cursor)) (after : Cursor) :
    tlDeserialize model table cursor ≠ some (none, after) := by
  intro hnull
  rw [tlDeserialize, tlDeserializeFuel, Option.bind_eq_bind, Option.bind_eq_some_iff] at hnull
  obtain ⟨bytes, hread, hnull⟩ := hnull
  have hknown : ¬ UnknownId table (getUi32 bytes) := fun hunknown ↦ h ⟨rfl, bytes, hread, hunknown⟩
  obtain ⟨hne, hfound⟩ := not_or.mp hknown
  obtain ⟨method, hmethod⟩ := Option.ne_none_iff_exists'.mp hfound
  rw [if_neg hne, hmethod] at hnull
  obtain ⟨result, -, hresult⟩ := Option.bind_eq_some_iff.mp hnull
  cases hresult

/-- The bytes of unknown objects are not used again exactly if the only one is the last thing in the
buffer. -/
theorem unused_iff (h : ContainsUnknown model table cursor) :
    Unused table (accesses model table cursor) ↔ EndsUnknown model table cursor :=
  (object_traced model table (cursor.block.length + 1) cursor).traced.iff h

/-- Unknown objects do no harm exactly if the id of the message is known and the only unknown object
is the last thing in it. The outermost object is no `NULL` even then. -/
theorem contained_iff (h : ContainsUnknown model table (cursorAt msg slack 0)) :
    (Contained model table gunzip own msg slack queues ↔
      ¬ LooksUpUnknown table (topAccess (cursorAt msg slack 0)) ∧
        EndsUnknown model table (cursorAt msg slack 0)) ∧
      (¬ LooksUpUnknown table (topAccess (cursorAt msg slack 0)) → ∀ after,
        tlDeserialize model table (cursorAt msg slack 0) ≠ some (none, after)) := by
  refine ⟨⟨fun hcontained ↦ ⟨fun htop ↦ ?_, (unused_iff h).mp hcontained.unused⟩, fun hends ↦ ?_⟩,
    tlDeserialize_ne_null⟩
  · obtain ⟨fuel, hreturns⟩ := hcontained.top htop
    rw [tgReceive, tlDeserialize_of_unknown htop] at hreturns
    exact Bool.false_ne_true hreturns
  · obtain ⟨htop, hends⟩ := hends
    exact ⟨fun htop' ↦ absurd htop' htop,
      fun access _ hlooked ↦ tlDeserialize_of_unknown ⟨rfl, hlooked.2⟩, (unused_iff h).mpr hends⟩

end Unknown

/-! ## An unknown result, and an unknown update -/

/-- The result of a request, of a constructor that the table does not have. -/
def unknownResult : Bytes := le32 0xf35c6d01 ++ le64 7 ++ le32 0xdeadbeef

/-- The request is handed a `NULL`, and nothing else is read. -/
theorem unknownResult_contained :
    Contained .lp64 [rpcResult] (fun _ ↦ ⟨false, [], 0⟩) 0 unknownResult [0] [] := by
  have hcontains : ContainsUnknown .lp64 [rpcResult] (cursorAt unknownResult [0] 0) := by
    unfold ContainsUnknown
    decide +kernel
  refine (contained_iff hcontains).1.mpr ⟨by decide +kernel, fun bytes hread _ method hmethod ↦ ?_⟩
  obtain rfl : bytes = le32 0xf35c6d01 := by
    rw [← Option.some_inj, ← hread]
    decide +kernel
  obtain rfl : rpcResult = method := by
    rw [← Option.some_inj, ← hmethod]
    decide +kernel
  refine ⟨(0xf35c6d01, cursorAt unknownResult [0] 4), by decide +kernel, ?_⟩
  rw [if_neg (by decide)]
  refine ⟨fun h ↦ absurd h (by decide +kernel),
    fun _ ↦ ⟨.long 7, cursorAt unknownResult [0] 12, rfl, fun _ ↦ ⟨?_, fun _ _ _ ↦ trivial⟩,
      fun h ↦ absurd ?_ h⟩⟩
  · intro bytes hread _ method hmethod
    obtain rfl : bytes = le32 0xdeadbeef := by
      rw [← Option.some_inj, ← hread]
      decide +kernel
    have hunknown : getFun [rpcResult] (getUi32 (le32 0xdeadbeef)) = none := by decide +kernel
    rw [hunknown] at hmethod
    cases hmethod
  · decide +kernel

def updateShort : Method where
  name := "updateShort"
  id := 0x78d4dec1
  args := [⟨"update", some "Update", 0, 0⟩, ⟨"date", some "int", 0, 0⟩]
  isMtproto := false

/-- An `updateShort` with an update that the table does not have, and a date. -/
def unknownUpdate : Bytes := le32 0x78d4dec1 ++ le32 0xdeadbeef ++ le32 1700000000

/-- The date of the unknown update is its own id. -/
theorem unknownUpdate_not_contained :
    ¬ Contained .lp64 [updateShort] (fun _ ↦ ⟨false, [], 0⟩) 0 unknownUpdate [0] [] := by
  intro hcontained
  have hunused := hcontained.unused
    ((accesses .lp64 [updateShort] (cursorAt unknownUpdate [0] 0)).take 3)
    (topAccess (cursorAt unknownUpdate [0] 4))
    ((accesses .lp64 [updateShort] (cursorAt unknownUpdate [0] 0)).drop 4) (by decide +kernel)
    ⟨rfl, le32 0xdeadbeef, by decide +kernel, .inr (by decide +kernel)⟩
    ⟨cursorAt unknownUpdate [0] 4, 4, cursorAt unknownUpdate [0] 8, .value⟩ (by decide +kernel)
    nofun
  exact absurd hunused (by decide +kernel)

end LibTg.Tg
