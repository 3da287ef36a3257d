import LibTg.Tl.Buf

/-!
# Byte strings on the wire (`tl/serialize.c`)

A byte string is written with a one-byte length up to 253, and with `0xfe` and a three-byte length
above; zero bytes pad it to a multiple of four. `tlBytes` states this format, and the buffer
programs of `serialize.c` are shown to build it.
-/

namespace LibTg.Tl

/-- The length prefix of a byte string. -/
def tlBytesHeader (bytes : Bytes) : Bytes :=
  if bytes.length ≤ 253 then [UInt8.ofNat bytes.length] else 0xfe :: leBytes 3 bytes.length

/-- The zero bytes that complete `length` bytes to a multiple of four. -/
def tlPadding (length : ℕ) : Bytes := List.replicate ((4 - length % 4) % 4) 0

/-- The wire format of a byte string. -/
def tlBytes (bytes : Bytes) : Bytes :=
  tlBytesHeader bytes ++ bytes ++ tlPadding (tlBytesHeader bytes ++ bytes).length

theorem length_tlPadding_le (length : ℕ) : (tlPadding length).length ≤ 3 := by
  rw [tlPadding, List.length_replicate]
  omega

theorem length_tlBytes_mod (bytes : Bytes) : (tlBytes bytes).length % 4 = 0 := by
  rw [tlBytes, List.length_append, tlPadding, List.length_replicate]
  omega

theorem four_le_length_tlBytes (bytes : Bytes) : 4 ≤ (tlBytes bytes).length := by
  have hmod := length_tlBytes_mod bytes
  have hpositive : 0 < (tlBytes bytes).length := by
    simp only [tlBytes, tlBytesHeader, List.length_append]
    split <;> simp
  omega

theorem length_le_length_tlBytes (bytes : Bytes) : bytes.length ≤ (tlBytes bytes).length := by
  simp only [tlBytes, List.length_append]
  omega

section Realloc

variable (moves : ℕ → Bool)

/-- The tail of `serialize_bytes` and `serialize_str` for the long form, from the mark byte on. -/
def serializeLong (bytes : Bytes) : Option Buf := do
  let s ← bufAdd moves [0xfe]
  let s ← bufCat moves s (leBytes 3 bytes.length)
  let s ← bufCat moves s bytes
  let pad := (4 - s.size % 4) % 4
  if pad ≠ 0 then bufCat moves s (List.replicate pad 0) else some s

/-- The short form, with the length in one byte. Here the padding is appended even when empty. -/
def serializeShort (bytes : Bytes) : Option Buf := do
  let s ← bufAdd moves [UInt8.ofNat bytes.length]
  let s ← bufCat moves s bytes
  bufCat moves s (List.replicate ((4 - s.size % 4) % 4) 0)

/-- `serialize_str`, from a buffer with the given contents. -/
def serializeStr (bytes : Bytes) : Option Buf :=
  if bytes.length ≤ 253 then serializeShort moves bytes else serializeLong moves bytes

/-- `serialize_bytes`; unlike `serialize_str` it first copies its argument into a buffer. -/
def serializeBytes (bytes : Bytes) : Option Buf := do
  let copy ← bufAdd moves bytes
  if bytes.length ≤ 253 then serializeShort moves copy.bytes else serializeLong moves copy.bytes

/-- `serialize_string`: the bytes of a C string end before its first NUL. -/
def serializeString (string : Bytes) : Option Buf :=
  serializeBytes moves (string.takeWhile (· ≠ 0))

/-! ## The programs build the format -/

theorem bufAdd_spec (data : Bytes) (hfits : data.length + 1 < 2 ^ 32) :
    ∃ buf, bufAdd moves data = some buf ∧ Holds buf data := by
  obtain ⟨buf, hcat, hholds, -⟩ :=
    bufCat_spec moves holds_bufNew data (by simpa using hfits)
  exact ⟨buf, hcat, by simpa using hholds⟩

theorem bufAdd_inv {data : Bytes} {buf : Buf} (h : bufAdd moves data = some buf) :
    data.length + 1 < 2 ^ 32 ∧ Holds buf data := by
  obtain ⟨hfits, hholds⟩ := bufCat_inv moves holds_bufNew (by decide) h
  exact ⟨by simpa using hfits, by simpa using hholds⟩

theorem serializeShort_spec (bytes : Bytes) (hshort : bytes.length ≤ 253) :
    ∃ buf, serializeShort moves bytes = some buf ∧ Holds buf (tlBytes bytes) := by
  have hheader : tlBytesHeader bytes = [UInt8.ofNat bytes.length] := by
    rw [tlBytesHeader, if_pos hshort]
  obtain ⟨s, hs, hsHolds⟩ := bufAdd_spec moves [UInt8.ofNat bytes.length] (by simp)
  obtain ⟨t, ht, htHolds, -⟩ := bufCat_spec moves hsHolds bytes (by simp; omega)
  have hpad := length_tlPadding_le t.size
  obtain ⟨u, hu, huHolds, -⟩ := bufCat_spec moves htHolds (tlPadding t.size)
    (by simp only [List.length_append, List.length_singleton]; omega)
  refine ⟨u, ?_, ?_⟩
  · simp only [serializeShort, hs, ht, Option.bind_eq_bind, Option.bind_some]
    exact hu
  · rwa [tlBytes, hheader, ← htHolds.size_eq]

theorem serializeLong_spec (bytes : Bytes) (hlong : ¬ bytes.length ≤ 253)
    (hfits : (tlBytes bytes).length + 1 < 2 ^ 32) :
    ∃ buf, serializeLong moves bytes = some buf ∧ Holds buf (tlBytes bytes) := by
  have hheader : tlBytesHeader bytes = 0xfe :: leBytes 3 bytes.length := by
    rw [tlBytesHeader, if_neg hlong]
  have htotal : (tlBytes bytes).length =
      4 + bytes.length + (tlPadding (4 + bytes.length)).length := by
    simp only [tlBytes, hheader, List.length_append, List.length_cons, length_leBytes]
  obtain ⟨s, hs, hsHolds⟩ := bufAdd_spec moves [0xfe] (by simp)
  obtain ⟨t, ht, htHolds, -⟩ := bufCat_spec moves hsHolds (leBytes 3 bytes.length) (by simp)
  obtain ⟨u, hu, huHolds, -⟩ := bufCat_spec moves htHolds bytes
    (by simp only [List.length_append, List.length_singleton, length_leBytes]; omega)
  have husize : u.size = 4 + bytes.length := by
    rw [huHolds.size_eq]
    simp only [List.length_append, List.length_singleton, length_leBytes]
  have hformat : tlBytes bytes =
      [0xfe] ++ leBytes 3 bytes.length ++ bytes ++ tlPadding u.size := by
    have hsize : (tlBytesHeader bytes ++ bytes).length = u.size := by
      rw [huHolds.size_eq, hheader, List.singleton_append]
    rw [tlBytes, hsize, hheader, List.singleton_append]
  have hprogram : serializeLong moves bytes =
      if (4 - u.size % 4) % 4 ≠ 0 then bufCat moves u (tlPadding u.size) else some u := by
    simp only [serializeLong, hs, ht, hu, Option.bind_eq_bind, Option.bind_some, tlPadding]
  rw [hprogram, hformat]
  by_cases hpad : (4 - u.size % 4) % 4 = 0
  · have hnone : tlPadding u.size = [] := by rw [tlPadding, hpad, List.replicate_zero]
    rw [if_neg (by simpa using hpad), hnone, List.append_nil]
    exact ⟨u, rfl, huHolds⟩
  · rw [if_pos hpad]
    obtain ⟨v, hv, hvHolds, -⟩ := bufCat_spec moves huHolds (tlPadding u.size)
      (by rw [← List.length_append, ← hformat]; exact hfits)
    exact ⟨v, hv, hvHolds⟩

/-- The long form only returns for a total in the 32-bit range. -/
theorem serializeLong_fits {bytes : Bytes} {buf : Buf} (hlong : ¬ bytes.length ≤ 253)
    (h : serializeLong moves bytes = some buf) : (tlBytes bytes).length + 1 < 2 ^ 32 := by
  simp only [serializeLong, Option.bind_eq_bind, Option.bind_eq_some_iff] at h
  obtain ⟨s, hs, t, ht, u, hu, hpad⟩ := h
  obtain ⟨hsFits, hsHolds⟩ := bufAdd_inv moves hs
  obtain ⟨htFits, htHolds⟩ := bufCat_inv moves hsHolds hsFits ht
  obtain ⟨huFits, huHolds⟩ :=
    bufCat_inv moves htHolds (by rw [List.length_append]; exact htFits) hu
  have hheader : tlBytesHeader bytes = [0xfe] ++ leBytes 3 bytes.length := by
    rw [tlBytesHeader, if_neg hlong, List.singleton_append]
  have hformat : tlBytes bytes = [0xfe] ++ leBytes 3 bytes.length ++ bytes ++ tlPadding u.size := by
    rw [tlBytes, hheader, ← huHolds.size_eq]
  rw [← List.length_append] at huFits
  rw [hformat, List.length_append]
  split at hpad
  · exact (bufCat_inv moves huHolds huFits hpad).1
  · rename_i hzero
    simp only [ne_eq, not_not] at hzero
    rw [tlPadding, hzero, List.replicate_zero]
    exact huFits

theorem serializeStr_spec (bytes : Bytes) (hfits : (tlBytes bytes).length + 1 < 2 ^ 32) :
    ∃ buf, serializeStr moves bytes = some buf ∧ Holds buf (tlBytes bytes) := by
  unfold serializeStr
  split
  · exact serializeShort_spec moves bytes ‹_›
  · exact serializeLong_spec moves bytes ‹_› hfits

/-- The copy that `serialize_bytes` makes is the only difference from `serialize_str`. -/
theorem serializeBytes_eq_serializeStr (bytes : Bytes) (hfits : bytes.length + 1 < 2 ^ 32) :
    serializeBytes moves bytes = serializeStr moves bytes := by
  obtain ⟨copy, hcopy, hholds⟩ := bufAdd_spec moves bytes hfits
  simp only [serializeBytes, hcopy, Option.bind_eq_bind, Option.bind_some, hholds.bytes_eq,
    serializeStr]

theorem serializeBytes_spec (bytes : Bytes) (hfits : (tlBytes bytes).length + 1 < 2 ^ 32) :
    ∃ buf, serializeBytes moves bytes = some buf ∧ Holds buf (tlBytes bytes) := by
  have hle := length_le_length_tlBytes bytes
  rw [serializeBytes_eq_serializeStr moves bytes (by omega)]
  exact serializeStr_spec moves bytes hfits

theorem serializeStr_inv {bytes : Bytes} {buf : Buf} (h : serializeStr moves bytes = some buf) :
    Holds buf (tlBytes bytes) := by
  have hfits : (tlBytes bytes).length + 1 < 2 ^ 32 := by
    unfold serializeStr at h
    split at h
    · rename_i hshort
      have hpad := length_tlPadding_le (tlBytesHeader bytes ++ bytes).length
      rw [tlBytes, List.length_append]
      rw [tlBytesHeader, if_pos hshort] at hpad ⊢
      simp only [List.length_append, List.length_singleton] at hpad ⊢
      omega
    · exact serializeLong_fits moves ‹_› h
  obtain ⟨expected, hspec, hholds⟩ := serializeStr_spec moves bytes hfits
  rw [h] at hspec
  cases hspec
  exact hholds

theorem serializeBytes_inv {bytes : Bytes} {buf : Buf}
    (h : serializeBytes moves bytes = some buf) : Holds buf (tlBytes bytes) := by
  have hfits : bytes.length + 1 < 2 ^ 32 := by
    simp only [serializeBytes, Option.bind_eq_bind, Option.bind_eq_some_iff] at h
    obtain ⟨copy, hcopy, -⟩ := h
    exact (bufAdd_inv moves hcopy).1
  rw [serializeBytes_eq_serializeStr moves bytes hfits] at h
  exact serializeStr_inv moves h

end Realloc

end LibTg.Tl
