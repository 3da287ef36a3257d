import LibTg.Tg.Dispatch
import LibTg.Tl.Buf

/-!
# Compressed objects (`tl/gunzip.c`, `tg/queue.c`, `tg/tg.c`)

`gunzip_buf` makes room for ten times as many bytes as the compressed ones and calls `inflate` once.
The three functions that use it differ in what they do when it fails: `catched_tl` and
`tg_tl_from_gzip` go on without an object, and `handle_tl` reads one from the output buffer. The
function `inflate` of zlib is a parameter.
-/

namespace LibTg.Tg

open LibTg.Tl

/-! ## The functions -/

def zOk : Int32 := 0

def zStreamEnd : Int32 := 1

/-- What `inflate(&s, Z_FINISH)` returns, and the bytes it has written to the output. -/
structure Inflated where
  ret : Int32
  written : Bytes
  deriving DecidableEq, Repr

/-- `ret != Z_OK && ret != Z_STREAM_END`. -/
def Inflated.Failed (result : Inflated) : Prop := result.ret ≠ zOk ∧ result.ret ≠ zStreamEnd

instance (result : Inflated) : Decidable result.Failed := inferInstanceAs (Decidable (_ ∧ _))

/-- `inflate`, with the input and the size of the output space. -/
abbrev Inflate := Bytes → ℕ → Inflated

/-- The room that is made for the output of `length` bytes. -/
def outputSpace (length : ℕ) : ℕ := max bufsiz (length * 10 % 2 ^ 32)

section Gunzip

variable (moves : ℕ → Bool) (inflate : Inflate)

/-- `gunzip_buf`. On an error `dst` keeps the size zero of a new buffer. -/
def gunzipBuf (src : Bytes) : Gunzipped :=
  match bufRealloc moves bufNew (src.length * 10 % 2 ^ 32) with
  | none => ⟨false, [], 0⟩
  | some dst =>
    let result := inflate src dst.asize
    let block := overwrite dst.mem 0 result.written
    if result.Failed then ⟨false, block, 0⟩
    else ⟨true, block, UInt32.ofNat result.written.length⟩

variable (model : DataModel) (table : List Method)

def tgTlFromGzip (tl : Option TlObj) : Option (Option TlObj) :=
  match tl with
  | none => some none
  | some tl =>
    if tl.id ≠ gzipPacked.id then some none
    else do
      let packed ← bufField tl 0
      let result := gunzipBuf moves inflate packed
      if result.ok then (tlDeserialize model table result.cursor).map Prod.fst else some none

/-- The three places that take a `gzip_packed` apart. -/
inductive GzipSite
  | handleTl
  | catchedTl
  | tgTlFromGzip
  deriving DecidableEq

/-- The buffer that `tl_deserialize` is called with, if it is called. -/
def GzipSite.deserialises (site : GzipSite) (packed : Bytes) : Option Cursor :=
  let result := gunzipBuf moves inflate packed
  match site with
  | .handleTl => some result.cursor
  | .catchedTl => if result.ok then some result.cursor else none
  | .tgTlFromGzip => if result.ok then some result.cursor else none

/-- The object that is processed; nothing where reading it faults. -/
def GzipSite.processes (site : GzipSite) (packed : Bytes) : Option (Option TlObj) :=
  match site.deserialises moves inflate packed with
  | none => some none
  | some cursor => (tlDeserialize model table cursor).map Prod.fst

section Sites

variable {tl : TlObj} {packed : Bytes} (hpacked : bufField tl 0 = some packed)

include hpacked

/-- `catched_tl` hands over what this site processes. -/
theorem unpack_eq_processes :
    unpack model table (gunzipBuf moves inflate) tl =
      GzipSite.catchedTl.processes moves inflate model table packed := by
  rw [unpack, hpacked, GzipSite.processes, GzipSite.deserialises, Option.bind_eq_bind,
    Option.bind_some]
  dsimp only
  split <;> rfl

variable (hid : tl.id = gzipPacked.id)

include hid

/-- `tg_tl_from_gzip` returns what this site processes. -/
theorem tgTlFromGzip_eq_processes :
    tgTlFromGzip moves inflate model table (some tl) =
      GzipSite.tgTlFromGzip.processes moves inflate model table packed := by
  rw [tgTlFromGzip, if_neg (not_not.mpr hid), hpacked, GzipSite.processes, GzipSite.deserialises,
    Option.bind_eq_bind, Option.bind_some]
  dsimp only
  split <;> rfl

/-- `handle_tl` calls itself with what this site processes. -/
theorem handleTl_eq_processes (own fuel : ℕ) (queues : List Queue) :
    handleTl model table (gunzipBuf moves inflate) own (fuel + 1) (some tl) queues =
      (GzipSite.handleTl.processes moves inflate model table packed).bind fun inner ↦
        handleTl model table (gunzipBuf moves inflate) own fuel inner queues := by
  rw [handleTl, if_pos hid, hpacked, GzipSite.processes, GzipSite.deserialises,
    Option.bind_eq_bind, Option.bind_some, Option.bind_map]
  rfl

end Sites

/-! ## Valid and invalid streams -/

/-- What is relied on of `inflate`, where `gzipOf` says which bytes a stream holds: it finishes if
the output fits into the space, fails otherwise, and writes no more than the space. -/
structure Zlib (gzipOf : Bytes → Bytes → Prop) : Prop where
  finish : ∀ src data space, gzipOf src data → data.length ≤ space →
    inflate src space = ⟨zStreamEnd, data⟩
  error : ∀ src space, (∀ data, gzipOf src data → space < data.length) →
    (inflate src space).Failed
  fits : ∀ src space, (inflate src space).written.length ≤ space

/-- The object inside a valid stream is processed, and nothing is read from the output of an invalid
one. -/
structure GzipSite.Decompresses (site : GzipSite) (gzipOf : Bytes → Bytes → Prop) (packed : Bytes) :
    Prop where
  valid : ∀ data, gzipOf packed data → data.length < 2 ^ 31 → ∃ slack,
    site.deserialises moves inflate packed = some (cursorAt data slack 0) ∧
      site.processes moves inflate model table packed =
        (tlDeserialize model table (cursorAt data slack 0)).map Prod.fst
  invalid : (∀ data, ¬ gzipOf packed data) → site.deserialises moves inflate packed = none

variable {inflate} {gzipOf : Bytes → Bytes → Prop} (hzlib : Zlib inflate gzipOf) {packed : Bytes}

include hzlib

/-- Two outputs of one stream are the same. -/
theorem Zlib.unique {first second : Bytes} (hfirst : gzipOf packed first)
    (hsecond : gzipOf packed second) : first = second := by
  let space := max first.length second.length
  have hleft := hzlib.finish packed first space hfirst (le_max_left _ _)
  have hright := hzlib.finish packed second space hsecond (le_max_right _ _)
  exact (Inflated.mk.inj (hleft.symm.trans hright)).2

/-- `gunzip_buf` gives `inflate` the output space and takes over what it has written. -/
theorem gunzipBuf_eq (packed : Bytes) :
    ∃ slack, (inflate packed (outputSpace packed.length)).written.length ≤
        outputSpace packed.length ∧
      gunzipBuf moves inflate packed =
        let result := inflate packed (outputSpace packed.length)
        ⟨¬ result.Failed, result.written ++ slack,
          if result.Failed then 0 else UInt32.ofNat result.written.length⟩ := by
  have heven : packed.length * 10 % 2 ^ 32 + 1 < 2 ^ 32 := by omega
  obtain ⟨dst, hdst, -, -, hasize, -⟩ :=
    bufRealloc_spec moves holds_bufNew (packed.length * 10 % 2 ^ 32) heven
  have hspace : dst.asize = outputSpace packed.length := hasize
  have hfits := hzlib.fits packed (outputSpace packed.length)
  refine ⟨dst.mem.drop (inflate packed (outputSpace packed.length)).written.length, hfits, ?_⟩
  rw [gunzipBuf, hdst]
  dsimp only
  rw [hspace, overwrite, List.take_zero, List.nil_append, Nat.zero_add]
  split <;> simp [*]

/-- A valid stream whose output fits is read from a buffer that holds the output. -/
theorem gunzipBuf_of_fits {data : Bytes} (hvalid : gzipOf packed data)
    (hfits : data.length ≤ outputSpace packed.length) :
    ∃ slack, gunzipBuf moves inflate packed = ⟨true, data ++ slack, UInt32.ofNat data.length⟩ := by
  obtain ⟨slack, -, hresult⟩ := gunzipBuf_eq moves hzlib packed
  have hfinish := hzlib.finish packed data (outputSpace packed.length) hvalid hfits
  have hok : ¬ (Inflated.mk zStreamEnd data).Failed := fun h ↦ h.2 rfl
  refine ⟨slack, hresult.trans ?_⟩
  simp only [hfinish, hok, not_false_eq_true, decide_true, if_false]

/-- Any other input is an error, and leaves an empty buffer. -/
theorem gunzipBuf_of_error
    (herror : ∀ data, gzipOf packed data → outputSpace packed.length < data.length) :
    (gunzipBuf moves inflate packed).ok = false ∧ (gunzipBuf moves inflate packed).size = 0 := by
  obtain ⟨slack, -, hresult⟩ := gunzipBuf_eq moves hzlib packed
  have hfailed := hzlib.error packed (outputSpace packed.length) herror
  rw [hresult]
  simp only [hfailed, not_true_eq_false, decide_false, if_true, and_self]

variable (site : GzipSite)

/-- The output of a valid stream that does not fit is lost. -/
theorem not_decompresses_of_large {data : Bytes} (hvalid : gzipOf packed data)
    (hdata : data.length < 2 ^ 31) (hlarge : outputSpace packed.length < data.length) :
    ¬ site.Decompresses moves inflate model table gzipOf packed := by
  intro hsite
  have herror : ∀ other, gzipOf packed other → outputSpace packed.length < other.length := by
    intro other hother
    rw [hzlib.unique hother hvalid]
    exact hlarge
  obtain ⟨hok, hsize⟩ := gunzipBuf_of_error moves hzlib herror
  obtain ⟨slack, hcursor, -⟩ := hsite.valid data hvalid hdata
  cases site with
  | handleTl =>
    have hlength := congrArg (fun cursor ↦ cursor.size.toNat) (Option.some.inj hcursor)
    have hpos : 1024 ≤ outputSpace packed.length := le_max_left _ _
    simp only [Gunzipped.cursor, hsize, UInt32.toNat_zero, cursorAt, Nat.sub_zero,
      UInt32.toNat_ofNat'] at hlength
    omega
  | catchedTl =>
    simp only [GzipSite.deserialises, hok, Bool.false_eq_true, if_false] at hcursor
    cases hcursor
  | tgTlFromGzip =>
    simp only [GzipSite.deserialises, hok, Bool.false_eq_true, if_false] at hcursor
    cases hcursor

/-- A place that takes a `gzip_packed` apart does so correctly if and only if a valid stream has no
more output than ten times its own length, or 1024 bytes, and in `handle_tl` the stream is valid. -/
theorem decompresses_iff :
    site.Decompresses moves inflate model table gzipOf packed ↔
      (∀ data, gzipOf packed data → data.length < 2 ^ 31 →
        data.length ≤ outputSpace packed.length) ∧
      (site = .handleTl → ∃ data, gzipOf packed data) := by
  constructor
  · intro hsite
    refine ⟨fun data hvalid hdata ↦ ?_, fun hhandle ↦ ?_⟩
    · by_contra hlarge
      exact not_decompresses_of_large moves model table hzlib site hvalid hdata (not_le.mp hlarge)
        hsite
    · by_contra hinvalid
      have hnone := hsite.invalid fun data hdata ↦ hinvalid ⟨data, hdata⟩
      rw [hhandle] at hnone
      cases hnone
  · rintro ⟨hfits, hhandle⟩
    constructor
    case valid =>
      intro data hvalid hdata
      obtain ⟨slack, hresult⟩ := gunzipBuf_of_fits moves hzlib hvalid (hfits data hvalid hdata)
      have hcursor : site.deserialises moves inflate packed = some (cursorAt data slack 0) := by
        cases site <;> simp [GzipSite.deserialises, hresult, Gunzipped.cursor, cursorAt]
      refine ⟨slack, hcursor, ?_⟩
      rw [GzipSite.processes, hcursor]
    case invalid =>
      intro hinvalid
      obtain ⟨hok, -⟩ := gunzipBuf_of_error moves hzlib fun data hdata ↦ absurd hdata (hinvalid data)
      cases site with
      | handleTl =>
        obtain ⟨data, hdata⟩ := hhandle rfl
        exact absurd hdata (hinvalid data)
      | catchedTl => simp [GzipSite.deserialises, hok]
      | tgTlFromGzip => simp [GzipSite.deserialises, hok]

end Gunzip

/-! ## Two streams -/

/-- `inflate` as far as one stream is concerned. -/
def inflateOne (stream data : Bytes) : Inflate := fun src space ↦
  if src = stream ∧ data.length ≤ space then ⟨zStreamEnd, data⟩ else ⟨-3, []⟩

theorem zlib_inflateOne (stream data : Bytes) :
    Zlib (inflateOne stream data) fun src output ↦ src = stream ∧ output = data where
  finish := by
    rintro src output space ⟨hsrc, rfl⟩ hspace
    exact if_pos ⟨hsrc, hspace⟩
  error := by
    intro src space herror
    have hnot : ¬ (src = stream ∧ data.length ≤ space) := by
      rintro ⟨hsrc, hspace⟩
      exact absurd (herror data ⟨hsrc, rfl⟩) (not_lt.mpr hspace)
    rw [inflateOne, if_neg hnot]
    decide
  fits := by
    intro src space
    unfold inflateOne
    split
    case isTrue h => exact h.2
    case isFalse => exact Nat.zero_le _

def boolTrueStream : Bytes :=
  [31, 139, 8, 0, 0, 0, 0, 0, 2, 3, 219, 90, 90, 52, 19, 0, 155, 251, 8, 205, 4, 0, 0, 0]

theorem decompresses_iff_boolTrue :
    GzipSite.handleTl.Decompresses (fun _ ↦ false) (inflateOne boolTrueStream [181, 117, 114, 153])
        .lp64 [] (fun src output ↦ src = boolTrueStream ∧ output = [181, 117, 114, 153])
        boolTrueStream ↔
      (∀ data : Bytes, (boolTrueStream = boolTrueStream ∧ data = [181, 117, 114, 153]) →
        data.length < 2 ^ 31 → data.length ≤ outputSpace boolTrueStream.length) ∧
      (GzipSite.handleTl = .handleTl →
        ∃ data : Bytes, boolTrueStream = boolTrueStream ∧ data = [181, 117, 114, 153]) :=
  decompresses_iff (fun _ ↦ false) .lp64 [] (zlib_inflateOne _ _) .handleTl

def zerosStream : Bytes :=
  [31, 139, 8, 0, 0, 0, 0, 0, 2, 3, 99, 96, 24, 5, 163, 96, 20, 140, 130, 81, 48, 10, 70, 193, 80,
    7, 0, 68, 244, 201, 2, 208, 7, 0, 0]

/-- The object in a short stream with much output is lost at all three places. -/
theorem not_decompresses_zeros :
    ¬ ∃ site : GzipSite, site.Decompresses (fun _ ↦ false)
      (inflateOne zerosStream (List.replicate 2000 0)) .lp64 []
      (fun src output ↦ src = zerosStream ∧ output = List.replicate 2000 0) zerosStream := by
  rw [not_exists]
  intro site
  apply not_decompresses_of_large (fun _ ↦ false) .lp64 [] (zlib_inflateOne _ _) site ⟨rfl, rfl⟩
  · rw [List.length_replicate]
    decide
  · rw [List.length_replicate]
    decide

end LibTg.Tg
