import LibTg.Tl.Deserialize
import LibTg.Tl.FlagWords
import Mathlib.Algebra.Order.Floor.Div

/-!
# Downloading a file in parts (`tg/files.c`)

`tg_get_file_with_progress` asks for one part after the other and moves an `int` offset on by the
number of bytes that have come. The server and the callback are parameters: the server is asked with
the number of the request, the callback with the number of the part. What a call does is recorded as
the requests sent, the additions made to the offset and the parts handed to the callback.
-/

namespace LibTg.Tg

open LibTg.Tl

/-- `upload.getFile`, a function of the API. -/
def uploadGetFile : Method where
  name := "upload.getFile"
  id := 0xbe5335be
  args := [⟨"flags", none, 0, 0⟩, ⟨"precise", some "true", 1, 0⟩,
    ⟨"cdn_supported", some "true", 1, 1⟩, ⟨"location", some "InputFileLocation", 0, 0⟩,
    ⟨"offset", some "long", 0, 0⟩, ⟨"limit", some "int", 0, 0⟩]
  isMtproto := false

def idUploadFile : UInt32 := 0x96a18d5

/-- The parameters of a query `upload.getFile`, neither precise nor from a CDN. What is sent for them is
`wire` (`tlUploadGetFile_spec`). -/
structure PartRequest where
  location : Bytes
  offset : UInt64
  limit : UInt32
  deriving DecidableEq, Repr

/-- The arguments that `tl_upload_getFile` is called with; `NULL` for a `bool` is `false`. -/
def PartRequest.args (request : PartRequest) : List CArg :=
  [.null, .bool false, .bool false, .one (.buf request.location), .one (.u64 request.offset),
    .one (.u32 request.limit)]

/-- A `tg_file_t`. -/
structure TgFile where
  type : UInt32
  mtime : UInt32
  bytes : Bytes
  deriving DecidableEq, Repr

/-- `tg_file_from_tl` into a zeroed file. An `upload.file` without a type is read through `NULL`. -/
def tgFileFromTl (moves : ℕ → Bool) (tl : TlObj) : Option TgFile :=
  if tl.id ≠ idUploadFile then some ⟨0, 0, []⟩
  else
    match tl.fields with
    | [.object (some type), .int mtime, .buf bytes] =>
      (bufAdd moves bytes).map fun copy ↦ ⟨type.id, mtime, copy.bytes⟩
    | _ => none

/-- How a call ends; `running` stands for a loop that has not ended yet. -/
inductive Exit where
  | returned (code : Int32)
  | undefined
  | running
  deriving DecidableEq, Repr

/-- What a call does, up to its end. -/
structure Download where
  requests : List PartRequest
  sums : List (Int32 × UInt32)
  given : List TgFile
  exit : Exit
  deriving DecidableEq, Repr

/-- A call that ends without another request. -/
def Download.ended (exit : Exit) : Download := ⟨[], [], [], exit⟩

/-- A call that ends after a request that brought no part. -/
def Download.failed (request : PartRequest) (exit : Exit) : Download := ⟨[request], [], [], exit⟩

/-- One round of the loop in front of the rest of the call. -/
def Download.round (request : PartRequest) (offset : Int32) (file : TgFile) (rest : Download) :
    Download :=
  ⟨request :: rest.requests, (offset, UInt32.ofNat file.bytes.length) :: rest.sums,
    file :: rest.given, rest.exit⟩

def partLimit : ℕ := 1048576

/-- `offset/size` in the progress line has a value. -/
def QuotientDefined (offset size : Int32) : Prop :=
  size ≠ 0 ∧ ¬ (offset = Int32.minValue ∧ size = -1)

instance (offset size : Int32) : Decidable (QuotientDefined offset size) :=
  inferInstanceAs (Decidable (_ ∧ _))

/-- `offset += file.bytes_.size`: the sum is taken in `uint32_t`. -/
def addOffset (offset : Int32) (count : UInt32) : Int32 := (offset.toUInt32 + count).toInt32

section Loop

variable (moves : ℕ → Bool) (server : ℕ → PartRequest → Option TlObj)
  (callback : ℕ → TgFile → Int32) (location : Bytes) (size : Int32)

/-- The query of one round; the `int` offset is passed as a `uint64_t`. -/
def partRequest (offset : Int32) : PartRequest :=
  ⟨location, offset.toInt64.toUInt64, UInt32.ofNat partLimit⟩

/-- The loop of `tg_get_file_with_progress` from round `count` on, for at most `fuel` tests of its
condition. -/
def downloadLoop : ℕ → ℕ → Int32 → Download
  | 0, _, _ => .ended .running
  | fuel + 1, count, offset =>
    if 0 < size ∧ ¬ offset < size then .ended (.returned 0)
    else if ¬ QuotientDefined offset size then .ended .undefined
    else
      let request := partRequest location offset
      match server count request with
      | none => .failed request (.returned 1)
      | some tl =>
        if tl.id ≠ idUploadFile then .failed request (.returned 1)
        else
          match tgFileFromTl moves tl with
          | none => .failed request .undefined
          | some file =>
            .round request offset file <|
              if callback count file ≠ 0 then .ended (.returned 0)
              else downloadLoop fuel (count + 1)
                (addOffset offset (UInt32.ofNat file.bytes.length))

def tgGetFileWithProgress (fuel : ℕ) : Download :=
  downloadLoop moves server callback location size fuel 0 0

end Loop

/-! ## The query on the wire -/

/-- The bytes of a query: no flag is set. -/
def PartRequest.wire (request : PartRequest) : Bytes :=
  le32 uploadGetFile.id ++ le32 0 ++ request.location ++ le64 request.offset ++ le32 request.limit

theorem tlUploadGetFile_spec (moves : ℕ → Bool) (request : PartRequest)
    (hfits : request.wire.length + 1 < 2 ^ 32) :
    ∃ buf, tlMethod moves uploadGetFile request.args = some buf ∧ Holds buf request.wire := by
  have hlocation : valueFormat false "InputFileLocation" (.one (.buf request.location)) =
      some request.location := by
    have hvector : vectorElem "InputFileLocation" = none := by decide
    simp [valueFormat, hvector, CArg.toOne, elemFormat]
  have hoffset : valueFormat false "long" (.one (.u64 request.offset)) =
      some (le64 request.offset) := by
    have hvector : vectorElem "long" = none := by decide
    simp [valueFormat, hvector, CArg.toOne, elemFormat]
  have hlimit : valueFormat false "int" (.one (.u32 request.limit)) =
      some (le32 request.limit) := by
    have hvector : vectorElem "int" = none := by decide
    simp [valueFormat, hvector, CArg.toOne, elemFormat]
  have hlayout (words : ℕ → UInt32) : emitted uploadGetFile words
      (uploadGetFile.args.zip request.args) = le32 uploadGetFile.id ++ le32 (words 1) ++
        request.location ++ le64 request.offset ++ le32 request.limit := by
    simp [emitted, uploadGetFile, PartRequest.args, argsLayout, Arg.isFlags, strstr, argBytes,
      hlocation, hoffset, hlimit, CArg.present]
  have hlength := length_emitted uploadGetFile (fun _ ↦ 0) (uploadGetFile.args.zip request.args)
  rw [hlayout] at hlength
  have haccepts : ∀ pair ∈ uploadGetFile.args.zip request.args,
      Accepts uploadGetFile.isMtproto pair := by
    simp [uploadGetFile, PartRequest.args, Accepts, hlocation, hoffset, hlimit, CArg.toVec]
  obtain ⟨words, buf, hbuf, hholds, hwords⟩ :=
    tlMethod_spec moves uploadGetFile request.args rfl (by decide) haccepts (by
      rw [PartRequest.wire] at hfits
      omega)
  have hword : words 1 = 0 := by
    apply UInt32.toNat.inj
    apply Nat.eq_of_testBit_eq
    intro bit
    rw [UInt32.toNat_zero, Nat.zero_testBit, Bool.eq_false_iff]
    intro hbit
    obtain ⟨pair, hmem, -, hflagn, -, hpresent⟩ := hwords.sets_of_bit 1 bit hbit
    revert hflagn hpresent
    revert pair
    simp [uploadGetFile, PartRequest.args, CArg.present]
  refine ⟨buf, hbuf, ?_⟩
  rw [hlayout, hword] at hholds
  exact hholds

/-! ## The offset -/

/-- The offset after `count` bytes. -/
def offsetAt (count : ℕ) : Int32 := Int32.ofNat count

theorem addOffset_offsetAt (count size : ℕ) :
    addOffset (offsetAt count) (UInt32.ofNat size) = offsetAt (count + size) := by
  have hsum : UInt32.ofNat (count + size) = UInt32.ofNat count + UInt32.ofNat size :=
    UInt32.ofNat_add count size
  calc addOffset (offsetAt count) (UInt32.ofNat size)
      = (UInt32.ofNat count + UInt32.ofNat size).toInt32 := rfl
    _ = (UInt32.ofNat (count + size)).toInt32 := by rw [hsum]
    _ = offsetAt (count + size) := rfl

theorem toInt_offsetAt {count : ℕ} (hcount : count < 2 ^ 31) :
    (offsetAt count).toInt = count := by
  exact Int32.toInt_ofNat_of_lt hcount

theorem offsetAt_lt_iff {count size : ℕ} (hcount : count < 2 ^ 31) (hsize : size < 2 ^ 31) :
    offsetAt count < offsetAt size ↔ count < size := by
  rw [Int32.lt_iff_toInt_lt, toInt_offsetAt hcount, toInt_offsetAt hsize, Int.ofNat_lt]

theorem toUInt64_offsetAt {count : ℕ} (hcount : count < 2 ^ 31) :
    (offsetAt count).toInt64.toUInt64.toNat = count := by
  have hwide : (offsetAt count).toInt64 = Int64.ofNat count := by
    apply Int64.toInt.inj
    rw [Int32.toInt_toInt64, toInt_offsetAt hcount, Int64.toInt_ofNat_of_lt (by omega)]
  calc (offsetAt count).toInt64.toUInt64.toNat
      = (UInt64.ofNat count).toNat := by rw [hwide]; rfl
    _ = count := UInt64.toNat_ofNat_of_lt (by simp [UInt64.size]; omega)

/-! ## A download that brings the whole file -/

/-- The server answers every request for the location with the part of the file that was asked for. -/
def ServesFile (server : ℕ → PartRequest → Option TlObj) (location file : Bytes) : Prop :=
  ∀ count request, request.location = location → ∃ buf type mtime,
    server count request = some (.mk idUploadFile buf [.object (some type), .int mtime,
      .buf ((file.drop request.offset.toNat).take request.limit.toNat)])

/-- The rules for `offset` and `limit` that the comment in the source quotes. -/
def PartRequest.Aligned (request : PartRequest) : Prop :=
  request.offset.toNat % 4096 = 0 ∧ request.limit.toNat ∣ 1048576 ∧
    request.offset.toNat / (1024 * 1024) =
      (request.offset.toNat + request.limit.toNat - 1) / (1024 * 1024)

instance (request : PartRequest) : Decidable request.Aligned :=
  inferInstanceAs (Decidable (_ ∧ _ ∧ _))

/-- The call brings what the file holds from `start` on, with as few requests as that takes. -/
structure Download.Delivers (download : Download) (location file : Bytes) (start : ℕ) : Prop where
  length_requests : download.requests.length = (file.length - start) ⌈/⌉ partLimit
  requested : ∀ request ∈ download.requests, request.location = location ∧ request.Aligned
  given : (download.given.map TgFile.bytes).flatten = file.drop start
  no_overflow : ∀ sum ∈ download.sums, sum.1.toInt + sum.2.toNat < 2 ^ 31
  exit : download.exit = .returned 0

theorem aligned_partRequest (location : Bytes) {part : ℕ} (hpart : part * partLimit < 2 ^ 31) :
    (partRequest location (offsetAt (part * partLimit))).Aligned := by
  have hlimit : (UInt32.ofNat partLimit).toNat = 1048576 := rfl
  unfold PartRequest.Aligned partRequest
  dsimp only
  rw [toUInt64_offsetAt hpart, hlimit]
  unfold partLimit
  omega

theorem quotientDefined_of_pos (offset : Int32) {size : Int32} (hsize : 0 < size) :
    QuotientDefined offset size := by
  constructor
  · rintro rfl
    exact absurd hsize (by decide)
  · rintro ⟨-, rfl⟩
    exact absurd hsize (by decide)

theorem ceilDiv_partLimit_of_lt {start length : ℕ} (hstart : start < length) :
    (length - start) ⌈/⌉ partLimit = (length - (start + partLimit)) ⌈/⌉ partLimit + 1 := by
  simp only [Nat.ceilDiv_eq_add_pred_div]
  unfold partLimit
  omega

theorem delivers_ended {location file : Bytes} {start : ℕ} (hend : file.length ≤ start) :
    (Download.ended (.returned 0)).Delivers location file start where
  length_requests := by rw [Nat.sub_eq_zero_of_le hend, Nat.ceilDiv_eq_add_pred_div]; rfl
  requested := fun _ h ↦ absurd h List.not_mem_nil
  given := (List.drop_of_length_le hend).symm
  no_overflow := fun _ h ↦ absurd h List.not_mem_nil
  exit := rfl

/-- One round in front of a call that brings the rest. -/
theorem delivers_round {location file : Bytes} {part : ℕ} {received : TgFile} {rest : Download}
    (hfile : file.length < 2 ^ 31) (hpart : part * partLimit < file.length)
    (hreceived : received.bytes = (file.drop (part * partLimit)).take partLimit)
    (hrest : rest.Delivers location file ((part + 1) * partLimit)) :
    (Download.round (partRequest location (offsetAt (part * partLimit)))
      (offsetAt (part * partLimit)) received rest).Delivers location file (part * partLimit) where
  length_requests := by
    have hnext : (part + 1) * partLimit = part * partLimit + partLimit := Nat.succ_mul _ _
    rw [ceilDiv_partLimit_of_lt hpart, ← hnext, ← hrest.length_requests]
    rfl
  requested := by
    rw [Download.round, List.forall_mem_cons]
    exact ⟨⟨rfl, aligned_partRequest location (hpart.trans hfile)⟩, hrest.requested⟩
  given := by
    calc received.bytes ++ (rest.given.map TgFile.bytes).flatten
        = (file.drop (part * partLimit)).take partLimit ++
            file.drop ((part + 1) * partLimit) := by rw [hreceived, hrest.given]
      _ = (file.drop (part * partLimit)).take partLimit ++
            (file.drop (part * partLimit)).drop partLimit := by rw [List.drop_drop, Nat.succ_mul]
      _ = file.drop (part * partLimit) := List.take_append_drop _ _
  no_overflow := by
    rw [Download.round, List.forall_mem_cons]
    refine ⟨?_, hrest.no_overflow⟩
    have hlength : received.bytes.length = min partLimit (file.length - part * partLimit) := by
      rw [hreceived, List.length_take, List.length_drop]
    have hfits : received.bytes.length < 2 ^ 32 := by omega
    dsimp only
    rw [toInt_offsetAt (hpart.trans hfile), UInt32.toNat_ofNat_of_lt' hfits]
    omega
  exit := hrest.exit

section Serves

variable (moves : ℕ → Bool) {server : ℕ → PartRequest → Option TlObj}
  {callback : ℕ → TgFile → Int32} {location file : Bytes}

/-- What the answer of the server is to `tg_file_from_tl`. -/
theorem tgFileFromTl_part (buf : Bytes) (type : TlObj) (mtime : UInt32) (bytes : Bytes)
    (hfits : bytes.length + 1 < 2 ^ 32) :
    tgFileFromTl moves (.mk idUploadFile buf [.object (some type), .int mtime, .buf bytes]) =
      some ⟨type.id, mtime, bytes⟩ := by
  obtain ⟨copy, hcopy, hholds⟩ := bufAdd_spec moves bytes hfits
  simp only [tgFileFromTl, TlObj.id, TlObj.fields, ne_eq, not_true_eq_false, if_false, hcopy,
    Option.map_some, hholds.bytes_eq]

/-- The loop from the beginning of a part. -/
theorem downloadLoop_delivers (hserver : ServesFile server location file)
    (hcallback : ∀ count file, callback count file = 0)
    (hpos : 0 < file.length) (hfile : file.length < 2 ^ 31) (fuel count part : ℕ)
    (hfuel : (file.length - part * partLimit) ⌈/⌉ partLimit < fuel) :
    (downloadLoop moves server callback location (offsetAt file.length) fuel count
      (offsetAt (min (part * partLimit) file.length))).Delivers location file
      (part * partLimit) := by
  have hsize : 0 < offsetAt file.length := (offsetAt_lt_iff (by decide) hfile).mpr hpos
  induction fuel generalizing count part with
  | zero => exact absurd hfuel (Nat.not_lt_zero _)
  | succ fuel ih =>
    rw [downloadLoop]
    by_cases hend : file.length ≤ part * partLimit
    · have hdone : ¬ offsetAt file.length < offsetAt file.length := by
        rw [offsetAt_lt_iff hfile hfile]
        exact lt_irrefl _
      rw [Nat.min_eq_right hend, if_pos ⟨hsize, hdone⟩]
      exact delivers_ended hend
    · have hpart : part * partLimit < file.length := not_le.mp hend
      have hlt : offsetAt (part * partLimit) < offsetAt file.length :=
        (offsetAt_lt_iff (hpart.trans hfile) hfile).mpr hpart
      let request := partRequest location (offsetAt (part * partLimit))
      let part₁ := (file.drop (part * partLimit)).take partLimit
      obtain ⟨buf, type, mtime, hanswer⟩ := hserver count request rfl
      have hslice : (file.drop request.offset.toNat).take request.limit.toNat = part₁ := by
        rw [show request.offset.toNat = part * partLimit from
          toUInt64_offsetAt (hpart.trans hfile)]
        rfl
      rw [hslice] at hanswer
      have hlength : part₁.length = min partLimit (file.length - part * partLimit) := by
        rw [List.length_take, List.length_drop]
      have hreceived := tgFileFromTl_part moves buf type mtime part₁ (by
        unfold partLimit at hlength
        omega)
      have hnext : addOffset (offsetAt (part * partLimit)) (UInt32.ofNat part₁.length) =
          offsetAt (min ((part + 1) * partLimit) file.length) := by
        rw [addOffset_offsetAt, hlength, Nat.succ_mul]
        congr 1
        omega
      rw [Nat.min_eq_left hpart.le, if_neg (fun h ↦ h.2 hlt),
        if_neg (not_not.mpr (quotientDefined_of_pos _ hsize))]
      simp only [request] at hanswer
      simp only [hanswer, TlObj.id, ne_eq, not_true_eq_false, if_false, hreceived, hcallback, hnext]
      apply delivers_round hfile hpart rfl
      apply ih
      rw [ceilDiv_partLimit_of_lt hpart] at hfuel
      rw [Nat.add_mul, Nat.one_mul]
      omega

/-- A download of a whole file takes one request for each megabyte begun, every request obeys the
rules, the parts make up the file, the offset does not overflow, and the call returns 0. -/
theorem tgGetFileWithProgress_complete (hserver : ServesFile server location file)
    (hcallback : ∀ count file, callback count file = 0)
    (hpos : 0 < file.length) (hfile : file.length < 2 ^ 31) (fuel : ℕ)
    (hfuel : file.length ⌈/⌉ 2 ^ 20 < fuel) :
    let download :=
      tgGetFileWithProgress moves server callback location (Int32.ofNat file.length) fuel
    download.requests.length = file.length ⌈/⌉ 2 ^ 20 ∧
      (∀ request ∈ download.requests, request.location = location ∧ request.Aligned) ∧
      (download.given.map TgFile.bytes).flatten = file ∧
      (∀ sum ∈ download.sums, sum.1.toInt + sum.2.toNat < 2 ^ 31) ∧
      download.exit = .returned 0 := by
  have h := downloadLoop_delivers moves hserver hcallback hpos hfile fuel 0 0 (by
    rw [Nat.zero_mul, Nat.sub_zero]
    exact hfuel)
  rw [Nat.zero_mul, Nat.zero_min] at h
  refine ⟨?_, h.requested, ?_, h.no_overflow, h.exit⟩
  · exact h.length_requests
  · exact h.given

end Serves

/-- A server that holds one file of unknown type. -/
def partServer (location file : Bytes) (_ : ℕ) (request : PartRequest) : Option TlObj :=
  if request.location = location then
    some (.mk idUploadFile [] [.object (some (.mk 0xaa963b05 [] [])), .int 0,
      .buf ((file.drop request.offset.toNat).take request.limit.toNat)])
  else none

/-- One byte more than a megabyte takes two requests. -/
theorem tgGetFileWithProgress_complete_two :
    let file := List.replicate 1048577 7
    let download := tgGetFileWithProgress (fun _ ↦ true) (partServer [1, 2] file) (fun _ _ ↦ 0)
      [1, 2] (Int32.ofNat file.length) 3
    download.requests.length = 2 ∧
      (∀ request ∈ download.requests, request.location = [1, 2] ∧ request.Aligned) ∧
      (download.given.map TgFile.bytes).flatten = file ∧
      (∀ sum ∈ download.sums, sum.1.toInt + sum.2.toNat < 2 ^ 31) ∧
      download.exit = .returned 0 := by
  intro file download
  have hlength : file.length = 1048577 := List.length_replicate
  have hceil : file.length ⌈/⌉ 2 ^ 20 = 2 := by
    rw [hlength, Nat.ceilDiv_eq_add_pred_div]
    norm_num
  have hserver : ServesFile (partServer [1, 2] file) [1, 2] file :=
    fun _ _ hlocation ↦ ⟨_, _, _, if_pos hlocation⟩
  have hcallback : ∀ count part, (fun _ _ ↦ 0 : ℕ → TgFile → Int32) count part = 0 :=
    fun _ _ ↦ rfl
  have h := tgGetFileWithProgress_complete (fun _ ↦ true) hserver hcallback (by omega) (by omega) 3
    (by omega)
  rw [hceil] at h
  exact h

end LibTg.Tg
