import LibTg.Tg.Download

/-!
# Downloading against any server

`tg_get_document` passes a 64-bit size as an `int`, and the functions for photos pass zero for a size
that is not known. The loop of `tg_get_file_with_progress` divides by the size, and what it adds to
the offset is what the server has sent. It is safe for exactly the sizes and the answers that are
found here.
-/

namespace LibTg.Tg

open LibTg.Tl

/-! ## Answers -/

/-- An `upload.file` with its type, which `tg_file_from_tl` reads without a test. The length of its bytes
is a number of three bytes on the wire. -/
structure FileAnswer where
  buf : Bytes
  type : TlObj
  mtime : UInt32
  bytes : Bytes
  fits : bytes.length < 2 ^ 24

def FileAnswer.received (part : FileAnswer) : TgFile := ⟨part.type.id, part.mtime, part.bytes⟩

/-- What the server may answer to a query for a part. -/
inductive PartAnswer
  | missing
  | other (tl : TlObj) (hid : tl.id ≠ idUploadFile)
  | file (part : FileAnswer)

/-- The answer as the caller gets it. -/
def PartAnswer.tl : PartAnswer → Option TlObj
  | .missing => none
  | .other tl _ => some tl
  | .file part =>
    some (.mk idUploadFile part.buf [.object (some part.type), .int part.mtime, .buf part.bytes])

def PartAnswer.length : PartAnswer → ℕ
  | .file part => part.bytes.length
  | _ => 0

/-- The `int` that a caller's size becomes. -/
def sizeOf (asked : UInt64) : Int32 := asked.toUInt32.toInt32

/-- A call is safe, from a round on before which `delivered` bytes have come: every division has a
value, a round that is not the last one moves the offset on, and if the call returns 0 without
having been stopped, it has delivered what was asked for. -/
structure Download.SafeFrom (callback : ℕ → TgFile → Int32) (asked : ℕ) (count delivered : ℕ)
    (download : Download) : Prop where
  divides : download.exit ≠ .undefined
  progress : ∀ index sum file, download.sums[index]? = some sum →
    download.given[index]? = some file → callback (count + index) file = 0 →
      sum.1 < addOffset sum.1 sum.2
  delivers : download.exit = .returned 0 →
    (∀ index file, download.given[index]? = some file → callback (count + index) file = 0) →
      delivered + (download.given.map fun file ↦ file.bytes.length).sum = asked

section Parts

variable (size : Int32) (asked : ℕ) (answers : ℕ → PartAnswer) (callback : ℕ → TgFile → Int32)

/-- The number of bytes in the first `count` answers. -/
def receivedBytes (count : ℕ) : ℕ := ((List.range count).map fun index ↦ (answers index).length).sum

/-- The first `count` answers are parts that the callback lets pass, and none of them completes a
known size. -/
def GoesOn (count : ℕ) : Prop :=
  ∀ index < count, ∃ part, answers index = .file part ∧ callback index part.received = 0 ∧
    (0 < size → (receivedBytes answers (index + 1) : ℤ) < size.toInt)

/-- The size is not zero as an `int`. As long as the answers are parts and the callback lets them
pass, they are not empty and an `int` holds their number of bytes; if that number reaches a positive
size, then it is what was asked for. -/
structure PartsFit : Prop where
  size_ne : size ≠ 0
  fit : ∀ count part, GoesOn size answers callback count → answers count = .file part →
    callback count part.received = 0 →
      0 < part.bytes.length ∧ receivedBytes answers (count + 1) < 2 ^ 31 ∧
        (0 < size → size.toInt ≤ receivedBytes answers (count + 1) →
          receivedBytes answers (count + 1) = asked)

variable {size asked answers callback}

theorem receivedBytes_succ {count : ℕ} {part : FileAnswer} (hpart : answers count = .file part) :
    receivedBytes answers (count + 1) = receivedBytes answers count + part.bytes.length := by
  rw [receivedBytes, List.range_succ, List.map_append, List.sum_append, List.map_singleton,
    List.sum_singleton, hpart]
  rfl

theorem goesOn_zero : GoesOn size answers callback 0 := fun _ h ↦ absurd h (Nat.not_lt_zero _)

theorem goesOn_succ {count : ℕ} {part : FileAnswer} (hgoes : GoesOn size answers callback count)
    (hpart : answers count = .file part) (hpass : callback count part.received = 0)
    (hless : 0 < size → (receivedBytes answers (count + 1) : ℤ) < size.toInt) :
    GoesOn size answers callback (count + 1) := by
  intro index hindex
  rcases Nat.lt_succ_iff_lt_or_eq.mp hindex with hlt | rfl
  · exact hgoes index hlt
  · exact ⟨part, hpart, hpass, hless⟩

theorem GoesOn.prev {count : ℕ} (hgoes : GoesOn size answers callback (count + 1)) :
    GoesOn size answers callback count :=
  fun index hindex ↦ hgoes index (Nat.lt_succ_of_lt hindex)

end Parts

/-! ## One round -/

section Round

variable {callback : ℕ → TgFile → Int32} {asked count delivered : ℕ} {request : PartRequest}
  {offset : Int32} {file : TgFile} {rest : Download}

theorem safeFrom_ended {exit : Exit} (hdefined : exit ≠ .undefined)
    (hasked : exit = .returned 0 → delivered = asked) :
    (Download.ended exit).SafeFrom callback asked count delivered where
  divides := hdefined
  progress := fun _ _ _ h ↦ by cases h
  delivers := fun hexit _ ↦ hasked hexit

theorem safeFrom_failed :
    (Download.failed request (.returned 1)).SafeFrom callback asked count delivered where
  divides := fun h ↦ by cases h
  progress := fun _ _ _ h ↦ by cases h
  delivers := fun h _ ↦ by cases h

/-- A round that the callback ends. -/
theorem safeFrom_stopped (hstop : callback count file ≠ 0) :
    (Download.round request offset file (.ended (.returned 0))).SafeFrom callback asked count
      delivered where
  divides := fun h ↦ by cases h
  progress := by
    intro index sum received hsum hgiven hpass
    cases index with
    | zero =>
      rw [Download.round, List.getElem?_cons_zero, Option.some.injEq] at hgiven
      rw [← hgiven] at hpass
      exact absurd hpass hstop
    | succ index =>
      rw [Download.round, List.getElem?_cons_succ] at hsum
      exact absurd hsum (by simp [Download.ended])
  delivers := fun _ hpass ↦ absurd (hpass 0 file rfl) hstop

/-- A round that the callback lets pass. -/
theorem safeFrom_round_iff (hpass : callback count file = 0) :
    (Download.round request offset file rest).SafeFrom callback asked count delivered ↔
      offset < addOffset offset (UInt32.ofNat file.bytes.length) ∧
        rest.SafeFrom callback asked (count + 1) (delivered + file.bytes.length) := by
  have hshift (index : ℕ) : count + 1 + index = count + (index + 1) := by omega
  constructor
  · intro hsafe
    have hmoves := hsafe.progress 0 (offset, UInt32.ofNat file.bytes.length) file rfl rfl hpass
    refine ⟨hmoves, hsafe.divides, ?_, ?_⟩
    · intro index sum received hsum hgiven hcallback
      rw [hshift] at hcallback
      exact hsafe.progress (index + 1) sum received hsum hgiven hcallback
    · intro hexit hall
      have htotal := hsafe.delivers hexit fun index received hgiven ↦ by
        cases index with
        | zero =>
          rw [Download.round, List.getElem?_cons_zero, Option.some.injEq] at hgiven
          rw [← hgiven]
          exact hpass
        | succ index =>
          rw [← hshift]
          exact hall index received hgiven
      rw [← htotal, Download.round, List.map_cons, List.sum_cons, Nat.add_assoc]
  · rintro ⟨hmoves, hsafe⟩
    refine ⟨hsafe.divides, ?_, ?_⟩
    · intro index sum received hsum hgiven hcallback
      cases index with
      | zero =>
        rw [Download.round, List.getElem?_cons_zero, Option.some.injEq] at hsum
        rw [← hsum]
        exact hmoves
      | succ index =>
        rw [← hshift] at hcallback
        exact hsafe.progress index sum received hsum hgiven hcallback
    · intro hexit hall
      have htotal := hsafe.delivers hexit fun index received hgiven ↦ by
        rw [hshift]
        exact hall (index + 1) received hgiven
      rw [← htotal, Download.round, List.map_cons, List.sum_cons, Nat.add_assoc]

end Round

/-! ## The loop -/

section Loop

variable (moves : ℕ → Bool) (answers : ℕ → PartAnswer) (callback : ℕ → TgFile → Int32)
  (location : Bytes) {size : Int32} {asked fuel count delivered : ℕ}

/-- The loop against a server that gives these answers. -/
def answeredLoop (size : Int32) (fuel count : ℕ) (offset : Int32) : Download :=
  downloadLoop moves (fun index _ ↦ (answers index).tl) callback location size fuel count offset

theorem lt_addOffset_iff {len : ℕ} (hdelivered : delivered < 2 ^ 31) (hlen : len < 2 ^ 24) :
    offsetAt delivered < addOffset (offsetAt delivered) (UInt32.ofNat len) ↔
      0 < len ∧ delivered + len < 2 ^ 31 := by
  rw [addOffset_offsetAt]
  by_cases hfits : delivered + len < 2 ^ 31
  · rw [offsetAt_lt_iff hdelivered hfits]
    omega
  · have hwrap : (offsetAt (delivered + len)).toInt = (delivered + len : ℕ) - 2 ^ 32 := by
      have hmodulus : (Int32.size : ℤ) = 2 ^ 32 := rfl
      rw [offsetAt, Int32.toInt_ofNat', Int.bmod_def, hmodulus]
      split <;> omega
    rw [Int32.lt_iff_toInt_lt, toInt_offsetAt hdelivered, hwrap]
    omega

/-- A known size that has been reached ends the loop. -/
theorem answeredLoop_of_reached (hpos : 0 < size) (hreached : size ≤ offsetAt delivered) :
    answeredLoop moves answers callback location size (fuel + 1) count (offsetAt delivered) =
      .ended (.returned 0) := by
  rw [answeredLoop, downloadLoop, if_pos ⟨hpos, Int32.not_lt.mpr hreached⟩]

variable (hsize : size ≠ 0) (hdelivered : delivered < 2 ^ 31)
  (hmore : 0 < size → offsetAt delivered < size)

include hsize hdelivered hmore

/-- Otherwise the server is asked. -/
theorem answeredLoop_eq :
    answeredLoop moves answers callback location size (fuel + 1) count (offsetAt delivered) =
      let request := partRequest location (offsetAt delivered)
      match answers count with
      | .file part =>
        .round request (offsetAt delivered) part.received <|
          if callback count part.received ≠ 0 then .ended (.returned 0)
          else
            answeredLoop moves answers callback location size fuel (count + 1)
              (offsetAt (delivered + part.bytes.length))
      | _ => .failed request (.returned 1) := by
  have hquotient : QuotientDefined (offsetAt delivered) size := by
    refine ⟨hsize, fun h ↦ ?_⟩
    have hvalue := toInt_offsetAt hdelivered
    rw [h.1] at hvalue
    exact absurd hvalue (by
      have hmin : Int32.minValue.toInt = -2147483648 := rfl
      omega)
  rw [answeredLoop, downloadLoop, if_neg (fun h ↦ h.2 (hmore h.1)), if_neg (not_not.mpr hquotient)]
  cases hanswer : answers count with
  | missing => rfl
  | other tl hid => exact if_pos hid
  | file part =>
    have hreceived := tgFileFromTl_part moves part.buf part.type part.mtime part.bytes (by
      have hfits := part.fits
      omega)
    simp only [PartAnswer.tl, TlObj.id, ne_eq, not_true_eq_false, if_false, hreceived]
    rw [addOffset_offsetAt]
    rfl

/-- One round decides, with the rest of the loop, whether a call is safe. -/
theorem safeFrom_answeredLoop_iff :
    (answeredLoop moves answers callback location size (fuel + 1) count
        (offsetAt delivered)).SafeFrom callback asked count delivered ↔
      ∀ part, answers count = .file part → callback count part.received = 0 →
        (0 < part.bytes.length ∧ delivered + part.bytes.length < 2 ^ 31) ∧
          (answeredLoop moves answers callback location size fuel (count + 1)
              (offsetAt (delivered + part.bytes.length))).SafeFrom callback asked (count + 1)
            (delivered + part.bytes.length) := by
  rw [answeredLoop_eq moves answers callback location hsize hdelivered hmore]
  cases hanswer : answers count with
  | missing => exact iff_of_true safeFrom_failed fun _ h ↦ by cases h
  | other tl hid => exact iff_of_true safeFrom_failed fun _ h ↦ by cases h
  | file part =>
    dsimp only
    by_cases hpass : callback count part.received = 0
    · rw [if_neg (not_not.mpr hpass), safeFrom_round_iff hpass, FileAnswer.received,
        lt_addOffset_iff hdelivered part.fits]
      constructor
      · rintro hsafe other hother -
        cases hother
        exact hsafe
      · exact fun hall ↦ hall part rfl hpass
    · rw [if_pos hpass]
      refine iff_of_true (safeFrom_stopped hpass) fun other hother hother' ↦ ?_
      cases hother
      exact absurd hother' hpass

end Loop

/-! ## The whole download -/

section Whole

variable (moves : ℕ → Bool) (answers : ℕ → PartAnswer) (callback : ℕ → TgFile → Int32)
  (location : Bytes) {size : Int32} {asked : ℕ}

/-- Before a known size is reached, the offset is below it. -/
theorem lt_size_of_goesOn {count : ℕ} (hgoes : GoesOn size answers callback count)
    (hfits : receivedBytes answers count < 2 ^ 31) (hpos : 0 < size) :
    offsetAt (receivedBytes answers count) < size := by
  rw [Int32.lt_iff_toInt_lt, toInt_offsetAt hfits]
  cases count with
  | zero => exact Int32.lt_iff_toInt_lt.mp hpos
  | succ count =>
    obtain ⟨part, -, -, hless⟩ := hgoes count (Nat.lt_succ_self count)
    exact hless hpos

/-- Parts that fit make every run of the loop safe. -/
theorem safeFrom_of_partsFit (hfit : PartsFit size asked answers callback) (fuel : ℕ) {count : ℕ}
    (hgoes : GoesOn size answers callback count) (hfits : receivedBytes answers count < 2 ^ 31) :
    (answeredLoop moves answers callback location size fuel count
      (offsetAt (receivedBytes answers count))).SafeFrom callback asked count
        (receivedBytes answers count) := by
  induction fuel generalizing count with
  | zero => exact safeFrom_ended (fun h ↦ by cases h) fun h ↦ by cases h
  | succ fuel ih =>
    rw [safeFrom_answeredLoop_iff moves answers callback location hfit.size_ne hfits
      (lt_size_of_goesOn answers callback hgoes hfits)]
    intro part hpart hpass
    obtain ⟨hlen, hnext, hasked⟩ := hfit.fit count part hgoes hpart hpass
    have hsucc := receivedBytes_succ hpart
    rw [← hsucc]
    refine ⟨⟨hlen, hnext⟩, ?_⟩
    by_cases hless : 0 < size → (receivedBytes answers (count + 1) : ℤ) < size.toInt
    · exact ih (goesOn_succ hgoes hpart hpass hless) hnext
    · obtain ⟨hpos, hreached⟩ := Classical.not_imp.mp hless
      have hle : size.toInt ≤ receivedBytes answers (count + 1) := not_lt.mp hreached
      cases fuel with
      | zero => exact safeFrom_ended (fun h ↦ by cases h) fun h ↦ by cases h
      | succ fuel =>
        rw [answeredLoop_of_reached moves answers callback location hpos (by
          rw [Int32.le_iff_toInt_le, toInt_offsetAt hnext]
          exact hle)]
        exact safeFrom_ended (fun h ↦ by cases h) fun _ ↦ hasked hpos hle

/-- Where every run of the loop is safe, the parts so far fit. -/
theorem fits_of_safeFrom (hsize : size ≠ 0)
    (hsafe : ∀ fuel, (answeredLoop moves answers callback location size fuel 0
      (offsetAt 0)).SafeFrom callback asked 0 0) (count : ℕ)
    (hgoes : GoesOn size answers callback count) :
    receivedBytes answers count < 2 ^ 31 ∧ ∀ fuel,
      (answeredLoop moves answers callback location size fuel count
        (offsetAt (receivedBytes answers count))).SafeFrom callback asked count
          (receivedBytes answers count) := by
  induction count with
  | zero => exact ⟨Nat.two_pow_pos 31, hsafe⟩
  | succ count ih =>
    obtain ⟨hfits, hbefore⟩ := ih hgoes.prev
    obtain ⟨part, hpart, hpass, -⟩ := hgoes count (Nat.lt_succ_self count)
    have hround (fuel : ℕ) := (safeFrom_answeredLoop_iff moves answers callback location hsize hfits
      (lt_size_of_goesOn answers callback hgoes.prev hfits)).mp (hbefore (fuel + 1)) part hpart hpass
    rw [receivedBytes_succ hpart]
    exact ⟨(hround 0).1.2, fun fuel ↦ (hround fuel).2⟩

/-- For a size that the caller asks for as a 64-bit number, a download is safe against a sequence of
answers if and only if the parts fit. -/
theorem tgGetFileWithProgress_safe_iff (asked : UInt64) :
    (∀ fuel, (tgGetFileWithProgress moves (fun index _ ↦ (answers index).tl) callback location
        (sizeOf asked) fuel).SafeFrom callback asked.toNat 0 0) ↔
      PartsFit (sizeOf asked) asked.toNat answers callback := by
  constructor
  · intro hsafe
    have hsize : sizeOf asked ≠ 0 := by
      intro hzero
      have hfirst := (hsafe 1).divides
      rw [tgGetFileWithProgress, downloadLoop, hzero] at hfirst
      exact hfirst rfl
    refine ⟨hsize, fun count part hgoes hpart hpass ↦ ?_⟩
    obtain ⟨hfits, hrun⟩ := fits_of_safeFrom moves answers callback location hsize hsafe count hgoes
    have hround (fuel : ℕ) := (safeFrom_answeredLoop_iff moves answers callback location hsize hfits
      (lt_size_of_goesOn answers callback hgoes hfits)).mp (hrun (fuel + 1)) part hpart hpass
    simp only [← receivedBytes_succ hpart] at hround
    have hnext := (hround 0).1.2
    refine ⟨(hround 0).1.1, hnext, fun hpos hreached ↦ ?_⟩
    have hend := (hround 1).2
    rw [answeredLoop_of_reached moves answers callback location hpos (by
      rw [Int32.le_iff_toInt_le, toInt_offsetAt hnext]
      exact hreached)] at hend
    exact hend.delivers rfl fun _ _ h ↦ by cases h
  · intro hfit fuel
    exact safeFrom_of_partsFit moves answers callback location hfit fuel goesOn_zero
      (Nat.two_pow_pos 31)

end Whole

/-- The size zero of the functions for photos. -/
theorem not_safe_photo :
    ¬ ∀ fuel, (tgGetFileWithProgress (fun _ ↦ false) (fun _ _ ↦ PartAnswer.missing.tl) (fun _ _ ↦ 1)
      [1] (sizeOf 0) fuel).SafeFrom (fun _ _ ↦ 1) 0 0 0 :=
  fun hsafe ↦ (hsafe 1).divides rfl

end LibTg.Tg
