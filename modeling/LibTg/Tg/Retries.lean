import LibTg.Tg.Upload

/-!
# Retries of an upload

A part that the server does not take is sent again. The test `retry > 9` in front of the query only
reports an error, so the loop ends when the server has taken all parts and not before.
-/

namespace LibTg.Tg

open LibTg.Tl

/-! ## Counting answers -/

section Answers

variable (answers : ℕ → Option TlObj)

/-- The answers `boolTrue` among the first `count`. -/
def hits (count : ℕ) : ℕ := (List.range count).countP fun index ↦ accepted (answers index)

/-- The other answers among the first `count`. -/
def misses (count : ℕ) : ℕ := (List.range count).countP fun index ↦ ¬ accepted (answers index)

theorem hits_add_misses (count : ℕ) : hits answers count + misses answers count = count := by
  have hcount := List.length_eq_countP_add_countP (l := List.range count)
    fun index ↦ accepted (answers index)
  rw [List.length_range] at hcount
  exact hcount.symm

variable {answers} {first second count : ℕ}

theorem hits_mono (hle : first ≤ second) : hits answers first ≤ hits answers second :=
  (List.range_sublist.mpr hle).countP_le

theorem misses_mono (hle : first ≤ second) : misses answers first ≤ misses answers second :=
  (List.range_sublist.mpr hle).countP_le

theorem hits_succ_of_accepted (haccepted : accepted (answers count) = true) :
    hits answers (count + 1) = hits answers count + 1 := by
  rw [hits, List.range_succ, List.countP_append, List.countP_singleton, if_pos haccepted]
  rfl

theorem hits_succ_of_missed (hmissed : ¬ accepted (answers count) = true) :
    hits answers (count + 1) = hits answers count := by
  rw [hits, List.range_succ, List.countP_append, List.countP_singleton, if_neg hmissed]
  rfl

theorem misses_succ_of_missed (hmissed : ¬ accepted (answers count) = true) :
    misses answers (count + 1) = misses answers count + 1 := by
  rw [misses, List.range_succ, List.countP_append, List.countP_singleton,
    if_pos (decide_eq_true hmissed)]
  rfl

end Answers

/-! ## Bounded retries -/

/-- The number of failed attempts at which the code reports that it gives up. -/
def retryLimit : ℕ := 10

/-- Once the server has failed to take a part `retryLimit` times, nothing more is sent, and the call
returns an error; so every part is sent at most that often, and the call ends. -/
structure RetriesBounded (answers : ℕ → Option TlObj) (upload : ℕ → Upload) : Prop where
  resent : ∀ fuel index, index < (upload fuel).parts.length → misses answers index < retryLimit
  each : ∀ fuel part,
    ((upload fuel).parts.countP fun query ↦ query.filePart = part) ≤ retryLimit
  media : ∀ fuel query, .media query ∈ (upload fuel).queries →
    misses answers (upload fuel).parts.length < retryLimit
  failed : ∀ fuel code, retryLimit ≤ misses answers (upload fuel).parts.length →
    (upload fuel).exit = .returned code → code ≠ 0
  ends : ∃ fuel, (upload fuel).exit ≠ .running

/-- The number of parts that have to be taken: all, or those up to the first that `stops` the
loop. -/
def needed (stops : ℕ → Bool) (total : ℕ) : ℕ :=
  match (List.range total).find? stops with
  | some part => part + 1
  | none => total

/-- What `needed` is: the first part that stops the loop is the last needed one. -/
theorem needed_spec {stops : ℕ → Bool} {total part : ℕ} (hpart : part < needed stops total) :
    part < total ∧ (stops part = true → part + 1 = needed stops total) ∧
      (stops part = false → part + 1 = needed stops total → needed stops total = total) := by
  unfold needed at hpart ⊢
  split at hpart
  case h_1 first hfirst =>
    obtain ⟨hstop, hrange, hbefore⟩ := List.find?_range_eq_some.mp hfirst
    have hlt := List.mem_range.mp hrange
    refine ⟨by omega, fun hpart' ↦ ?_, fun hpart' heq ↦ ?_⟩
    · by_contra hne
      have hgoes := hbefore part (by omega)
      rw [hpart'] at hgoes
      cases hgoes
    · rw [Nat.succ.inj heq, hstop] at hpart'
      cases hpart'
  case h_2 hnone =>
    have hgoes := List.find?_range_eq_none.mp hnone part hpart
    refine ⟨hpart, fun hstop ↦ ?_, fun _ _ ↦ rfl⟩
    rw [hstop] at hgoes
    cases hgoes

theorem needed_pos {stops : ℕ → Bool} {total : ℕ} (htotal : 0 < total) :
    0 < needed stops total := by
  unfold needed
  split
  case h_1 part hpart => exact Nat.succ_pos part
  case h_2 => exact htotal

/-! ## Runs of the loop -/

/-- A run of the loop from the label on: a part is sent until it is taken, then the next one is
sent, and with the last needed part the queries for parts end. -/
inductive PartRun (answers : ℕ → Option TlObj) (wanted : ℕ) : ℕ → ℕ → ℕ → Upload → Prop
  | out (count part : ℕ) : PartRun answers wanted 0 count part (.ended .running)
  | missed {fuel count part : ℕ} {query : PartQuery} {rest : Upload}
      (hanswer : ¬ accepted (answers count) = true) (hquery : query.filePart = UInt32.ofNat part)
      (hrest : PartRun answers wanted fuel (count + 1) part rest) :
      PartRun answers wanted (fuel + 1) count part (rest.sent (.part query))
  | taken {fuel count part : ℕ} {query : PartQuery} {rest : Upload}
      (hanswer : accepted (answers count) = true) (hquery : query.filePart = UInt32.ofNat part)
      (hmore : part + 1 < wanted)
      (hrest : PartRun answers wanted fuel (count + 1) (part + 1) rest) :
      PartRun answers wanted (fuel + 1) count part (rest.sent (.part query))
  | last {fuel count part : ℕ} {query : PartQuery} {rest : Upload}
      (hanswer : accepted (answers count) = true) (hquery : query.filePart = UInt32.ofNat part)
      (hlast : part + 1 = wanted) (hparts : rest.parts = []) (hexit : rest.exit ≠ .running) :
      PartRun answers wanted (fuel + 1) count part (rest.sent (.part query))

section Loop

variable (moves : ℕ → Bool) (answers : ℕ → Option TlObj) {progress : ℕ → Int32}
  {save : UInt32 → Bytes → PartQuery} {cancels : Bool} {finish : ℕ → UInt32 → Buf → Upload}
  {file : Bytes} {total : ℕ}

/-- The parts behind which the result of `progress` ends the call. -/
def stopsAfter (cancels : Bool) (progress : ℕ → Int32) (part : ℕ) : Bool :=
  cancels && progress part ≠ 0

theorem partsRead_le (length : ℕ) : partsRead length ≤ 8192 := by
  rw [partsRead, Nat.ceilDiv_eq_add_pred_div]
  unfold partSize
  split <;> omega

/-- Behind the last block there are no more queries for parts, and the call ends. -/
theorem nextPart_end (send : Bytes → Bytes → Buf → Upload) {done : Buf → Upload}
    (hdone : ∀ buf, (done buf).parts = [] ∧ (done buf).exit ≠ .running) {buf : Buf}
    (hbuf : Holds buf (file.take (partsRead file.length * partSize))) :
    let rest := nextPart moves send done (file.drop (partsRead file.length * partSize)) buf
    rest.parts = [] ∧ rest.exit ≠ .running := by
  by_cases hfile : file.length + 1 < 2 ^ 32
  · rw [(nextPart_of_end moves send done hfile hbuf).2]
    exact hdone buf
  · rw [nextPart_of_large moves send done (not_lt.mp hfile) hbuf]
    exact ⟨rfl, fun h ↦ by cases h⟩

/-- The loop runs as `PartRun` says. -/
theorem uploadPart_run (hsave : ∀ part bytes, (save part bytes).filePart = part)
    (hfinish : ∀ count part buf,
      (finish count part buf).parts = [] ∧ (finish count part buf).exit ≠ .running)
    (fuel : ℕ) {count part : ℕ} {buf : Buf}
    (hpart : part < needed (stopsAfter cancels progress) (partsRead file.length))
    (hbuf : Holds buf (file.take ((part + 1) * partSize))) :
    PartRun answers (needed (stopsAfter cancels progress) (partsRead file.length)) fuel count part
      (uploadPart moves (fun index _ ↦ answers index) progress save cancels finish fuel count
        (UInt32.ofNat part) (block file part) (file.drop ((part + 1) * partSize)) buf) := by
  induction fuel generalizing count part buf with
  | zero => exact .out count part
  | succ fuel ih =>
    obtain ⟨hread, hstops, hgoes⟩ := needed_spec hpart
    rw [uploadPart]
    by_cases haccepted : accepted (answers count) = true
    · rw [if_pos haccepted]
      have hnumber : (UInt32.ofNat part).toNat = part :=
        UInt32.toNat_ofNat_of_lt'
          (lt_of_lt_of_le hread ((partsRead_le file.length).trans (by decide)))
      rw [hnumber]
      by_cases hstop : stopsAfter cancels progress part = true
      · have hcancel : cancels = true ∧ progress part ≠ 0 := by
          simpa [stopsAfter] using hstop
        rw [if_pos hcancel]
        exact .last haccepted (hsave _ _) (hstops hstop) rfl fun h ↦ by cases h
      · have hcancel : ¬ (cancels = true ∧ progress part ≠ 0) := by
          simpa [stopsAfter] using hstop
        rw [if_neg hcancel]
        by_cases hlast : part + 1 = needed (stopsAfter cancels progress) (partsRead file.length)
        · have htotal := hgoes (Bool.eq_false_iff.mpr hstop) hlast
          have hend : part + 1 = partsRead file.length := hlast.trans htotal
          rw [hend] at hbuf ⊢
          obtain ⟨hparts, hexit⟩ := nextPart_end moves
            (uploadPart moves (fun index _ ↦ answers index) progress save cancels finish fuel
              (count + 1) (UInt32.ofNat part + 1)) (hfinish (count + 1) (UInt32.ofNat part + 1))
            hbuf
          exact .last haccepted (hsave _ _) hlast hparts hexit
        · have hmore : part + 1 < needed (stopsAfter cancels progress) (partsRead file.length) := by
            omega
          obtain ⟨next, hnext, heq⟩ := nextPart_of_lt moves
            (uploadPart moves (fun index _ ↦ answers index) progress save cancels finish fuel
              (count + 1) (UInt32.ofNat part + 1)) (finish (count + 1) (UInt32.ofNat part + 1))
            (needed_spec hmore).1 hbuf
          have hsucc : UInt32.ofNat part + 1 = UInt32.ofNat (part + 1) :=
            (UInt32.ofNat_add part 1).symm
          rw [heq, hsucc]
          exact .taken haccepted (hsave _ _) hmore (ih hmore hnext)
    · rw [if_neg haccepted]
      exact .missed haccepted (hsave _ _) (ih hpart hbuf)

end Loop

section Run

variable {answers : ℕ → Option TlObj} {wanted fuel count part : ℕ} {upload : Upload}

/-- Every query for a part is sent before all needed parts have been taken. -/
theorem PartRun.hits_lt (hrun : PartRun answers wanted fuel count part upload)
    (hcount : hits answers count = part) (hpart : part < wanted) {index : ℕ}
    (hindex : index < upload.parts.length) : hits answers (count + index) < wanted := by
  induction hrun generalizing index with
  | out count part => exact absurd hindex (Nat.not_lt_zero _)
  | @missed fuel count part query rest hanswer hquery hrest ih =>
    cases index with
    | zero => rw [Nat.add_zero, hcount]; exact hpart
    | succ index =>
      have hnext := ih ((hits_succ_of_missed hanswer).trans hcount) hpart
        (Nat.lt_of_succ_lt_succ hindex)
      rwa [Nat.add_right_comm] at hnext
  | @taken fuel count part query rest hanswer hquery hmore hrest ih =>
    cases index with
    | zero => rw [Nat.add_zero, hcount]; exact hpart
    | succ index =>
      have hnext := ih ((hits_succ_of_accepted hanswer).trans (congrArg (· + 1) hcount)) hmore
        (Nat.lt_of_succ_lt_succ hindex)
      rwa [Nat.add_right_comm] at hnext
  | last hanswer hquery hlast hparts hexit =>
    rw [parts_sent_part, hparts, List.length_singleton] at hindex
    rw [Nat.lt_one_iff.mp hindex, Nat.add_zero, hcount]
    exact hpart

/-- As long as a needed part has not been taken, queries for parts are sent. -/
theorem PartRun.lt_length (hrun : PartRun answers wanted fuel count part upload)
    (hcount : hits answers count = part) {index : ℕ} (hfuel : index < fuel)
    (hindex : hits answers (count + index) < wanted) : index < upload.parts.length := by
  induction hrun generalizing index with
  | out count part => exact absurd hfuel (Nat.not_lt_zero _)
  | @missed fuel count part query rest hanswer hquery hrest ih =>
    cases index with
    | zero => exact Nat.succ_pos _
    | succ index =>
      rw [Nat.add_comm index, ← Nat.add_assoc] at hindex
      exact Nat.succ_lt_succ (ih ((hits_succ_of_missed hanswer).trans hcount)
        (Nat.lt_of_succ_lt_succ hfuel) hindex)
  | @taken fuel count part query rest hanswer hquery hmore hrest ih =>
    cases index with
    | zero => exact Nat.succ_pos _
    | succ index =>
      rw [Nat.add_comm index, ← Nat.add_assoc] at hindex
      exact Nat.succ_lt_succ (ih ((hits_succ_of_accepted hanswer).trans (congrArg (· + 1) hcount))
        (Nat.lt_of_succ_lt_succ hfuel) hindex)
  | @last fuel count part query rest hanswer hquery hlast hparts hexit =>
    cases index with
    | zero => exact Nat.succ_pos _
    | succ index =>
      have hmono : hits answers (count + 1) ≤ hits answers (count + (index + 1)) :=
        hits_mono (by omega)
      rw [hits_succ_of_accepted hanswer, hcount, hlast] at hmono
      omega

/-- The loop is still running only if a needed part has not been taken. -/
theorem PartRun.hits_lt_of_running (hrun : PartRun answers wanted fuel count part upload)
    (hcount : hits answers count = part) (hpart : part < wanted)
    (hexit : upload.exit = .running) : hits answers (count + fuel) < wanted := by
  induction hrun with
  | out count part => rw [Nat.add_zero, hcount]; exact hpart
  | @missed fuel count part query rest hanswer hquery hrest ih =>
    have hnext := ih ((hits_succ_of_missed hanswer).trans hcount) hpart hexit
    rwa [Nat.add_right_comm] at hnext
  | @taken fuel count part query rest hanswer hquery hmore hrest ih =>
    have hnext := ih ((hits_succ_of_accepted hanswer).trans (congrArg (· + 1) hcount)) hmore hexit
    rwa [Nat.add_right_comm] at hnext
  | last hanswer hquery hlast hparts hrest => exact absurd hexit hrest

/-- A part that the loop has left behind is not sent again. -/
theorem PartRun.countP_eq_zero (hrun : PartRun answers wanted fuel count part upload)
    (hpart : part < wanted) (hwanted : wanted ≤ 8192) {earlier : ℕ} (hlt : earlier < part) :
    (upload.parts.countP fun query ↦ query.filePart = UInt32.ofNat earlier) = 0 := by
  have hne {number : ℕ} (hnumber : number < wanted) (hlt : earlier < number) :
      ¬ UInt32.ofNat number = UInt32.ofNat earlier := by
    intro heq
    have hvalue := congrArg UInt32.toNat heq
    rw [UInt32.toNat_ofNat_of_lt' (lt_of_lt_of_le hnumber (hwanted.trans (by decide))),
      UInt32.toNat_ofNat_of_lt'
        (lt_of_lt_of_le (hlt.trans hnumber) (hwanted.trans (by decide)))] at hvalue
    omega
  induction hrun with
  | out count part => rfl
  | missed hanswer hquery hrest ih =>
    rw [parts_sent_part, List.countP_cons, ih hpart hlt, hquery, decide_eq_false (hne hpart hlt)]
    rfl
  | taken hanswer hquery hmore hrest ih =>
    rw [parts_sent_part, List.countP_cons, ih hmore (Nat.lt_succ_of_lt hlt), hquery,
      decide_eq_false (hne hpart hlt)]
    rfl
  | last hanswer hquery hlast hparts hexit =>
    rw [parts_sent_part, hparts, List.countP_singleton, hquery, decide_eq_false (hne hpart hlt)]
    rfl

/-- A part is sent once more than it fails to be taken, at most. -/
theorem PartRun.countP_le (hrun : PartRun answers wanted fuel count part upload)
    (hpart : part < wanted) (hwanted : wanted ≤ 8192) (number : UInt32) :
    (upload.parts.countP fun query ↦ query.filePart = number) + misses answers count ≤
      misses answers (count + upload.parts.length) + 1 := by
  induction hrun with
  | out count part =>
    rw [parts_ended]
    exact Nat.le_succ_of_le (by simp)
  | @missed fuel count part query rest hanswer hquery hrest ih =>
    have hnext := ih hpart
    rw [misses_succ_of_missed hanswer, Nat.add_right_comm] at hnext
    rw [parts_sent_part, List.countP_cons, List.length_cons, ← Nat.add_assoc]
    split <;> omega
  | @taken fuel count part query rest hanswer hquery hmore hrest ih =>
    rw [parts_sent_part, List.countP_cons, List.length_cons, ← Nat.add_assoc, hquery]
    by_cases heq : UInt32.ofNat part = number
    · have hrest' := hrest.countP_eq_zero hmore hwanted (Nat.lt_succ_self part)
      have hmono : misses answers count ≤ misses answers (count + rest.parts.length + 1) :=
        misses_mono (by omega)
      rw [← heq, hrest', decide_eq_true rfl, if_pos rfl]
      omega
    · have hnext := ih hmore
      have hmono : misses answers count ≤ misses answers (count + 1) := misses_mono (by omega)
      rw [Nat.add_right_comm] at hnext
      rw [decide_eq_false heq, if_neg Bool.false_ne_true]
      omega
  | @last fuel count part query rest hanswer hquery hlast hparts hexit =>
    have hmono : misses answers count ≤ misses answers (count + 1) := misses_mono (by omega)
    rw [parts_sent_part, hparts, List.countP_singleton, List.length_singleton]
    split <;> omega

end Run

/-- Runs of the loop meet the bound if and only if the needed parts are taken with fewer than
`retryLimit` failures. -/
theorem retriesBounded_iff_of_run {answers : ℕ → Option TlObj} {upload : ℕ → Upload} {wanted : ℕ}
    (hwanted : wanted ≤ 8192) (hpos : 0 < wanted)
    (hrun : ∀ fuel, PartRun answers wanted fuel 0 0 (upload fuel)) :
    RetriesBounded answers upload ↔ wanted ≤ hits answers (wanted + 9) := by
  have hzero : hits answers 0 = 0 := rfl
  have htotal := hits_add_misses answers (wanted + 9)
  constructor
  · intro hbounded
    by_contra hfew
    have hsent : wanted + 9 < (upload (wanted + 10)).parts.length := by
      apply (hrun (wanted + 10)).lt_length hzero (by omega)
      rw [Nat.zero_add]
      omega
    have hmisses := hbounded.resent (wanted + 10) (wanted + 9) hsent
    unfold retryLimit at hmisses
    omega
  · intro henough
    have hlength (fuel : ℕ) : (upload fuel).parts.length ≤ wanted + 9 := by
      by_contra hlong
      have hlt := (hrun fuel).hits_lt hzero hpos (not_le.mp hlong)
      rw [Nat.zero_add] at hlt
      omega
    have hmisses {index : ℕ} (hindex : index ≤ wanted + 9) : misses answers index < retryLimit := by
      have hmono : misses answers index ≤ misses answers (wanted + 9) := misses_mono hindex
      unfold retryLimit
      omega
    constructor
    case resent =>
      intro fuel index hindex
      exact hmisses (by have hle := hlength fuel; omega)
    case each =>
      intro fuel part
      have hle := (hrun fuel).countP_le hpos hwanted part
      have hfew := hmisses (hlength fuel)
      rw [Nat.zero_add] at hle
      omega
    case media => exact fun fuel _ _ ↦ hmisses (hlength fuel)
    case failed =>
      intro fuel code hmany
      exact absurd (hmisses (hlength fuel)) (not_lt.mpr hmany)
    case ends =>
      refine ⟨wanted + 9, fun hrunning ↦ ?_⟩
      have hlt := (hrun (wanted + 9)).hits_lt_of_running hzero hpos hrunning
      rw [Nat.zero_add] at hlt
      omega

/-- A call that sends no part meets the bound. -/
theorem retriesBounded_of_none {answers : ℕ → Option TlObj} {upload : ℕ → Upload}
    (hparts : ∀ fuel, (upload fuel).parts = []) (hexit : ∀ fuel, (upload fuel).exit ≠ .running) :
    RetriesBounded answers upload where
  resent fuel index hindex := by
    rw [hparts] at hindex
    exact absurd hindex (Nat.not_lt_zero _)
  each fuel part := by
    rw [hparts]
    exact Nat.zero_le _
  media fuel query _ := by
    rw [hparts]
    exact Nat.succ_pos 9
  failed fuel code hmany := by
    rw [hparts] at hmany
    exact absurd hmany (Nat.not_succ_le_zero 9)
  ends := ⟨0, hexit 0⟩

/-! ## The whole upload -/

section Send

variable (moves : ℕ → Bool) (answers : ℕ → Option TlObj) (md5 : Bytes → Bytes)
  (progress : ℕ → Int32) (document : TgDocument) (peer : Bytes) (message : Option Bytes)
  (fileId randomId : UInt64)

/-- The number of parts that have to be taken before the loop ends: none without a file, and none
for a big file without a name. -/
def partsNeeded (file : Option Bytes) : ℕ :=
  match file with
  | none => 0
  | some file =>
    if bigFileSize < Int32.ofNat file.length then
      if document.filename = [] then 0
      else needed (stopsAfter true progress) (partsRead file.length)
    else needed (stopsAfter false progress) (partsRead file.length)

variable {save : UInt32 → Bytes → PartQuery} {cancels : Bool}
  {finish : ℕ → UInt32 → Buf → Upload}

/-- The whole loop meets the bound if and only if the needed parts are taken with few failures. -/
theorem retriesBounded_uploadParts (hsave : ∀ part bytes, (save part bytes).filePart = part)
    (hfinish : ∀ count part buf,
      (finish count part buf).parts = [] ∧ (finish count part buf).exit ≠ .running) (file : Bytes) :
    RetriesBounded answers
        (fun fuel ↦ uploadParts moves (fun index _ ↦ answers index) progress save cancels finish
          fuel file) ↔
      needed (stopsAfter cancels progress) (partsRead file.length) ≤
        hits answers (needed (stopsAfter cancels progress) (partsRead file.length) + 9) := by
  have hempty : Holds bufNew (file.take (0 * partSize)) := by
    rw [Nat.zero_mul, List.take_zero]
    exact holds_bufNew
  by_cases hpos : 0 < partsRead file.length
  · apply retriesBounded_iff_of_run _ (needed_pos hpos)
    · intro fuel
      obtain ⟨next, hnext, heq⟩ := nextPart_of_lt moves
        (uploadPart moves (fun index _ ↦ answers index) progress save cancels finish fuel 0 0)
        (finish 0 0) hpos hempty
      rw [Nat.zero_mul, List.drop_zero] at heq
      rw [uploadParts, heq]
      exact uploadPart_run moves answers hsave hfinish fuel (needed_pos hpos) hnext
    · by_contra hlarge
      have hlt : 8192 < partsRead file.length := (needed_spec (not_le.mp hlarge)).1
      exact absurd (partsRead_le file.length) (not_le.mpr hlt)
  · have hzero : partsRead file.length = 0 := Nat.eq_zero_of_not_pos hpos
    have hnone : needed (stopsAfter cancels progress) (partsRead file.length) = 0 := by
      rw [hzero]
      rfl
    rw [hnone]
    refine iff_of_true ?_ (Nat.zero_le _)
    have hend' : Holds bufNew (file.take (partsRead file.length * partSize)) := by
      rw [hzero]
      exact hempty
    have hend (fuel : ℕ) := nextPart_end moves
      (uploadPart moves (fun index _ ↦ answers index) progress save cancels finish fuel 0 0)
      (hfinish 0 0) hend'
    rw [hzero, Nat.zero_mul, List.drop_zero] at hend
    exact retriesBounded_of_none (fun fuel ↦ (hend fuel).1) fun fuel ↦ (hend fuel).2

theorem sendMedia_exit_parts (size : Int32) (count : ℕ) (part : UInt32) (buf : Buf) :
    let rest := sendMedia (fun index _ ↦ answers index) md5 document peer message fileId randomId
      size count part buf
    rest.parts = [] ∧ rest.exit ≠ .running :=
  ⟨rfl, fun h ↦ by cases h⟩

/-- The retries of `tg_document_send` are bounded if and only if the server takes all needed parts
with fewer than ten other answers among its first ones. -/
theorem tgDocumentSend_retriesBounded_iff (file : Option Bytes) :
    RetriesBounded answers
        (fun fuel ↦ tgDocumentSend moves (fun index _ ↦ answers index) md5 progress document peer
          message fileId randomId fuel file) ↔
      partsNeeded progress document file ≤
        hits answers (partsNeeded progress document file + 9) := by
  cases file with
  | none =>
    exact iff_of_true (retriesBounded_of_none (fun _ ↦ rfl) fun _ h ↦ by cases h) (Nat.zero_le _)
  | some file =>
    have hfinish := sendMedia_exit_parts answers md5 document peer message fileId randomId
      (Int32.ofNat file.length)
    unfold tgDocumentSend partsNeeded saveBigFileParts saveFileParts
    by_cases hbig : bigFileSize < Int32.ofNat file.length
    · simp only [if_pos hbig]
      by_cases hname : document.filename = []
      · simp only [if_pos hname]
        exact iff_of_true (retriesBounded_of_none (fun _ ↦ rfl) fun _ h ↦ by cases h)
          (Nat.zero_le _)
      · simp only [if_neg hname]
        exact retriesBounded_uploadParts moves answers progress (fun _ _ ↦ rfl) hfinish file
    · simp only [if_neg hbig]
      exact retriesBounded_uploadParts moves answers progress (fun _ _ ↦ rfl) hfinish file

end Send

/-- A file of one byte, and a server that never answers. -/
theorem not_retriesBounded_silent :
    ¬ RetriesBounded (fun _ ↦ none)
      (fun fuel ↦ tgDocumentSend (fun _ ↦ false) (fun _ _ ↦ none) (fun _ ↦ []) (fun _ ↦ 0)
        plainDocument [] none 7 8 fuel (some [42])) := by
  have hsmall : ¬ bigFileSize < Int32.ofNat [(42 : UInt8)].length := by decide
  simp only [tgDocumentSend, if_neg hsmall]
  intro hbounded
  have hrun := (retriesBounded_uploadParts (fun _ ↦ false) (fun _ ↦ none) (fun _ ↦ 0)
    (fun _ _ ↦ rfl) (sendMedia_exit_parts _ _ _ _ _ _ _ _) [42]).mp hbounded
  exact absurd hrun (by decide)

end LibTg.Tg
