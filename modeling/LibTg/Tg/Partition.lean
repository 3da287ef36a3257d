import LibTg.Tg.Upload

/-!
# The parts of an uploaded file

Against a server that takes every part, `tg_document_send` sends the blocks of the file in their
order and once each. The counter `file_part`, the total that is computed from the size, and the
buffer that is hashed then agree about them.
-/

namespace LibTg.Tg

open LibTg.Tl

/-- The number of parts of a file. -/
def partsOf (file : Bytes) : ℕ := file.length ⌈/⌉ partSize

/-- The queries for parts, the `InputFile` and the hashed bytes fit a file. -/
structure Partition (md5 : Bytes → Bytes) (file : Bytes) (fileId : UInt64) (parts : List PartQuery)
    (sent : InputFile) (hashed : List Bytes) : Prop where
  numbered : parts.map (fun query ↦ query.filePart.toNat) = List.range (partsOf file)
  owned : (∀ query ∈ parts, query.fileId = fileId) ∧ sent.id = fileId
  full : ∀ query ∈ parts.dropLast, query.bytes.length = partSize
  last : ∀ query ∈ parts.getLast?, 1 ≤ query.bytes.length ∧ query.bytes.length ≤ partSize
  contents : (parts.map PartQuery.bytes).flatten = file
  big : (∀ query ∈ parts, query.fileTotalParts?.isSome ↔ 10485760 < file.length) ∧
    (sent.md5Checksum?.isNone ↔ 10485760 < file.length)
  total : ∀ query ∈ parts, ∀ total ∈ query.fileTotalParts?, total.toNat = partsOf file
  parts_eq : sent.parts.toNat = partsOf file
  hashed_eq : hashed = [file]
  checksum : ∀ text ∈ sent.md5Checksum?, text = (md5 file).flatMap hexByte

/-! ## The numbers -/

section Numbers

variable {file : Bytes}

theorem partsOf_lt (hfile : file.length < 2 ^ 31) : partsOf file ≤ 4096 := by
  rw [partsOf, Nat.ceilDiv_eq_add_pred_div]
  unfold partSize
  omega

theorem partsRead_of_lt (hfile : file.length < 2 ^ 31) : partsRead file.length = partsOf file :=
  if_pos (by omega)

theorem bigFileSize_lt_iff (hfile : file.length < 2 ^ 31) :
    bigFileSize < Int32.ofNat file.length ↔ 10485760 < file.length := by
  have hbig : bigFileSize.toInt = 10485760 := rfl
  rw [Int32.lt_iff_toInt_lt, Int32.toInt_ofNat_of_lt hfile, hbig]
  omega

/-- The announced total is the number of blocks. -/
theorem toNat_fileTotalParts (hfile : file.length < 2 ^ 31) :
    (fileTotalParts (Int32.ofNat file.length)).toNat = partsOf file := by
  have hsize : (Int32.ofNat file.length).toInt = file.length := Int32.toInt_ofNat_of_lt hfile
  have hpart : (524288 : Int32).toInt = 524288 := rfl
  have hdiv : (Int32.ofNat file.length / 524288).toInt = (file.length / 524288 : ℕ) := by
    rw [Int32.toInt_div, hsize, hpart, Int.tdiv_eq_ediv_of_nonneg (by omega), Int.bmod_eq_of_le]
    all_goals omega
  have hmod : (Int32.ofNat file.length % 524288).toInt = (file.length % 524288 : ℕ) := by
    rw [Int32.toInt_mod, hsize, hpart, Int.tmod_eq_emod_of_nonneg (by omega)]
    omega
  have hzero : Int32.ofNat file.length % 524288 = 0 ↔ file.length % 524288 = 0 := by
    rw [← Int32.toInt_inj, hmod, Int32.toInt_zero]
    omega
  have hsum : (Int32.ofNat file.length / 524288 +
      if Int32.ofNat file.length % 524288 = 0 then 0 else 1) = Int32.ofNat (partsOf file) := by
    apply Int32.toInt.inj
    have hparts := partsOf_lt hfile
    rw [Int32.toInt_add, hdiv, Int32.toInt_ofNat_of_lt (by omega)]
    have hceil : partsOf file = file.length / 524288 + if file.length % 524288 = 0 then 0 else 1 := by
      rw [partsOf, Nat.ceilDiv_eq_add_pred_div]
      unfold partSize
      split <;> omega
    by_cases hexact : file.length % 524288 = 0
    · rw [if_pos (hzero.mpr hexact), Int32.toInt_zero, hceil, if_pos hexact, Int.bmod_eq_of_le]
      all_goals omega
    · have hone : (1 : Int32).toInt = 1 := rfl
      rw [if_neg (hzero.not.mpr hexact), hone, hceil, if_neg hexact, Int.bmod_eq_of_le]
      all_goals omega
  have hparts := partsOf_lt hfile
  calc (fileTotalParts (Int32.ofNat file.length)).toNat
      = (Int32.ofNat (partsOf file)).toUInt32.toNat := by rw [fileTotalParts, hsum]
    _ = (UInt32.ofNat (partsOf file)).toNat := rfl
    _ = partsOf file := UInt32.toNat_ofNat_of_lt' (lt_of_le_of_lt hparts (by decide))

end Numbers

/-! ## The loop -/

theorem foldr_sent (queries : List UploadQuery) (rest : Upload) :
    queries.foldr Upload.sent rest = ⟨queries ++ rest.queries, rest.hashed, rest.exit⟩ := by
  induction queries with
  | nil => rfl
  | cons query queries ih =>
    rw [List.foldr_cons, ih]
    rfl

section Accepted

variable (moves : ℕ → Bool) (server : ℕ → UploadQuery → Option TlObj) (progress : ℕ → Int32)
  (save : UInt32 → Bytes → PartQuery) (cancels : Bool) (finish : ℕ → UInt32 → Buf → Upload)

/-- The query for a block of a file. -/
def blockQuery (file : Bytes) (part : ℕ) : PartQuery := save (UInt32.ofNat part) (block file part)

variable {server progress} {file : Bytes}

/-- The loop from the label on, with `remaining` blocks behind the current one. -/
theorem uploadPart_accepted (haccepted : ∀ count query, accepted (server count (.part query)))
    (hprogress : ∀ part, progress part = 0) (hfile : file.length < 2 ^ 31)
    (remaining fuel count part : ℕ) {buf : Buf} (hpart : part + remaining + 1 = partsOf file)
    (hbuf : Holds buf (file.take ((part + 1) * partSize))) (hfuel : remaining < fuel) :
    ∃ last, Holds last file ∧
      uploadPart moves server progress save cancels finish fuel count (UInt32.ofNat part)
          (block file part) (file.drop ((part + 1) * partSize)) buf =
        ((List.range' part (remaining + 1)).map fun part ↦ .part (blockQuery save file part)).foldr
          Upload.sent (finish (count + remaining + 1) (UInt32.ofNat (partsOf file)) last) := by
  have hread := partsRead_of_lt hfile
  induction remaining generalizing fuel count part buf with
  | zero =>
    obtain ⟨fuel, rfl⟩ := Nat.exists_eq_succ_of_ne_zero (Nat.ne_of_gt hfuel)
    have hend : part + 1 = partsRead file.length := by omega
    rw [hend] at hbuf ⊢
    obtain ⟨hlast, hnext⟩ := nextPart_of_end moves
      (uploadPart moves server progress save cancels finish fuel (count + 1)
        (UInt32.ofNat part + 1)) (finish (count + 1) (UInt32.ofNat part + 1)) (by omega) hbuf
    refine ⟨buf, hlast, ?_⟩
    have hnumber : UInt32.ofNat part + 1 = UInt32.ofNat (partsOf file) := by
      rw [← hpart]
      exact (UInt32.ofNat_add part 1).symm
    rw [uploadPart, if_pos (haccepted _ _), if_neg (by simp [hprogress]), hnext, hnumber]
    rfl
  | succ remaining ih =>
    obtain ⟨fuel, rfl⟩ := Nat.exists_eq_succ_of_ne_zero (Nat.ne_of_gt (Nat.zero_lt_of_lt hfuel))
    have hmore : part + 1 < partsRead file.length := by omega
    obtain ⟨next, hholds, hnext⟩ := nextPart_of_lt moves
      (uploadPart moves server progress save cancels finish fuel (count + 1)
        (UInt32.ofNat part + 1)) (finish (count + 1) (UInt32.ofNat part + 1)) hmore hbuf
    have hnumber : UInt32.ofNat part + 1 = UInt32.ofNat (part + 1) :=
      (UInt32.ofNat_add part 1).symm
    obtain ⟨last, hlast, hrest⟩ := ih fuel (count + 1) (part + 1) (by omega) hholds
      (by omega)
    refine ⟨last, hlast, ?_⟩
    have hcount : count + 1 + remaining + 1 = count + (remaining + 1) + 1 := by omega
    rw [uploadPart, if_pos (haccepted _ _), if_neg (by simp [hprogress]), hnext, hnumber, hrest,
      hcount, List.range'_succ (n := remaining + 1), List.map_cons, List.foldr_cons]
    rfl

/-- The whole loop: every block once, in the order of the file. -/
theorem uploadParts_accepted (haccepted : ∀ count query, accepted (server count (.part query)))
    (hprogress : ∀ part, progress part = 0) (hpos : 0 < file.length) (hfile : file.length < 2 ^ 31)
    {fuel : ℕ} (hfuel : partsOf file ≤ fuel) :
    ∃ last, Holds last file ∧ uploadParts moves server progress save cancels finish fuel file =
      let rest := finish (partsOf file) (UInt32.ofNat (partsOf file)) last
      ⟨((List.range (partsOf file)).map (blockQuery save file)).map UploadQuery.part ++
        rest.queries, rest.hashed, rest.exit⟩ := by
  have hread := partsRead_of_lt hfile
  have hparts : 0 < partsOf file := by
    rw [partsOf, Nat.ceilDiv_eq_add_pred_div]
    unfold partSize
    omega
  obtain ⟨remaining, hremaining⟩ := Nat.exists_eq_succ_of_ne_zero hparts.ne'
  have hempty : Holds bufNew (file.take (0 * partSize)) := by
    rw [Nat.zero_mul, List.take_zero]
    exact holds_bufNew
  obtain ⟨next, hholds, hnext⟩ := nextPart_of_lt moves
    (uploadPart moves server progress save cancels finish fuel 0 0) (finish 0 0)
    (by omega) hempty
  obtain ⟨last, hlast, hrest⟩ := uploadPart_accepted moves save cancels finish
    haccepted hprogress hfile remaining fuel 0 0 (by omega) hholds (by omega)
  rw [Nat.zero_mul, List.drop_zero] at hnext
  have hcount : 0 + remaining + 1 = partsOf file := by omega
  have hlength : remaining + 1 = partsOf file := hremaining.symm
  rw [hcount, hlength, ← List.range_eq_range', foldr_sent] at hrest
  refine ⟨last, hlast, hnext.trans (hrest.trans ?_)⟩
  rw [List.map_map]
  rfl

end Accepted

/-! ## The whole upload -/

section Queries

variable {md5 : Bytes → Bytes} {file : Bytes} {fileId : UInt64}
  {save : UInt32 → Bytes → PartQuery} {sent : InputFile}

/-- The queries for the blocks in their order, and an `InputFile` with their number, fit the file. -/
theorem partition_blocks (hpos : 0 < file.length) (hfile : file.length < 2 ^ 31)
    (hpart : ∀ part bytes, (save part bytes).filePart = part)
    (hbytes : ∀ part bytes, (save part bytes).bytes = bytes)
    (howned : ∀ part bytes, (save part bytes).fileId = fileId) (hid : sent.id = fileId)
    (hbig : (∀ part bytes, (save part bytes).fileTotalParts?.isSome ↔ 10485760 < file.length) ∧
      (sent.md5Checksum?.isNone ↔ 10485760 < file.length))
    (htotal : ∀ part bytes, ∀ total ∈ (save part bytes).fileTotalParts?,
      total.toNat = partsOf file)
    (hparts : sent.parts = UInt32.ofNat (partsOf file))
    (hchecksum : ∀ text ∈ sent.md5Checksum?, text = (md5 file).flatMap hexByte) :
    Partition md5 file fileId ((List.range (partsOf file)).map (blockQuery save file)) sent
      [file] := by
  have hsmall := partsOf_lt hfile
  have hnumber {part : ℕ} (hlt : part ≤ partsOf file) : (UInt32.ofNat part).toNat = part :=
    UInt32.toNat_ofNat_of_lt' (lt_of_le_of_lt (hlt.trans hsmall) (by decide))
  have hcover : (partsOf file - 1) * partSize < file.length ∧
      file.length ≤ partsOf file * partSize ∧ 0 < partsOf file := by
    rw [partsOf, Nat.ceilDiv_eq_add_pred_div]
    unfold partSize
    omega
  obtain ⟨hbefore, hend, hnonempty⟩ := hcover
  have hmem {queries : List ℕ} {query : PartQuery}
      (hquery : query ∈ queries.map (blockQuery save file)) :
      ∃ part ∈ queries, query = blockQuery save file part := by
    obtain ⟨part, hmem, rfl⟩ := List.mem_map.mp hquery
    exact ⟨part, hmem, rfl⟩
  constructor
  case numbered =>
    rw [List.map_map]
    apply (List.map_congr_left _).trans (List.map_id _)
    intro part hlt
    have hle := (List.mem_range.mp hlt).le
    simp only [Function.comp_apply, blockQuery, hpart, hnumber hle, id_eq]
  case owned =>
    refine ⟨fun query hquery ↦ ?_, hid⟩
    obtain ⟨part, -, rfl⟩ := hmem hquery
    exact howned _ _
  case full =>
    intro query hquery
    have hdrop : (List.range (partsOf file)).dropLast = List.range (partsOf file - 1) := by
      obtain ⟨count, hcount⟩ := Nat.exists_eq_succ_of_ne_zero hnonempty.ne'
      rw [hcount, List.range_succ, List.dropLast_concat]
      rfl
    rw [← List.map_dropLast, hdrop] at hquery
    obtain ⟨part, hlt, rfl⟩ := hmem hquery
    have hnext : (part + 1) * partSize ≤ (partsOf file - 1) * partSize :=
      Nat.mul_le_mul_right partSize (List.mem_range.mp hlt)
    rw [blockQuery, hbytes, length_block]
    rw [Nat.succ_mul] at hnext
    omega
  case last =>
    intro query hquery
    rw [List.getLast?_map, List.getLast?_range, if_neg hnonempty.ne', Option.map_some,
      Option.mem_some_iff] at hquery
    rw [← hquery, blockQuery, hbytes, length_block]
    have hpart : 0 < partSize := by decide
    omega
  case contents =>
    rw [List.map_map]
    have hblocks : PartQuery.bytes ∘ blockQuery save file = block file := by
      funext part
      exact hbytes _ _
    rw [hblocks, flatten_blocks, List.take_of_length_le hend]
  case big =>
    refine ⟨fun query hquery ↦ ?_, hbig.2⟩
    obtain ⟨part, -, rfl⟩ := hmem hquery
    exact hbig.1 _ _
  case total =>
    intro query hquery
    obtain ⟨part, -, rfl⟩ := hmem hquery
    exact htotal _ _
  case parts_eq => rw [hparts, hnumber le_rfl]
  case hashed_eq => rfl
  case checksum => exact hchecksum

end Queries

section Send

variable (moves : ℕ → Bool) {server : ℕ → UploadQuery → Option TlObj} (md5 : Bytes → Bytes)
  {progress : ℕ → Int32} {document : TgDocument} (peer : Bytes) (message : Option Bytes)
  (fileId randomId : UInt64) {file : Bytes}

/-- The medium carries the file that it is made for. -/
theorem file_media (document : TgDocument) (file : InputFile) :
    (document.media file).file = file := by
  unfold TgDocument.media
  split <;> rfl

theorem inputFile_of_big (hbig : bigFileSize < Int32.ofNat file.length) (parts : UInt32)
    (bytes : Bytes) :
    inputFile md5 document fileId (Int32.ofNat file.length) parts bytes =
      .inputFileBig fileId parts document.filename := if_pos hbig

theorem inputFile_of_small (hsmall : ¬ bigFileSize < Int32.ofNat file.length) (parts : UInt32)
    (bytes : Bytes) :
    inputFile md5 document fileId (Int32.ofNat file.length) parts bytes =
      .inputFile fileId parts document.filename ((md5 bytes).flatMap hexByte) := if_neg hsmall

variable (server) in
/-- What comes after the loop, for a buffer that holds the file. -/
theorem sendMedia_eq {last : Buf} (hlast : Holds last file) {size : Int32} {parts : UInt32}
    {sent : InputFile} (hsent : inputFile md5 document fileId size parts file = sent) (count : ℕ) :
    ∃ code, sendMedia server md5 document peer message fileId randomId size count parts last =
      ⟨[.media ⟨peer, document.media sent, message.getD [], randomId⟩], [file],
        .returned code⟩ := by
  rw [sendMedia, hlast.bytes_eq, hsent]
  exact ⟨_, rfl⟩

/-- The loop and what follows it, for queries that name the parts, the file and the total. -/
theorem uploadParts_partition {save : UInt32 → Bytes → PartQuery} {cancels : Bool}
    (hpos : 0 < file.length) (hfile : file.length < 2 ^ 31)
    (hserver : ∀ count query, accepted (server count (.part query)))
    (hprogress : ∀ part, progress part = 0) {fuel : ℕ} (hfuel : partsOf file ≤ fuel)
    {sent : InputFile} (hsent : inputFile md5 document fileId (Int32.ofNat file.length)
      (UInt32.ofNat (partsOf file)) file = sent)
    (hpartition : Partition md5 file fileId ((List.range (partsOf file)).map (blockQuery save file))
      sent [file]) :
    ∃ parts media hashed code,
      uploadParts moves server progress save cancels
          (sendMedia server md5 document peer message fileId randomId (Int32.ofNat file.length))
          fuel file =
        ⟨parts.map UploadQuery.part ++ [.media media], hashed, .returned code⟩ ∧
      Partition md5 file fileId parts media.media.file hashed := by
  obtain ⟨last, hlast, hrun⟩ := uploadParts_accepted moves save cancels
    (sendMedia server md5 document peer message fileId randomId (Int32.ofNat file.length))
    hserver hprogress hpos hfile hfuel
  obtain ⟨code, hsend⟩ := sendMedia_eq server md5 peer message fileId randomId hlast
    hsent (partsOf file)
  rw [hsend] at hrun
  refine ⟨_, _, _, code, hrun, ?_⟩
  rw [file_media]
  exact hpartition

/-- For a file of less than `2 ^ 31` bytes with a name, a server that answers `boolTrue` to every
part and a `progress` that cancels nothing, the parts partition the file, and the message with the
file is the only other query. -/
theorem tgDocumentSend_partition (hpos : 0 < file.length) (hfile : file.length < 2 ^ 31)
    (hserver : ∀ count query, accepted (server count (.part query)))
    (hname : document.filename ≠ []) (hprogress : ∀ part, progress part = 0) (fuel : ℕ)
    (hfuel : partsOf file ≤ fuel) :
    ∃ parts media hashed code,
      tgDocumentSend moves server md5 progress document peer message fileId randomId fuel
          (some file) =
        ⟨parts.map UploadQuery.part ++ [.media media], hashed, .returned code⟩ ∧
      Partition md5 file fileId parts media.media.file hashed := by
  have hsize := bigFileSize_lt_iff hfile
  by_cases hbig : bigFileSize < Int32.ofNat file.length
  · rw [tgDocumentSend, if_pos hbig, if_neg hname, saveBigFileParts]
    apply uploadParts_partition moves md5 peer message fileId randomId hpos hfile hserver hprogress
      hfuel (inputFile_of_big md5 fileId hbig _ _)
    have hlarge := hsize.mp hbig
    refine partition_blocks hpos hfile (fun _ _ ↦ rfl) (fun _ _ ↦ rfl) (fun _ _ ↦ rfl) rfl
      ⟨fun _ _ ↦ iff_of_true rfl hlarge, iff_of_true rfl hlarge⟩ ?_ rfl ?_
    · intro part bytes total htotal
      rw [← Option.mem_some_iff.mp htotal]
      exact toNat_fileTotalParts hfile
    · intro text htext
      exact absurd htext (Option.not_mem_none text)
  · rw [tgDocumentSend, if_neg hbig, saveFileParts]
    apply uploadParts_partition moves md5 peer message fileId randomId hpos hfile hserver hprogress
      hfuel (inputFile_of_small md5 fileId hbig _ _)
    have hsmall := hsize.not.mp hbig
    refine partition_blocks hpos hfile (fun _ _ ↦ rfl) (fun _ _ ↦ rfl) (fun _ _ ↦ rfl) rfl
      ⟨fun _ _ ↦ iff_of_false Bool.false_ne_true hsmall,
        iff_of_false Bool.false_ne_true hsmall⟩ ?_ rfl ?_
    · intro part bytes total htotal
      exact absurd htotal (Option.not_mem_none total)
    · intro text htext
      exact (Option.mem_some_iff.mp htext).symm

end Send

def zeroFile (length : ℕ) : Bytes := List.replicate length 0

theorem length_zeroFile (length : ℕ) : (zeroFile length).length = length := List.length_replicate

/-- `MD5` of 1048577 and of 10485761 zeros. -/
def md5Zeros (bytes : Bytes) : Bytes :=
  if bytes.length = 1048577 then
    [149, 135, 177, 73, 255, 57, 44, 166, 136, 122, 5, 217, 33, 231, 62, 114]
  else [48, 1, 202, 160, 109, 116, 101, 203, 74, 123, 58, 65, 135, 72, 165, 32]

theorem partsOf_zeroFile (length : ℕ) : partsOf (zeroFile length) = length ⌈/⌉ partSize := by
  rw [partsOf, length_zeroFile]

/-- A big file of 21 parts and a small one of three, each with one byte in its last part. -/
theorem tgDocumentSend_partition_zeros :
    (∃ parts media hashed code,
      tgDocumentSend (fun _ ↦ true) (fun _ _ ↦ some (.mk idBoolTrue [] [])) md5Zeros (fun _ ↦ 0)
          plainDocument [] none 7 8 21 (some (zeroFile 10485761)) =
        ⟨parts.map UploadQuery.part ++ [.media media], hashed, .returned code⟩ ∧
      Partition md5Zeros (zeroFile 10485761) 7 parts media.media.file hashed) ∧
    ∃ parts media hashed code,
      tgDocumentSend (fun _ ↦ true) (fun _ _ ↦ some (.mk idBoolTrue [] [])) md5Zeros (fun _ ↦ 0)
          plainDocument [] none 7 8 3 (some (zeroFile 1048577)) =
        ⟨parts.map UploadQuery.part ++ [.media media], hashed, .returned code⟩ ∧
      Partition md5Zeros (zeroFile 1048577) 7 parts media.media.file hashed := by
  have hbig : (zeroFile 10485761).length = 10485761 := length_zeroFile 10485761
  have hsmall : (zeroFile 1048577).length = 1048577 := length_zeroFile 1048577
  constructor
  · refine tgDocumentSend_partition (fun _ ↦ true) md5Zeros [] none 7 8 ?_ ?_ (fun _ _ ↦ by decide)
      (by decide) (fun _ ↦ rfl) 21 ?_
    · rw [hbig]; decide
    · rw [hbig]; decide
    · rw [partsOf_zeroFile]; decide
  · refine tgDocumentSend_partition (fun _ ↦ true) md5Zeros [] none 7 8 ?_ ?_ (fun _ _ ↦ by decide)
      (by decide) (fun _ ↦ rfl) 3 ?_
    · rw [hsmall]; decide
    · rw [hsmall]; decide
    · rw [partsOf_zeroFile]; decide

end LibTg.Tg
