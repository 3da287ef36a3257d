import LibTg.Tg.Download
import LibTg.Tl.Buf

/-!
# Uploading a file in parts (`tg/files.c`)

`tg_document_send` reads the file in blocks of `part_size` bytes and sends every block until the
server answers `boolTrue`; then it sends a message with the uploaded file. The two loops, for files
above and up to 10 MB, differ in the query and in what the result of `progress` does. The file, the
answers of the server, the results of `progress`, the random numbers and the hash function are
parameters.

The loop for files above 10 MB gives the buffer of a query back before `tg_send_query` reads it. The
model sends the bytes that were in it.
-/

namespace LibTg.Tg

open LibTg.Tl

/-! ## The queries -/

/-- `DOCUMENT_TYPE`. -/
inductive DocumentType
  | default
  | photo
  | image
  | video
  | audio
  deriving DecidableEq, Repr

/-- A `tg_document_t`. Text is a list of bytes, a `double` is its bits; `audio_duration` stands here
as the `int` that it is passed as. -/
structure TgDocument where
  type : DocumentType
  mimeType : Bytes
  forceFile : Bool
  spoiler : Bool
  noSoundVideo : Bool
  ttlSeconds : Option UInt32
  imageW : UInt32
  imageH : UInt32
  videoSupportsStreaming : Bool
  videoNoSound : Bool
  videoDuration : UInt64
  videoW : UInt32
  videoH : UInt32
  videoPreloadPrefixSize : Option UInt32
  videoStartTs : Option UInt64
  audioVoice : Bool
  audioDuration : UInt32
  audioTitle : Bytes
  audioPerfomer : Bytes
  audioWaveform : Option Bytes
  filename : Bytes
  hasStickers : Bool
  stickers : List Bytes
  deriving DecidableEq, Repr

/-- A document with the name `a` and nothing else. -/
def plainDocument : TgDocument where
  type := .default
  mimeType := []
  forceFile := false
  spoiler := false
  noSoundVideo := false
  ttlSeconds := none
  imageW := 0
  imageH := 0
  videoSupportsStreaming := false
  videoNoSound := false
  videoDuration := 0
  videoW := 0
  videoH := 0
  videoPreloadPrefixSize := none
  videoStartTs := none
  audioVoice := false
  audioDuration := 0
  audioTitle := []
  audioPerfomer := []
  audioWaveform := none
  filename := [97]
  hasStickers := false
  stickers := []

/-- A query `upload.saveFilePart` or `upload.saveBigFilePart`. -/
inductive PartQuery
  | saveFilePart (fileId : UInt64) (filePart : UInt32) (bytes : Bytes)
  | saveBigFilePart (fileId : UInt64) (filePart : UInt32) (fileTotalParts : UInt32) (bytes : Bytes)
  deriving DecidableEq, Repr

def PartQuery.fileId : PartQuery → UInt64
  | .saveFilePart fileId _ _ => fileId
  | .saveBigFilePart fileId _ _ _ => fileId

def PartQuery.filePart : PartQuery → UInt32
  | .saveFilePart _ filePart _ => filePart
  | .saveBigFilePart _ filePart _ _ => filePart

def PartQuery.bytes : PartQuery → Bytes
  | .saveFilePart _ _ bytes => bytes
  | .saveBigFilePart _ _ _ bytes => bytes

/-- `file_total_parts`, which only `upload.saveBigFilePart` has. -/
def PartQuery.fileTotalParts? : PartQuery → Option UInt32
  | .saveFilePart _ _ _ => none
  | .saveBigFilePart _ _ total _ => some total

/-- An `InputFile`. -/
inductive InputFile
  | inputFile (id : UInt64) (parts : UInt32) (name : Bytes) (md5Checksum : List Char)
  | inputFileBig (id : UInt64) (parts : UInt32) (name : Bytes)
  deriving DecidableEq, Repr

def InputFile.id : InputFile → UInt64
  | .inputFile id _ _ _ => id
  | .inputFileBig id _ _ => id

def InputFile.parts : InputFile → UInt32
  | .inputFile _ parts _ _ => parts
  | .inputFileBig _ parts _ => parts

/-- `md5_checksum`, which `inputFileBig` does not have. -/
def InputFile.md5Checksum? : InputFile → Option (List Char)
  | .inputFile _ _ _ md5Checksum => some md5Checksum
  | .inputFileBig _ _ _ => none

/-- A `DocumentAttribute`. -/
inductive DocumentAttribute
  | filename (fileName : Bytes)
  | hasStickers
  | imageSize (w h : UInt32)
  | video (roundMessage supportsStreaming nosound : Bool) (duration : UInt64) (w h : UInt32)
    (preloadPrefixSize : Option UInt32) (videoStartTs : Option UInt64)
  | audio (voice : Bool) (duration : UInt32) (title performer : Bytes) (waveform : Option Bytes)
  deriving DecidableEq, Repr

/-- An `InputMedia`. -/
inductive InputMedia
  | uploadedPhoto (spoiler : Bool) (file : InputFile) (stickers : List Bytes)
    (ttlSeconds : Option UInt32)
  | uploadedDocument (nosoundVideo forceFile spoiler : Bool) (file : InputFile) (mimeType : Bytes)
    (attributes : List DocumentAttribute) (stickers : List Bytes) (ttlSeconds : Option UInt32)
  deriving DecidableEq, Repr

/-- The uploaded file in a medium. -/
def InputMedia.file : InputMedia → InputFile
  | .uploadedPhoto _ file _ _ => file
  | .uploadedDocument _ _ _ file _ _ _ _ => file

/-- A query `messages.sendMedia` without flags. -/
structure SendMedia where
  peer : Bytes
  media : InputMedia
  message : Bytes
  randomId : UInt64
  deriving DecidableEq, Repr

/-- What `tg_document_send` sends. -/
inductive UploadQuery
  | part (query : PartQuery)
  | media (query : SendMedia)
  deriving DecidableEq, Repr

/-- What a call does, up to its end: the queries, the bytes that `MD5` has hashed, and the exit. -/
structure Upload where
  queries : List UploadQuery
  hashed : List Bytes
  exit : Exit
  deriving DecidableEq, Repr

/-- A call that ends without another query. -/
def Upload.ended (exit : Exit) : Upload := ⟨[], [], exit⟩

/-- A query in front of the rest of the call. -/
def Upload.sent (query : UploadQuery) (rest : Upload) : Upload :=
  { rest with queries := query :: rest.queries }

/-- A call of `MD5` in front of the rest of the call. -/
def Upload.hashing (bytes : Bytes) (rest : Upload) : Upload :=
  { rest with hashed := bytes :: rest.hashed }

/-- The queries for parts. -/
def Upload.parts (upload : Upload) : List PartQuery :=
  upload.queries.filterMap fun query ↦
    match query with
    | .part query => some query
    | .media _ => none

theorem parts_ended (exit : Exit) : (Upload.ended exit).parts = [] := rfl

theorem parts_sent_part (query : PartQuery) (rest : Upload) :
    (rest.sent (.part query)).parts = query :: rest.parts := rfl

/-! ## The function -/

def partSize : ℕ := 524288

/-- The size up to which a file is not big. -/
def bigFileSize : Int32 := 10485760

def idBoolTrue : UInt32 := 0x997275b5

/-- The answer `boolTrue`. -/
def accepted (answer : Option TlObj) : Bool :=
  match answer with
  | some tl => tl.id = idBoolTrue
  | none => false

/-- The number of parts that a big file is announced with. -/
def fileTotalParts (size : Int32) : UInt32 :=
  (size / 524288 + if size % 524288 = 0 then 0 else 1).toUInt32

/-- One byte as `%02x` prints it. -/
def hexByte (byte : UInt8) : List Char :=
  [Nat.digitChar (byte.toNat / 16), Nat.digitChar (byte.toNat % 16)]

/-- The attributes of a document that is no photo. -/
def TgDocument.attributes (document : TgDocument) : List DocumentAttribute :=
  (if document.filename = [] then [] else [.filename document.filename]) ++
  (if document.hasStickers then [.hasStickers] else []) ++
  match document.type with
  | .image => [.imageSize document.imageW document.imageH]
  | .video =>
    [.video false document.videoSupportsStreaming document.videoNoSound document.videoDuration
      document.videoW document.videoH document.videoPreloadPrefixSize document.videoStartTs]
  | .audio =>
    [.audio document.audioVoice document.audioDuration document.audioTitle document.audioPerfomer
      document.audioWaveform]
  | _ => []

/-- The medium for an uploaded document. -/
def TgDocument.media (document : TgDocument) (file : InputFile) : InputMedia :=
  if document.type = .photo then
    .uploadedPhoto document.spoiler file document.stickers document.ttlSeconds
  else
    .uploadedDocument document.noSoundVideo document.forceFile document.spoiler file
      document.mimeType document.attributes document.stickers document.ttlSeconds

section Send

variable (moves : ℕ → Bool) (server : ℕ → UploadQuery → Option TlObj)

section Loop

variable (progress : ℕ → Int32) (save : UInt32 → Bytes → PartQuery) (cancels : Bool)
  (finish : ℕ → UInt32 → Buf → Upload)

/-- `fread` in the head of the loop, and `buf_cat` if it has read something. -/
def nextPart (send : Bytes → Bytes → Buf → Upload) (done : Buf → Upload) (rest : Bytes)
    (buf : Buf) : Upload :=
  if rest = [] then done buf
  else
    match bufCat moves buf (rest.take partSize) with
    | none => .ended .undefined
    | some buf => send (rest.take partSize) (rest.drop partSize) buf

/-- The loop over the parts from the label behind `buf_cat` on, with the number of answers so far,
for at most `fuel` visits of the label. Whatever `retry` is, the part is sent again. -/
def uploadPart : ℕ → ℕ → UInt32 → Bytes → Bytes → Buf → Upload
  | 0, _, _, _, _, _ => .ended .running
  | fuel + 1, count, part, bytes, rest, buf =>
    .sent (.part (save part bytes)) <|
      if accepted (server count (.part (save part bytes))) then
        if cancels ∧ progress part.toNat ≠ 0 then .ended (.returned 1)
        else
          nextPart moves (uploadPart fuel (count + 1) (part + 1)) (finish (count + 1) (part + 1))
            rest buf
      else uploadPart fuel (count + 1) part bytes rest buf

/-- The whole loop. -/
def uploadParts (fuel : ℕ) (file : Bytes) : Upload :=
  nextPart moves (uploadPart moves server progress save cancels finish fuel 0 0) (finish 0 0) file
    bufNew

end Loop

variable (md5 : Bytes → Bytes) (progress : ℕ → Int32) (document : TgDocument) (peer : Bytes)
  (message : Option Bytes) (fileId randomId : UInt64)

/-- The `InputFile` for `file_part` parts. -/
def inputFile (size : Int32) (filePart : UInt32) (bytes : Bytes) : InputFile :=
  if bigFileSize < size then .inputFileBig fileId filePart document.filename
  else .inputFile fileId filePart document.filename ((md5 bytes).flatMap hexByte)

/-- What comes after the loop: the hash, the query `messages.sendMedia`, and its answer. -/
def sendMedia (size : Int32) (count : ℕ) (filePart : UInt32) (buf : Buf) : Upload :=
  let query : UploadQuery := .media
    ⟨peer, document.media (inputFile md5 document fileId size filePart buf.bytes),
      message.getD [], randomId⟩
  .hashing buf.bytes <|
    .sent query (.ended (.returned (if (server count query).isNone then 1 else 0)))

/-- The loop for files above 10 MB. -/
def saveBigFileParts (fuel : ℕ) (size : Int32) (file : Bytes) : Upload :=
  uploadParts moves server progress
    (fun part bytes ↦ .saveBigFilePart fileId part (fileTotalParts size) bytes) true
    (sendMedia server md5 document peer message fileId randomId size) fuel file

/-- The loop for files up to 10 MB. The result of `progress` is not looked at. -/
def saveFileParts (fuel : ℕ) (size : Int32) (file : Bytes) : Upload :=
  uploadParts moves server progress (fun part bytes ↦ .saveFilePart fileId part bytes) false
    (sendMedia server md5 document peer message fileId randomId size) fuel file

/-- `tg_document_send`, with what `fopen` finds. A missing `progress` is one that returns zero. -/
def tgDocumentSend (fuel : ℕ) (file : Option Bytes) : Upload :=
  match file with
  | none => .ended (.returned 1)
  | some file =>
    let size := Int32.ofNat file.length
    if bigFileSize < size then
      if document.filename = [] then .ended (.returned 1)
      else
        saveBigFileParts moves server md5 progress document peer message fileId randomId fuel size
          file
    else
      saveFileParts moves server md5 progress document peer message fileId randomId fuel size file

end Send

/-! ## The blocks of a file -/

/-- Block number `part` of a file. -/
def block (file : Bytes) (part : ℕ) : Bytes := (file.drop (part * partSize)).take partSize

/-- The number of blocks that are read and fit into the buffer for the hash. -/
def partsRead (length : ℕ) : ℕ :=
  if length + 1 < 2 ^ 32 then length ⌈/⌉ partSize else 8191

theorem flatten_blocks (file : Bytes) (count : ℕ) :
    ((List.range count).map (block file)).flatten = file.take (count * partSize) := by
  induction count with
  | zero => rw [Nat.zero_mul, List.take_zero]; rfl
  | succ count ih =>
    rw [List.range_succ, List.map_append, List.flatten_append, ih, List.map_singleton,
      List.flatten_singleton, block, Nat.succ_mul, List.take_add]

theorem length_block (file : Bytes) (part : ℕ) :
    (block file part).length = min partSize (file.length - part * partSize) := by
  rw [block, List.length_take, List.length_drop]

theorem take_succ_block (file : Bytes) (part : ℕ) :
    file.take (part * partSize) ++ block file part = file.take ((part + 1) * partSize) := by
  rw [block, Nat.succ_mul, List.take_add]

section NextPart

variable (moves : ℕ → Bool) {file : Bytes} {part : ℕ} {buf : Buf}
  (send : Bytes → Bytes → Buf → Upload) (done : Buf → Upload)

/-- The head of the loop in front of a block. -/
theorem nextPart_of_lt (hpart : part < partsRead file.length)
    (hbuf : Holds buf (file.take (part * partSize))) :
    ∃ next, Holds next (file.take ((part + 1) * partSize)) ∧
      nextPart moves send done (file.drop (part * partSize)) buf =
        send (block file part) (file.drop ((part + 1) * partSize)) next := by
  have hbounds : part * partSize < file.length ∧
      min ((part + 1) * partSize) file.length + 1 < 2 ^ 32 := by
    unfold partsRead at hpart
    rw [Nat.ceilDiv_eq_add_pred_div] at hpart
    unfold partSize at hpart ⊢
    split at hpart <;> omega
  have hrest : file.drop (part * partSize) ≠ [] := by
    rw [ne_eq, List.drop_eq_nil_iff]
    omega
  have hlength : (file.take (part * partSize)).length + (block file part).length =
      min ((part + 1) * partSize) file.length := by
    rw [← List.length_append, take_succ_block, List.length_take]
  obtain ⟨next, hcat, hnext, -⟩ := bufCat_spec moves hbuf (block file part) (by omega)
  rw [take_succ_block] at hnext
  refine ⟨next, hnext, ?_⟩
  have hdrop : (file.drop (part * partSize)).drop partSize = file.drop ((part + 1) * partSize) := by
    rw [List.drop_drop, Nat.succ_mul]
  unfold block at hcat ⊢
  rw [nextPart, if_neg hrest, hcat, hdrop]

/-- The head of the loop behind the last block. -/
theorem nextPart_of_end (hfile : file.length + 1 < 2 ^ 32)
    (hbuf : Holds buf (file.take (partsRead file.length * partSize))) :
    Holds buf file ∧
      nextPart moves send done (file.drop (partsRead file.length * partSize)) buf = done buf := by
  have hend : file.length ≤ partsRead file.length * partSize := by
    rw [partsRead, if_pos hfile, Nat.ceilDiv_eq_add_pred_div]
    unfold partSize
    omega
  rw [List.take_of_length_le hend] at hbuf
  refine ⟨hbuf, ?_⟩
  rw [List.drop_of_length_le hend, nextPart, if_pos rfl]

/-- The head of the loop in front of a block that does not fit into the buffer. -/
theorem nextPart_of_large (hfile : 2 ^ 32 ≤ file.length + 1)
    (hbuf : Holds buf (file.take (partsRead file.length * partSize))) :
    nextPart moves send done (file.drop (partsRead file.length * partSize)) buf =
      .ended .undefined := by
  have hparts : partsRead file.length = 8191 := if_neg (not_lt.mpr hfile)
  rw [hparts] at hbuf ⊢
  have hrest : file.drop (8191 * partSize) ≠ [] := by
    rw [ne_eq, List.drop_eq_nil_iff]
    unfold partSize
    omega
  have hread : (file.take (8191 * partSize)).length = 8191 * partSize := by
    rw [List.length_take]
    unfold partSize
    omega
  have hblock := length_block file 8191
  have hcat : bufCat moves buf (block file 8191) = none := by
    apply bufCat_eq_none moves hbuf
    · rw [hread]
      decide
    · rw [hread, hblock]
      unfold partSize
      omega
  unfold block at hcat
  rw [nextPart, if_neg hrest, hcat]

end NextPart

end LibTg.Tg
