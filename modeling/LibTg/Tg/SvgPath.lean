import LibTg.Data.Decimal
import LibTg.Tl.Cursor
import LibTg.Tl.Str

/-!
# Outlines of photos (`tg/images.c`)

`image_from_svg_path` decodes the path of a `photoPathSize` and puts it into the `d` attribute of an
SVG document. Its comment says how a byte is decoded. Where the comment writes the low six bits as a
number, the function writes them as one character.
-/

namespace LibTg.Tg

open LibTg.Tl

def ascii (text : List Char) : Bytes := text.map fun c ↦ UInt8.ofNat c.toNat

def svgLookup : Bytes :=
  ascii "AACAAAAHAAALMAAAQASTAVAAAZaacaaaahaaalmaaaqastava.az0123456789-,".toList

/-- The document in front of the path. -/
def svgHeader : Bytes :=
  ascii ("<?xml version=\"1.0\" encoding=\"utf-8\"?>\n".toList ++
    "<svg version=\"1.1\" xmlns=\"http://www.w3.org/2000/svg\" ".toList ++
    "xmlns:xlink=\"http://www.w3.org/1999/xlink\"\n".toList ++
    "viewBox=\"0 0 512 512\" xml:space=\"preserve\">\n".toList ++ "<path d=\"".toList)

/-- The end of the element `path`. -/
def svgPathEnd : Bytes := ascii "\"/>\n".toList

/-- The end of the document. -/
def svgEnd : Bytes := ascii "</svg>\n".toList

/-! ## The code -/

def svgRound (svg : Str) (byte : UInt8) : Option Str :=
  let num := byte.toNat
  if num ≥ 128 + 64 then strAppend svg [svgLookup.getD (num - 128 - 64) 0]
  else
    (if num ≥ 128 then strAppend svg (ascii [','])
      else if num ≥ 64 then strAppend svg (ascii ['-'])
      else some svg).bind fun svg ↦ strAppend svg [UInt8.ofNat (num &&& 63)]

/-- `int len = encoded.size`. -/
def svgLen (encoded : Bytes) : ℤ := intOfUi32 (UInt32.ofNat encoded.length)

def imageFromSvgPath (encoded : Bytes) : Option Str := do
  let svg ← strAppendf strInit svgHeader
  let svg ← strAppendf svg (ascii ['M'])
  let svg ← (encoded.take (svgLen encoded).toNat).foldlM svgRound svg
  let svg ← strAppend svg (ascii ['z'])
  let svg ← strAppendf svg svgPathEnd
  strAppendf svg svgEnd

/-! ## The comment -/

/-- What stands in front of the number for a byte below 192. -/
def svgSign (num : ℕ) : Bytes :=
  if num ≥ 128 then ascii [','] else if num ≥ 64 then ascii ['-'] else []

/-- What the comment adds to the path for a byte. -/
def svgPiece (byte : UInt8) : Bytes :=
  let num := byte.toNat
  if num ≥ 128 + 64 then [svgLookup.getD (num - 128 - 64) 0]
  else svgSign num ++ ascii (printNat (num &&& 63))

/-- The path of the comment. -/
def svgPath (encoded : Bytes) : Bytes := ascii ['M'] ++ encoded.flatMap svgPiece ++ ascii ['z']

/-- The `d` attribute of a document, up to the quotation mark that closes it. -/
def svgAttribute (document : Bytes) : Bytes := (document.drop svgHeader.length).takeWhile (· ≠ 34)

/-- The control characters of ASCII. -/
def isControl (c : UInt8) : Bool := c < 32 ∨ c = 127

/-- What is written for a path is a document with the path of the comment as its attribute. No NUL is
in it, so the C string is all of it, its only control characters are the line breaks of the fixed
text, and it ends with the closing tag. -/
structure SvgDecoded (encoded document : Bytes) : Prop where
  path : svgAttribute document = svgPath encoded
  nul : 0 ∉ document
  controls : document.filter isControl =
    svgHeader.filter isControl ++ (svgPathEnd ++ svgEnd).filter isControl
  closed : svgEnd <:+ document

/-- The call for a path returns a document as it should be. -/
def DecodesSvg (encoded : Bytes) : Prop :=
  ∃ svg, imageFromSvgPath encoded = some svg ∧ SvgDecoded encoded svg.str

/-! ## What the code writes -/

/-- What the code adds to the path for a byte. -/
def svgWrittenPiece (byte : UInt8) : Bytes :=
  let num := byte.toNat
  if num ≥ 128 + 64 then [svgLookup.getD (num - 128 - 64) 0]
  else svgSign num ++ [UInt8.ofNat (num &&& 63)]

/-- The path that the code writes. -/
def svgWrittenPath (encoded : Bytes) : Bytes :=
  ascii ['M'] ++ (encoded.take (svgLen encoded).toNat).flatMap svgWrittenPiece ++ ascii ['z']

/-- The document that the code writes. -/
def svgWritten (encoded : Bytes) : Bytes :=
  svgHeader ++ svgWrittenPath encoded ++ (svgPathEnd ++ svgEnd)

theorem appends_svgSign (num : ℕ) :
    Appends (fun svg ↦
      if num ≥ 128 then strAppend svg (ascii [','])
      else if num ≥ 64 then strAppend svg (ascii ['-'])
      else some svg) (svgSign num) := by
  unfold svgSign
  split
  · exact appends_strAppend _
  · split
    · exact appends_strAppend _
    · exact appends_nil

theorem appends_svgRound (byte : UInt8) : Appends (svgRound · byte) (svgWrittenPiece byte) := by
  unfold svgRound svgWrittenPiece
  dsimp only
  split
  · exact appends_strAppend _
  · exact (appends_svgSign _).bind (appends_strAppend _)

theorem imageFromSvgPath_str (encoded : Bytes) :
    (imageFromSvgPath encoded).map Str.str = grown [] (svgWritten encoded) := by
  have hheader : Appends (strAppendf · svgHeader) svgHeader :=
    appends_strAppendf (by decide +kernel) (by decide +kernel)
  have hopen : Appends (strAppendf · (ascii ['M'])) (ascii ['M']) :=
    appends_strAppendf (by decide) (by decide)
  have hpathEnd : Appends (strAppendf · svgPathEnd) svgPathEnd :=
    appends_strAppendf (by decide) (by decide)
  have hend : Appends (strAppendf · svgEnd) svgEnd := appends_strAppendf (by decide) (by decide)
  have hloop := appends_foldlM appends_svgRound (encoded.take (svgLen encoded).toNat)
  have hall := hheader.bind (hopen.bind (hloop.bind
    ((appends_strAppend (ascii ['z'])).bind (hpathEnd.bind hend))))
  unfold svgWritten svgWrittenPath
  simp only [List.append_assoc]
  exact hall strInit

theorem decodesSvg_iff_written (encoded : Bytes) :
    DecodesSvg encoded ↔
      (svgWritten encoded).length < strMax ∧ SvgDecoded encoded (svgWritten encoded) := by
  have hwritten := imageFromSvgPath_str encoded
  unfold grown at hwritten
  rw [List.length_nil, Nat.zero_add, List.nil_append] at hwritten
  unfold DecodesSvg
  constructor
  · rintro ⟨svg, hreturned, hdecoded⟩
    rw [hreturned, Option.map_some] at hwritten
    split at hwritten
    · next hfits =>
      rw [Option.some.inj hwritten] at hdecoded
      exact ⟨hfits, hdecoded⟩
    · cases hwritten
  · rintro ⟨hfits, hdecoded⟩
    rw [if_pos hfits] at hwritten
    obtain ⟨svg, hreturned, hstr⟩ := Option.map_eq_some_iff.mp hwritten
    exact ⟨svg, hreturned, hstr ▸ hdecoded⟩

/-! ## Lengths and control characters -/

theorem lookup_plain : ∀ index < 64, svgLookup.getD index 0 ≠ 0 ∧ svgLookup.getD index 0 ≠ 34 ∧
    isControl (svgLookup.getD index 0) = false := by
  decide +kernel

theorem length_ascii (text : List Char) : (ascii text).length = text.length := List.length_map _

/-- The code never writes more for a byte than the comment says. -/
theorem length_svgWrittenPiece_le (byte : UInt8) :
    (svgWrittenPiece byte).length ≤ (svgPiece byte).length := by
  unfold svgWrittenPiece svgPiece
  dsimp only
  split
  · exact le_rfl
  · rw [List.length_append, List.length_append, length_ascii]
    exact Nat.add_le_add_left (List.length_pos_of_ne_nil (printNat_ne_nil _)) _

/-- Two digits are more than one character. -/
theorem length_svgWrittenPiece_lt {byte : UInt8} (hnumber : byte.toNat < 192)
    (hdigits : 32 ≤ byte.toNat &&& 63) :
    (svgWrittenPiece byte).length < (svgPiece byte).length := by
  have htwo : ∀ value < 64, 32 ≤ value → 1 < (printNat value).length := by decide
  have hlow := Nat.and_lt_two_pow byte.toNat (by decide : 63 < 2 ^ 6)
  unfold svgWrittenPiece svgPiece
  dsimp only
  rw [if_neg (by omega), if_neg (by omega), List.length_append, List.length_append, length_ascii]
  exact Nat.add_lt_add_left (htwo _ hlow hdigits) _

/-- The comment says something for every byte. -/
theorem length_le_svgPiece (encoded : Bytes) : encoded.length ≤ (encoded.flatMap svgPiece).length := by
  induction encoded with
  | nil => exact Nat.zero_le _
  | cons byte encoded ih =>
    have hpos : 0 < (svgPiece byte).length := by
      apply lt_of_lt_of_le _ (length_svgWrittenPiece_le byte)
      unfold svgWrittenPiece
      dsimp only
      split <;> simp
    rw [List.flatMap_cons, List.length_append, List.length_cons]
    omega

theorem length_flatMap_svgWrittenPiece_le (encoded : Bytes) :
    (encoded.flatMap svgWrittenPiece).length ≤ (encoded.flatMap svgPiece).length := by
  induction encoded with
  | nil => exact le_rfl
  | cons byte encoded ih =>
    have hhead := length_svgWrittenPiece_le byte
    rw [List.flatMap_cons, List.flatMap_cons, List.length_append, List.length_append]
    omega

/-- If the path that is written is as long as the right one, and no number in it is a control
character, there are no numbers in it. -/
theorem lookup_of_length {encoded : Bytes}
    (hlong : (encoded.flatMap svgPiece).length ≤ (encoded.flatMap svgWrittenPiece).length)
    (hnumbers : ∀ byte ∈ encoded, 192 ≤ byte.toNat ∨ 32 ≤ byte.toNat &&& 63) :
    ∀ byte ∈ encoded, 192 ≤ byte.toNat := by
  induction encoded with
  | nil => exact fun byte hmem ↦ nomatch hmem
  | cons byte encoded ih =>
    rw [List.flatMap_cons, List.flatMap_cons, List.length_append, List.length_append] at hlong
    rw [List.forall_mem_cons] at hnumbers ⊢
    have hhead := length_svgWrittenPiece_le byte
    have htail := length_flatMap_svgWrittenPiece_le encoded
    refine ⟨?_, ih (by omega) hnumbers.2⟩
    by_contra hnumber
    have hlt := length_svgWrittenPiece_lt (not_le.mp hnumber)
      (hnumbers.1.resolve_left hnumber)
    omega

theorem svgAttribute_document (path : Bytes) :
    svgAttribute (svgHeader ++ path ++ (svgPathEnd ++ svgEnd)) = path.takeWhile (· ≠ 34) := by
  have hclosing : (svgPathEnd ++ svgEnd).takeWhile (fun c : UInt8 ↦ c ≠ 34) = [] := by decide
  unfold svgAttribute
  rw [List.append_assoc, List.drop_left, List.takeWhile_append, hclosing, List.append_nil]
  split
  · next hwhole => exact ((List.takeWhile_prefix _).eq_of_length hwhole).symm
  · rfl

/-- A number that has been written is a character of its own. -/
theorem mem_svgWrittenPiece {byte : UInt8} (hnumber : byte.toNat < 192) :
    UInt8.ofNat (byte.toNat &&& 63) ∈ svgWrittenPiece byte := by
  unfold svgWrittenPiece
  dsimp only
  rw [if_neg (by omega)]
  exact List.mem_append_right _ (List.mem_singleton_self _)

theorem number_of_not_isControl {byte : UInt8}
    (hplain : isControl (UInt8.ofNat (byte.toNat &&& 63)) = false) : 32 ≤ byte.toNat &&& 63 := by
  have hcontrols : ∀ value < 64, isControl (UInt8.ofNat value) = false → 32 ≤ value := by decide
  exact hcontrols _ (Nat.and_lt_two_pow byte.toNat (by decide : 63 < 2 ^ 6)) hplain

/-- A document as it should be has only bytes from the table. -/
theorem lookup_of_svgDecoded {encoded : Bytes} (h : SvgDecoded encoded (svgWritten encoded)) :
    (∀ byte ∈ encoded, 192 ≤ byte.toNat) ∧ encoded.length ≤ (svgLen encoded).toNat := by
  have hpath := h.path
  have hcontrols := h.controls
  unfold svgWritten svgWrittenPath at hpath hcontrols
  rw [svgAttribute_document] at hpath
  have hlength := (List.takeWhile_prefix _).length_le.trans' (congrArg List.length hpath).ge
  unfold svgPath at hlength
  generalize (svgLen encoded).toNat = count at *
  simp only [List.length_append, length_ascii, List.length_singleton] at hlength
  have hsplit := congrArg (fun items ↦ (items.flatMap svgPiece).length)
    (List.take_append_drop count encoded)
  rw [List.flatMap_append, List.length_append] at hsplit
  have hrest := length_le_svgPiece (encoded.drop count)
  rw [List.length_drop] at hrest
  have hwritten := length_flatMap_svgWrittenPiece_le (encoded.take count)
  have hall : encoded.length ≤ count := by omega
  rw [List.take_of_length_le hall] at *
  refine ⟨lookup_of_length (by omega) fun byte hmem ↦ ?_, hall⟩
  have hnone : (encoded.flatMap svgWrittenPiece).filter isControl = [] := by
    apply List.eq_nil_of_length_eq_zero
    have hcount := congrArg List.length hcontrols
    simp only [List.filter_append, List.length_append] at hcount
    omega
  by_contra hnumber
  rw [not_or, not_le] at hnumber
  have hplain := List.filter_eq_nil_iff.mp hnone _
    (List.mem_flatMap_of_mem hmem (mem_svgWrittenPiece hnumber.1))
  exact hnumber.2 (number_of_not_isControl (Bool.not_eq_true _ ▸ hplain))

theorem svgWrittenPiece_lookup {byte : UInt8} (hlookup : 192 ≤ byte.toNat) :
    svgWrittenPiece byte = [svgLookup.getD (byte.toNat - 128 - 64) 0] := if_pos hlookup

theorem svgPiece_lookup {byte : UInt8} (hlookup : 192 ≤ byte.toNat) :
    svgPiece byte = [svgLookup.getD (byte.toNat - 128 - 64) 0] := if_pos hlookup

/-- Every character from the table may stand in an attribute. -/
theorem plain_of_mem_svgPath {encoded : Bytes} (hlookup : ∀ byte ∈ encoded, 192 ≤ byte.toNat)
    {c : UInt8} (hmem : c ∈ svgPath encoded) : c ≠ 0 ∧ c ≠ 34 ∧ isControl c = false := by
  have hopen : ascii ['M'] = [77] := by decide
  have hclose : ascii ['z'] = [122] := by decide
  unfold svgPath at hmem
  rw [List.mem_append, List.mem_append, List.mem_flatMap, hopen, hclose] at hmem
  rcases hmem with (hmem | ⟨byte, hbyte, hpiece⟩) | hmem
  · obtain rfl := List.mem_singleton.mp hmem
    decide
  · rw [svgPiece_lookup (hlookup byte hbyte), List.mem_singleton] at hpiece
    have hlt := byte.toNat_lt
    rw [hpiece]
    exact lookup_plain _ (by omega)
  · obtain rfl := List.mem_singleton.mp hmem
    decide

/-- Where all bytes are from the table, the code does what the comment says. -/
theorem svgWrittenPath_eq {encoded : Bytes} (hlookup : ∀ byte ∈ encoded, 192 ≤ byte.toNat)
    (hcount : encoded.length ≤ (svgLen encoded).toNat) :
    svgWrittenPath encoded = svgPath encoded := by
  unfold svgWrittenPath svgPath
  rw [List.take_of_length_le hcount]
  congr 2
  apply List.flatMap_congr
  intro byte hmem
  rw [svgWrittenPiece_lookup (hlookup byte hmem), svgPiece_lookup (hlookup byte hmem)]

theorem svgDecoded_of_lookup {encoded : Bytes} (hlookup : ∀ byte ∈ encoded, 192 ≤ byte.toNat)
    (hcount : encoded.length ≤ (svgLen encoded).toNat) :
    SvgDecoded encoded (svgWritten encoded) := by
  have hplain (c : UInt8) (hmem : c ∈ svgPath encoded) := plain_of_mem_svgPath hlookup hmem
  unfold svgWritten
  rw [svgWrittenPath_eq hlookup hcount]
  constructor
  · rw [svgAttribute_document, List.takeWhile_eq_self_iff]
    exact fun c hmem ↦ decide_eq_true (hplain c hmem).2.1
  · have hheader : 0 ∉ svgHeader := by decide +kernel
    have hend : 0 ∉ svgPathEnd ++ svgEnd := by decide
    rw [List.mem_append, List.mem_append]
    rintro ((hmem | hmem) | hmem)
    · exact hheader hmem
    · exact (hplain 0 hmem).1 rfl
    · exact hend hmem
  · have hnone : (svgPath encoded).filter isControl = [] :=
      List.filter_eq_nil_iff.mpr fun c hmem ↦ by rw [(hplain c hmem).2.2]; decide
    rw [List.filter_append, List.filter_append, hnone, List.append_nil]
  · exact ⟨svgHeader ++ svgPath encoded ++ svgPathEnd, by simp only [List.append_assoc]⟩

/-! ## When the path is decoded -/

/-- The length of the document without the characters for the bytes. -/
def svgFixed : ℕ := (svgHeader ++ ascii ['M', 'z'] ++ (svgPathEnd ++ svgEnd)).length

theorem length_svgWritten {encoded : Bytes} (hlookup : ∀ byte ∈ encoded, 192 ≤ byte.toNat)
    (hcount : encoded.length ≤ (svgLen encoded).toNat) :
    (svgWritten encoded).length = svgFixed + encoded.length := by
  have hpieces : (encoded.flatMap svgPiece).length = encoded.length := by
    clear hcount
    induction encoded with
    | nil => rfl
    | cons byte encoded ih =>
      rw [List.forall_mem_cons] at hlookup
      rw [List.flatMap_cons, List.length_append, svgPiece_lookup hlookup.1, ih hlookup.2,
        List.length_singleton, List.length_cons, Nat.add_comm]
  unfold svgWritten svgFixed
  rw [svgWrittenPath_eq hlookup hcount]
  unfold svgPath
  simp only [List.length_append, length_ascii, hpieces, List.length_cons, List.length_nil]
  omega

theorem svgLen_of_lt {encoded : Bytes} (hlt : encoded.length < 2 ^ 31) :
    (svgLen encoded).toNat = encoded.length := by
  have htoNat : (UInt32.ofNat encoded.length).toNat = encoded.length :=
    UInt32.toNat_ofNat_of_lt' (hlt.trans (by decide))
  unfold svgLen
  rw [intOfUi32_of_lt (by omega), htoNat, Int.toNat_natCast]

/-- The path of a photo is decoded exactly if the table has all of its bytes, and the document fits
into the largest block. -/
theorem decodesSvg_iff (encoded : Bytes) :
    DecodesSvg encoded ↔
      (∀ byte ∈ encoded, 192 ≤ byte) ∧ svgFixed + encoded.length < 2 ^ 31 - bufsiz := by
  rw [decodesSvg_iff_written]
  constructor
  · rintro ⟨hfits, hdecoded⟩
    obtain ⟨hlookup, hcount⟩ := lookup_of_svgDecoded hdecoded
    rw [length_svgWritten hlookup hcount] at hfits
    exact ⟨fun byte hmem ↦ UInt8.le_iff_toNat_le.mpr (hlookup byte hmem), hfits⟩
  · rintro ⟨hbytes, hfits⟩
    have hlookup (byte : UInt8) (hmem : byte ∈ encoded) : 192 ≤ byte.toNat :=
      UInt8.le_iff_toNat_le.mp (hbytes byte hmem)
    have hcount := svgLen_of_lt (show encoded.length < 2 ^ 31 by omega)
    refine ⟨?_, svgDecoded_of_lookup hlookup hcount.ge⟩
    rw [length_svgWritten hlookup hcount.ge]
    exact hfits

/-- The number of the byte 64 is written as a NUL, which ends the string. -/
theorem not_decodesSvg_nul : ¬ DecodesSvg [64] := fun h ↦
  absurd ((decodesSvg_iff [64]).mp h).1 (by decide)

end LibTg.Tg
