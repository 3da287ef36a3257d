import LibTg.Data.BigEndian
import LibTg.Tg.Message
import LibTg.Tg.SvgPath
import LibTg.Tl.Base64

/-!
# The texts of pictures (`tg/images.c`, `tl/base64.h`)

`buf_to_base64`, `image_from_photo_stripped` and `image_from_svg_path` make the texts that messages and
dialogs carry for pictures. What is proved for every `Codec` holds for these functions.
-/

namespace LibTg.Tg

open LibTg.Tl

/-- `header` of `image_from_photo_stripped`. -/
def strippedHeader : Bytes :=
  beBytes 40 0xffd8ffe000104a46494600010100000100010000ffdb004300281c1e231e19282321232d2b28303c ++
    beBytes 40 0x64413c37373c7b585d4964918099968f808c8aa0b4e6c3a0aadaad8a8cc8ffcbdaeef5ffffff9bc1 ++
    beBytes 40 0xfffffffaffe6fdfff8ffdb0043012b2d2d3c353c76414176f8a58ca5f8f8f8f8f8f8f8f8f8f8f8f8 ++
    beBytes 40 0xf8f8f8f8f8f8f8f8f8f8f8f8f8f8f8f8f8f8f8f8f8f8f8f8f8f8f8f8f8f8f8f8f8f8f8f8f8f8ffc0 ++
    beBytes 40 0x0011080000000003012200021101031101ffc4001f00000105010101010101000000000000000001 ++
    beBytes 40 0x02030405060708090a0bffc400b5100002010303020403050504040000017d010203000411051221 ++
    beBytes 40 0x31410613516107227114328191a1082342b1c11552d1f02433627282090a161718191a2526272829 ++
    beBytes 40 0x2a3435363738393a434445464748494a535455565758595a636465666768696a737475767778797a ++
    beBytes 40 0x838485868788898a92939495969798999aa2a3a4a5a6a7a8a9aab2b3b4b5b6b7b8b9bac2c3c4c5c6 ++
    beBytes 40 0xc7c8c9cad2d3d4d5d6d7d8d9dae1e2e3e4e5e6e7e8e9eaf1f2f3f4f5f6f7f8f9faffc4001f010003 ++
    beBytes 40 0x0101010101010101010000000000000102030405060708090a0bffc400b511000201020404030407 ++
    beBytes 40 0x05040400010277000102031104052131061241510761711322328108144291a1b1c109233352f015 ++
    beBytes 40 0x6272d10a162434e125f11718191a262728292a35363738393a434445464748494a53545556575859 ++
    beBytes 40 0x5a636465666768696a737475767778797a82838485868788898a92939495969798999aa2a3a4a5a6 ++
    beBytes 40 0xa7a8a9aab2b3b4b5b6b7b8b9bac2c3c4c5c6c7c8c9cad2d3d4d5d6d7d8d9dae2e3e4e5e6e7e8e9ea ++
    beBytes 23 0xf2f3f4f5f6f7f8f9faffda000c03010002110311003f00

def strippedFooter : Bytes := [0xff, 0xd9]

def imageFromPhotoStripped : Bytes → Bytes
  | 1 :: height :: width :: rest =>
    (strippedHeader.set 164 height).set 166 width ++ rest ++ strippedFooter
  | _ => []

/-- `buf_to_base64` of a buffer with these contents. -/
def base64Text (bytes : Bytes) : Text :=
  if bytes.length < 1 then none
  else (base64Encode bytes).map fun encoded ↦ strndup encoded (encodedLength bytes.length)

/-- The functions of the source, for a `printf`, a conversion and the names of a schema. -/
def sourceCodec (printDouble : UInt64 → List Char) (truncate : UInt64 → UInt64)
    (tlName : UInt32 → List Char) : Codec where
  toBase64 := base64Text
  toImage bytes := base64Text (imageFromPhotoStripped bytes)
  svgPath encoded := (imageFromSvgPath encoded).map fun svg ↦ cString svg.str
  printDouble := printDouble
  truncate := truncate
  tlName := tlName

/-! ## A stripped photo -/

theorem length_strippedHeader : strippedHeader.length = 623 := by
  simp only [strippedHeader, List.length_append, length_beBytes]

/-- A stripped photo becomes a JPEG file: the header with its height and width, its data, and the
marker of the end. -/
theorem imageFromPhotoStripped_spec (height width : UInt8) (rest : Bytes) :
    let image := imageFromPhotoStripped (1 :: height :: width :: rest)
    image.take 164 = strippedHeader.take 164 ∧ image[164]? = some height ∧
      image[166]? = some width ∧ image.drop 623 = rest ++ [0xff, 0xd9] := by
  have hlength : ((strippedHeader.set 164 height).set 166 width).length = 623 := by
    rw [List.length_set, List.length_set, length_strippedHeader]
  have himage : imageFromPhotoStripped (1 :: height :: width :: rest) =
      (strippedHeader.set 164 height).set 166 width ++ (rest ++ [0xff, 0xd9]) :=
    List.append_assoc _ _ _
  rw [himage]
  refine ⟨?_, ?_, ?_, ?_⟩
  · rw [List.take_append_of_le_length (by omega), List.take_set_of_le (by omega),
      List.take_set_of_le le_rfl]
  · rw [List.getElem?_append_left (by omega), List.getElem?_set_ne (by decide),
      List.getElem?_set_self (by rw [length_strippedHeader]; decide)]
  · rw [List.getElem?_append_left (by omega),
      List.getElem?_set_self (by rw [List.length_set, length_strippedHeader]; decide)]
  · rw [← hlength, List.drop_left]

/-! ## File references -/

theorem bufToBase64_eq {buf : Buf} {data : Bytes} (hbuf : Represents buf data)
    (hlt : encodedLength data.length < 2 ^ 31) : bufToBase64 buf = some (base64Text data) := by
  rw [bufToBase64, base64Text, hbuf.size_eq, hbuf.bytes, base64Encode, if_pos hlt]
  split <;> rfl

theorem photoSizeRound_fileReference (codec : Codec) (result : TgMessageT × List Char)
    (size : Option TlPhotoSize) :
    (photoSizeRound codec result size).1.photoFileReference = result.1.photoFileReference := by
  unfold photoSizeRound
  split <;> rfl

theorem photoSizes_fileReference (codec : Codec) (sizes : List (Option TlPhotoSize))
    (tgm : TgMessageT) :
    (photoSizes codec sizes tgm).photoFileReference = tgm.photoFileReference := by
  refine List.foldlRecOn (motive := fun result : TgMessageT × List Char ↦
    result.1.photoFileReference = tgm.photoFileReference) sizes _ rfl fun result hresult size _ ↦ ?_
  rw [photoSizeRound_fileReference, hresult]

/-- `buf_from_base64` makes the file reference of a photo again from the text that its message
carries. -/
theorem photoMedia_fileReference (moves : ℕ → Bool) (printDouble : UInt64 → List Char)
    (truncate : UInt64 → UInt64) (tlName : UInt32 → List Char) {photo : TlPhoto}
    (hne : photo.fileReference ≠ []) (hlt : photo.fileReference.length < 2 ^ 29) (tgm : TgMessageT) :
    ∃ text result,
      (photoMedia (sourceCodec printDouble truncate tlName) photo tgm).photoFileReference =
        some text ∧
      bufFromBase64 moves (some text) = some result ∧ Represents result photo.fileReference := by
  obtain ⟨buf, -, hbuf⟩ := bufAdd_represents moves photo.fileReference (by omega)
  obtain ⟨text, htext, -, result, hresult, hrepresents⟩ :=
    (base64_roundTrip moves hbuf hlt).encoded hne
  refine ⟨text, result, ?_, hresult, hrepresents⟩
  rw [bufToBase64_eq hbuf (by rw [encodedLength]; omega), Option.some.injEq] at htext
  exact (photoSizes_fileReference _ _ _).trans htext

/-! ## Outlines -/

/-- The outline of a photo whose bytes are all in the table is carried as the document of the
comment. -/
theorem photoSizeRound_outline (printDouble : UInt64 → List Char) (truncate : UInt64 → UInt64)
    (tlName : UInt32 → List Char) {encoded : Bytes} (hlookup : ∀ byte ∈ encoded, 192 ≤ byte)
    (hfits : svgFixed + encoded.length < 2 ^ 31 - bufsiz) (result : TgMessageT × List Char) :
    ∃ document, SvgDecoded encoded document ∧
      (photoSizeRound (sourceCodec printDouble truncate tlName) result
        (some (.photoPathSize encoded))).1.photoSvg = some (cString document) := by
  obtain ⟨svg, hsvg, hdecoded⟩ := (decodesSvg_iff encoded).mpr ⟨hlookup, hfits⟩
  have hround (codec : Codec) :
      (photoSizeRound codec result (some (.photoPathSize encoded))).1.photoSvg =
        codec.svgPath encoded := by
    rw [photoSizeRound]
  refine ⟨svg.str, hdecoded, (hround _).trans ?_⟩
  simp only [sourceCodec, hsvg, Option.map_some]

end LibTg.Tg
