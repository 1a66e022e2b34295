import ArchiveExport.Image.Format
import ArchiveExport.Text.Charset

/-!
# Codecs

Image files, and texts in most encodings, are read and written by other libraries. Here is what an
export asks of them; everything else takes their answers as they come. The program runs with the
plain codecs, which know fewer kinds of image files and fewer encodings than such libraries do.
-/

namespace ArchiveExport

/-- What reads and writes image files and encoded texts. -/
structure Codecs where
  /-- The image in a file, or why there is none. -/
  image : Bytes → Except String Image
  /-- The file of an image. -/
  ofImage : Image → Bytes
  /-- The encodings of texts beside the known ones. -/
  charsets : Text.Charset.Registry

/-- Image files of the plainest kinds, and no encodings but the known ones. -/
def Codecs.plain : Codecs where
  image bs :=
    match Image.ofBytes? bs with
    | some image => .ok image
    | none => .error "cannot identify image file <_io.BytesIO object>"
  ofImage := Png.encode
  charsets := Text.Charset.noOthers

end ArchiveExport
