import ArchiveExport.Checksum.Md5
import ArchiveExport.Disk.Access
import ArchiveExport.Text.Lowercase

/-!
# Digests of files

Several files have one digest: that of their octets one behind the other.
-/

namespace ArchiveExport

namespace Disk

/-- The octets of the files that some texts name, if all of them are files. -/
def concat? (d : Disk) (working : Path) (texts : List String) : Option Bytes := do
  let parts ← texts.mapM fun text => (d.read working text).toOption
  return parts.flatten

/-- The digest of the files that some texts name, if all of them are files. -/
def digest? (d : Disk) (working : Path) (texts : List String) : Option String :=
  (d.concat? working texts).map Checksum.Md5.hex

end Disk

/-- Whether two digests are the same up to case; a missing one is the same as none. -/
def Checksum.sameDigest : Option String → Option String → Bool
  | some a, some b => Text.lower a = Text.lower b
  | _, _ => false

end ArchiveExport
