import RouteScribe.Files.Disk
import RouteScribe.OpenApi.Render

/-!
# Writing a document to a file

The file is named by a base path and the name of the format behind a point.  The text is made first;
then missing directories are made, the file is opened, which empties it, and the text is written.
-/

namespace RouteScribe

/-- Why a document is not written. -/
inductive WriteError where
  | noText (reason : RenderError)
  | noFile (fault : FileFault)
  /-- The file has been opened, but the text has no encoding. -/
  | noBytes (row : Unencodable)
deriving DecidableEq, Repr

/-- The words for a failed writing. -/
def WriteError.message : WriteError → List Char
  | noText reason => reason.message.toList
  | noFile fault => fault.message
  | noBytes row => row.message.toList

/-- The file of a document. -/
def outputPath (base : Path) (format : List Char) : Path := base.withEnding format

namespace Disk

/-- Writes a text into a file whose directory is there.  Opening empties the file. -/
def writeText (d : Disk) (p : Path) (t : Text) : Except WriteError Unit × Disk :=
  match d.writeBytes p [] with
  | (.error f, d) => (.error (.noFile f), d)
  | (.ok (), opened) =>
    match t.encode with
    | .error row => (.error (.noBytes row), opened)
    | .ok bytes =>
      match opened.writeBytes p bytes with
      | (.error f, d) => (.error (.noFile f), d)
      | (.ok (), d) => (.ok (), d)

end Disk

/-- Writes a document in a format next to a base path. -/
def Document.write (d : Document) (dumper : Dumper) (disk : Disk) (base : Path)
    (format : List Char) : Except WriteError Path × Disk :=
  let path := outputPath base format
  match d.render dumper (Text.ofChars format) with
  | .error e => (.error (.noText e), disk)
  | .ok text =>
    match disk.ensureDirectories path.parent with
    | (.error f, disk) => (.error (.noFile f), disk)
    | (.ok (), disk) =>
      match disk.writeText path text with
      | (.error e, disk) => (.error e, disk)
      | (.ok (), disk) => (.ok path, disk)

end RouteScribe
