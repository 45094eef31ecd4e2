import RouteScribe.Assoc
import RouteScribe.Files.Path
import RouteScribe.Text.Quoted
import RouteScribe.Text.Utf8

/-!
# Files and directories

A `FileTree` is a file or a directory with named trees in it, and a `Disk` is a tree with a working
directory.  Reading and writing take paths and fail with a `FileFault`, which names the path.  A
write that fails half-way leaves behind what it has done: every writing operation answers the disk
together with its outcome.
-/

namespace RouteScribe

/-- A file with its bytes, or a directory. -/
inductive FileTree where
  | file (bytes : List UInt8)
  | directory (entries : List (FileName × FileTree))
deriving Inhabited

/-- Why a path cannot be used. -/
inductive FileFaultKind where
  | notFound
  | present
  | notDirectory
  | isDirectory
  | nameTooLong
  /-- The path holds the character NUL. -/
  | nullCharacter
deriving DecidableEq, Repr

namespace FileFaultKind

/-- The number and the words of the system for a fault. -/
def words : FileFaultKind → String
  | notFound => "[Errno 2] No such file or directory"
  | present => "[Errno 17] File exists"
  | notDirectory => "[Errno 20] Not a directory"
  | isDirectory => "[Errno 21] Is a directory"
  | nameTooLong => "[Errno 36] File name too long"
  | nullCharacter => "embedded null byte"

end FileFaultKind

/-- A fault and the path that it was met with. -/
structure FileFault where
  kind : FileFaultKind
  path : Path
deriving DecidableEq, Repr

/-- The words for a fault. -/
def FileFault.message (f : FileFault) : List Char :=
  match f.kind with
  | .nullCharacter => f.kind.words.toList
  | k => k.words.toList ++ ':' :: ' ' :: quoted f.path.shown

namespace Path

/-- The most bytes of the text of a path. -/
def maxBytes : Nat := 4095

/-- What is wrong with a path before anything is looked up: a name holds the character NUL, or the
whole text is too long. -/
def fault? (p : Path) : Option FileFaultKind :=
  if p.names.any (·.contains '\x00') then some .nullCharacter
  else if (Utf8.encode p.shown).length > maxBytes then some .nameTooLong
  else none

end Path

namespace FileTree

/-- What stands at the end of a list of names. -/
def get? : FileTree → List FileName → Option FileTree
  | t, [] => some t
  | directory es, n :: rest =>
    match Assoc.get? es n with
    | some t => get? t rest
    | none => none
  | file _, _ :: _ => none

/-- The tree with another one at the end of a list of names.  Missing directories on the way are
made, and files on the way give place to directories. -/
def put : FileTree → List FileName → FileTree → FileTree
  | _, [], new => new
  | directory es, n :: rest, new =>
    directory (Assoc.set es n (put ((Assoc.get? es n).getD (directory [])) rest new))
  | file _, n :: rest, new => directory [(n, put (directory []) rest new)]

/-- The tree is a directory. -/
def isDirectory : FileTree → Bool
  | directory _ => true
  | file _ => false

mutual

/-- The files of a tree, each with the names that lead to it. -/
def files : FileTree → List (List FileName × List UInt8)
  | file bytes => [([], bytes)]
  | directory es => filesOfEntries es

/-- The files of a list of entries. -/
def filesOfEntries : List (FileName × FileTree) → List (List FileName × List UInt8)
  | [] => []
  | (n, t) :: rest => t.files.map (fun f => (n :: f.1, f.2)) ++ filesOfEntries rest

end

/-- The most bytes of a name. -/
def maxNameBytes : Nat := 255

/-- Follows names from a directory to what they lead to, as its own list of names.  Every name but
the last has to lead to a directory. -/
def follow (t : FileTree) : List FileName → List FileName → Except FileFaultKind (List FileName)
  | at', [] => .ok at'
  | at', n :: rest =>
    match t.get? at' with
    | some (directory es) =>
      if n = Path.up then follow t at'.dropLast rest
      else if (Utf8.encode n).length > maxNameBytes then .error .nameTooLong
      else if (Assoc.get? es n).isSome then follow t (at' ++ [n]) rest
      else .error .notFound
    | some (file _) => .error .notDirectory
    | none => .error .notFound

end FileTree

/-- A file tree and the working directory, given by the names that lead to it. -/
structure Disk where
  tree : FileTree
  here : List FileName
deriving Inhabited

namespace Disk

/-- Where a path starts. -/
def start (d : Disk) (p : Path) : List FileName := if p.anchor = .relative then d.here else []

/-- The place of what a path leads to. -/
def place (d : Disk) (p : Path) : Except FileFaultKind (List FileName) :=
  match p.fault? with
  | some k => .error k
  | none => d.tree.follow (d.start p) p.names

/-- What a path leads to. -/
def find (d : Disk) (p : Path) : Except FileFaultKind FileTree :=
  match d.place p with
  | .error k => .error k
  | .ok names =>
    match d.tree.get? names with
    | some t => .ok t
    | none => .error .notFound

/-- The path leads to a directory.  Only a name or a path that is too long is an error. -/
def isDirectory (d : Disk) (p : Path) : Except FileFault Bool :=
  match d.find p with
  | .ok t => .ok t.isDirectory
  | .error .nameTooLong => .error ⟨.nameTooLong, p⟩
  | .error _ => .ok false

/-- The path leads to a file.  Only a name or a path that is too long is an error. -/
def isFile (d : Disk) (p : Path) : Except FileFault Bool :=
  match d.find p with
  | .ok t => .ok !t.isDirectory
  | .error .nameTooLong => .error ⟨.nameTooLong, p⟩
  | .error _ => .ok false

/-- The bytes of a file. -/
def readBytes (d : Disk) (p : Path) : Except FileFault (List UInt8) :=
  match d.find p with
  | .ok (.file bytes) => .ok bytes
  | .ok (.directory _) => .error ⟨.isDirectory, p⟩
  | .error k => .error ⟨k, p⟩

/-- The place that a new entry would take: its directory has to be there. -/
def newPlace (d : Disk) (p : Path) : Except FileFaultKind (List FileName) :=
  match p.fault? with
  | some k => .error k
  | none =>
    match p.names.getLast? with
    | none => .ok (d.start p)
    | some n =>
      match d.tree.follow (d.start p) p.names.dropLast with
      | .error k => .error k
      | .ok above =>
        match d.tree.get? above with
        | some (.directory _) =>
          if n = Path.up then .ok above.dropLast
          else if (Utf8.encode n).length > FileTree.maxNameBytes then .error .nameTooLong
          else .ok (above ++ [n])
        | some (.file _) => .error .notDirectory
        | none => .error .notFound

/-- Makes one directory. -/
def makeDirectory (d : Disk) (p : Path) : Except FileFault Unit × Disk :=
  match d.newPlace p with
  | .error k => (.error ⟨k, p⟩, d)
  | .ok names =>
    match d.tree.get? names with
    | some _ => (.error ⟨.present, p⟩, d)
    | none => (.ok (), { d with tree := d.tree.put names (.directory []) })

/-- Makes one directory unless it is there already. -/
def ensureDirectory (d : Disk) (p : Path) : Except FileFault Unit × Disk :=
  match d.makeDirectory p with
  | (.ok (), d) => (.ok (), d)
  | (.error f, d) =>
    if f.kind = .notFound || f.kind = .nullCharacter then (.error f, d)
    else
      match d.isDirectory p with
      | .ok true => (.ok (), d)
      | .ok false => (.error f, d)
      | .error g => (.error g, d)

/-- Makes a directory and those above it, as far as they are missing; `room` bounds the number of
directories above. -/
def ensureDirectoriesWithin : Nat → Disk → Path → Except FileFault Unit × Disk
  | 0, d, p => d.ensureDirectory p
  | room + 1, d, p =>
    match d.ensureDirectory p with
    | (.ok (), d) => (.ok (), d)
    | (.error f, d) =>
      if f.kind = .notFound && !p.names.isEmpty then
        match ensureDirectoriesWithin room d p.parent with
        | (.ok (), d) => d.ensureDirectory p
        | (.error g, d) => (.error g, d)
      else (.error f, d)

/-- Makes a directory and those above it, as far as they are missing. -/
def ensureDirectories (d : Disk) (p : Path) : Except FileFault Unit × Disk :=
  ensureDirectoriesWithin p.names.length d p

/-- Writes the bytes of a file, which is made if it is missing. -/
def writeBytes (d : Disk) (p : Path) (bytes : List UInt8) : Except FileFault Unit × Disk :=
  match d.newPlace p with
  | .error k => (.error ⟨k, p⟩, d)
  | .ok names =>
    match d.tree.get? names with
    | some (.directory _) => (.error ⟨.isDirectory, p⟩, d)
    | _ => (.ok (), { d with tree := d.tree.put names (.file bytes) })

end Disk

/-- Why a file gives no text. -/
inductive ReadFault where
  | unreachable (fault : FileFault)
  | notText (fault : Utf8.Fault)
deriving DecidableEq, Repr

/-- The words for a failed reading. -/
def ReadFault.message : ReadFault → List Char
  | unreachable f => f.message
  | notText f => f.message.toList

/-- The text of a file, with plain line ends. -/
def Disk.readText (d : Disk) (p : Path) : Except ReadFault (List Char) :=
  match d.readBytes p with
  | .error f => .error (.unreachable f)
  | .ok bytes =>
    match Utf8.decode bytes with
    | .error f => .error (.notText f)
    | .ok s => .ok (plainLines s)

end RouteScribe
