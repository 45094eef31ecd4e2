import RouteScribe.Files.Disk
import RouteScribe.Text.Order

/-!
# Finding route files

A route file is a file whose name begins with `route` and a point and is `route` when its ending is
cut off.  `Route.locate` lists the route files below a directory by their relative paths in the order
of code points.

The search goes through the directories from above.  It ends early where the system refuses the path
of a directory or of something that may be a route file, and where more directories lie in each
other than it can follow.
-/

namespace RouteScribe

namespace Route

/-- What stands before the ending of a route file. -/
def stem : List Char := "route".toList

/-- What a name begins with for a search to look at what bears it. -/
def front : List Char := stem ++ ['.']

/-- The name of a route file. -/
def isRouteFileName (name : FileName) : Bool :=
  front.isPrefixOf name && name.cut.1 == stem && !name.cut.2.isEmpty

/-- The names on the way to a file end in that of a route file. -/
def isRouteFile (names : List FileName) : Bool := names.getLast?.any isRouteFileName

/-- The relative paths of the route files of a tree, in order. -/
def filesOf (t : FileTree) : List (List Char) :=
  ((t.files.filter fun f => isRouteFile f.1).map fun f => joined ['/'] f.1).mergeSort
    fun a b => textLe a b

/-! ### What ends a search -/

/-- Why a search ends before the whole tree has been seen. -/
inductive SearchFault where
  /-- The system refuses a path. -/
  | refused (fault : FileFault)
  /-- Too many directories lie in each other. -/
  | tooDeep
deriving DecidableEq, Repr

/-- What is wrong with the path of an entry that the search looks at. -/
def entryFault? (p : Path) (n : FileName) : Option SearchFault :=
  if front.isPrefixOf n then (p.below [n]).fault?.map fun k => .refused ⟨k, p.below [n]⟩ else none

mutual

/-- What ends a search through what stands at a path, where the search can go down so many levels
more.  A directory is listed, then the entries that may be route files are looked at, then the
directories in it are searched in turn. -/
def searchFault? (room : Nat) (p : Path) : FileTree → Option SearchFault
  | .file _ => none
  | .directory es =>
    match p.fault? with
    | some k => some (.refused ⟨k, p⟩)
    | none =>
      match es.findSome? fun e => entryFault? p e.1 with
      | some fault => some fault
      | none =>
        match room with
        | 0 => some .tooDeep
        | room + 1 => searchFaultIn? room p es

/-- What ends a search through the entries of a directory. -/
def searchFaultIn? (room : Nat) (p : Path) : List (FileName × FileTree) → Option SearchFault
  | [] => none
  | (n, t) :: rest =>
    match searchFault? room (p.below [n]) t with
    | some fault => some fault
    | none => searchFaultIn? room p rest

end

/-! ### The search -/

/-- Why no route files are found. -/
inductive DiscoveryError where
  | notDirectory (path : Path)
  /-- The search through a directory meets a fault. -/
  | unreadable (path : Path) (fault : FileFault)
  /-- The system cannot tell whether there is a directory. -/
  | unreachable (fault : FileFault)
  | tooDeep
deriving DecidableEq, Repr

/-- The words for a failed search. -/
def DiscoveryError.message : DiscoveryError → List Char
  | notDirectory path =>
    "Route directory \"".toList ++ path.shown ++ "\" does not exist or is not a directory".toList
  | unreadable path fault =>
    "Cannot read route directory \"".toList ++ path.shown ++ "\": ".toList ++ fault.message
  | unreachable fault => fault.message
  | tooDeep => "maximum recursion depth exceeded".toList

/-- Why nothing is found below a directory where the search meets a fault. -/
def DiscoveryError.ofFault (root : Path) : SearchFault → DiscoveryError
  | .refused fault => .unreadable root fault
  | .tooDeep => .tooDeep

/-- The route files below a directory, found by a search that can go down so many levels. -/
def locate (room : Nat) (d : Disk) (root : Path) : Except DiscoveryError (List (List Char)) :=
  match d.isDirectory root with
  | .error f => .error (.unreachable f)
  | .ok false => .error (.notDirectory root)
  | .ok true =>
    match d.find root with
    | .error _ => .error (.notDirectory root)
    | .ok t =>
      match searchFault? room root t with
      | some fault => .error (.ofFault root fault)
      | none => .ok (filesOf t)

end Route

end RouteScribe
