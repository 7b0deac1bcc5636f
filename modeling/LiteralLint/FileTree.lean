import LiteralLint.Failure
import LiteralLint.Text.Utf8

/-! # File Trees

  Files and directories by place, and the path lookup that finds the bytes of
  a file. A place is the list of names that leads to it from the root; paths
  are byte strings, as are names.

  A lookup goes through a path from left to right:

  - It starts at the root if the path begins with a slash, and at the working
    directory otherwise.
  - The parts between slashes are taken in turn, and for each of them, the
    empty one included, the place reached so far must be a directory. So a
    slash after the name of a file is an error.
  - An empty part and the part `.` stay, the part `..` goes to the parent, and
    any other part is a name that must exist there.

  A path that puts something into a tree leads the same way, and makes
  directories where it comes through: also of the places that a later `..`
  leaves again, since a path can only leave a place that exists.
-/

namespace LiteralLint

/-- What a place holds. -/
inductive Entry
  | directory
  | file (content : Bytes)
  deriving DecidableEq, Repr

/-- Files and directories below a root. -/
structure FileTree where
  /-- The working directory. -/
  here : List Bytes
  /-- What the places hold; of several entries for a place the first
      counts. -/
  entries : List (List Bytes × Entry)
  deriving Repr

namespace FileTree

/-! ### Names -/

/-- The byte that separates the parts of a path. -/
def slash : UInt8 := 0x2F

/-- The part that stays where it is. -/
def dot : Bytes := [0x2E]

/-- The part that goes to the parent. -/
def dotDot : Bytes := [0x2E, 0x2E]

/-- The greatest length of a name. -/
def maxName : Nat := 255

/-- The greatest length of a path. -/
def maxPath : Nat := 4095

/-- The parts of a path between its slashes, of which `part` has been read,
    latest byte first. -/
def partsAfter (part : Bytes) : Bytes → List Bytes
  | [] => [part.reverse]
  | byte :: rest =>
    if byte = slash then part.reverse :: partsAfter [] rest
    else partsAfter (byte :: part) rest

/-- The parts of a path. -/
def parts (path : Bytes) : List Bytes := partsAfter [] path

/-- Whether a part leads to where it starts. -/
def stays (part : Bytes) : Bool := part = [] || part = dot

/-- The place that a part of a path leads to from a place, if it exists. -/
def follow (place : List Bytes) (part : Bytes) : List Bytes :=
  if stays part then place
  else if part = dotDot then place.dropLast
  else place ++ [part]

/-- The place that a path starts at. -/
def startOf (tree : FileTree) (path : Bytes) : List Bytes :=
  if path.head? = some slash then [] else tree.here

/-! ### Lookup -/

/-- What a place holds. The working directory is a directory, and so is every
    place above it. -/
def entryAt (tree : FileTree) (place : List Bytes) : Option Entry :=
  if place.isPrefixOf tree.here then some .directory else tree.entries.lookup place

/-- Go from a place, which holds `entry`, along the parts of a path. The
    answer is what the place reached holds. -/
def walk (tree : FileTree) (place : List Bytes) (entry : Entry) : List Bytes → Except Fault Entry
  | [] => .ok entry
  | part :: rest =>
    match entry with
    | .file _ => .error .notDirectory
    | .directory =>
      if stays part || part = dotDot then tree.walk (follow place part) .directory rest
      else if maxName < part.length then .error .nameTooLong
      else
        match tree.entryAt (follow place part) with
        | none => .error .notFound
        | some entry => tree.walk (follow place part) entry rest

/-- What a path names. -/
def lookup (tree : FileTree) (path : Bytes) : Except Fault Entry :=
  if path.contains 0 then .error .zeroInPath
  else if path = [] then .error .notFound
  else if maxPath < path.length then .error .nameTooLong
  else tree.walk (tree.startOf path) .directory (parts path)

/-- The bytes of the file that a path names. -/
def read (tree : FileTree) (path : Bytes) : Except Fault Bytes :=
  match tree.lookup path with
  | .ok (.file content) => .ok content
  | .ok .directory => .error .isDirectory
  | .error fault => .error fault

/-! ### Growth -/

/-- The tree with nothing in it but its working directory. -/
def empty (here : List Bytes) : FileTree := ⟨here, []⟩

/-- The places that parts of a path lead through from a place, the last one
    being the place that they lead to. -/
def placesFrom (place : List Bytes) : List Bytes → List (List Bytes)
  | [] => []
  | part :: rest => follow place part :: placesFrom (follow place part) rest

/-- Make each of some places a directory, unless it holds something
    already. -/
def addDirectories (tree : FileTree) (places : List (List Bytes)) : FileTree :=
  { tree with entries := tree.entries ++ places.map fun place => (place, .directory) }

/-- Make the directory that a path names, and those on the way to it. -/
def makeDirectory (tree : FileTree) (path : Bytes) : FileTree :=
  tree.addDirectories (placesFrom (tree.startOf path) (parts path))

/-- Write the file that a path names, and make the directories on the way to
    it. -/
def writeFile (tree : FileTree) (path content : Bytes) : FileTree :=
  let places := placesFrom (tree.startOf path) (parts path)
  let tree := tree.addDirectories places.dropLast
  { tree with entries := (places.getLastD tree.here, .file content) :: tree.entries }

/-- A place that a path has left again exists all the same. -/
example :
    ["d", "e", "d/e"].map
        (fun path => ((empty []).makeDirectory (Utf8.encode "d/../e")).entryAt
          (parts (Utf8.encode path)))
      = [some .directory, some .directory, none] := by
  decide +kernel

end FileTree

end LiteralLint
