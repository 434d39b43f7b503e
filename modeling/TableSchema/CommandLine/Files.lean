import TableSchema.CommandLine.Host
import TableSchema.Text.Split

/-!
# File systems as values

A tree of folders and files with a working folder in it. Paths are resolved from the working folder
one name at a time, and a run against the tree leaves a changed tree.
-/

namespace TableSchema.CommandLine

inductive Node where
  | file (content : ByteArray)
  | folder (entries : List (String × Node))

namespace Node

def empty : Node := folder []

def child? (node : Node) (name : String) : Option Node :=
  match node with
  | folder entries => entries.lookup name
  | file _ => none

def isFolder : Node → Bool
  | folder _ => true
  | file _ => false

def at? (node : Node) : List String → Option Node
  | [] => some node
  | name :: names => (node.child? name).bind (·.at? names)

/-- Entries with one put in or exchanged. -/
def putEntry (name : String) (node : Node) : List (String × Node) → List (String × Node)
  | [] => [(name, node)]
  | entry :: rest =>
    if entry.1 = name then (name, node) :: rest else entry :: putEntry name node rest

/-- Puts a node at a place, making the folders on the way to it. -/
def put (node : Node) (place : List String) (new : Node) : Node :=
  match place with
  | [] => new
  | name :: names =>
    let entries := match node with
      | folder entries => entries
      | file _ => []
    folder (putEntry name (((node.child? name).getD empty).put names new) entries)

mutual

/-- The files of a tree with the places where they are. -/
def files (place : List String) : Node → List (List String × ByteArray)
  | file content => [(place, content)]
  | folder entries => filesOf place entries

def filesOf (place : List String) : List (String × Node) → List (List String × ByteArray)
  | [] => []
  | (name, node) :: rest => files (place ++ [name]) node ++ filesOf place rest

end

end Node

structure FileSystem where
  root : Node
  /-- The place of the working folder. -/
  here : List String

namespace FileSystem

/-- The longest name and the longest path, in bytes. -/
def maxName : Nat := 255
def maxPath : Nat := 4095

def isFolderAt (files : FileSystem) (place : List String) : Bool :=
  (files.root.at? place).any (·.isFolder)

/-- Follows the names of a path from a place. -/
def walk (files : FileSystem) (place : List String) : List String → Except SystemError (List String)
  | [] => .ok place
  | name :: names =>
    if !files.isFolderAt place then .error .notDirectory
    else if name = "" ∨ name = "." then files.walk place names
    else if name = ".." then files.walk place.dropLast names
    else if name.utf8ByteSize > maxName then .error .nameTooLong
    else if (files.root.at? (place ++ [name])).isSome then files.walk (place ++ [name]) names
    else .error .notFound

def namesOf (path : String) : List String :=
  (Text.splitAt '/' path.toList).map String.ofList

/-- Where a path starts: at the root if it begins with a slash. -/
def startOf (files : FileSystem) (path : String) : List String :=
  if path.toList.head? = some '/' then [] else files.here

def readFile (files : FileSystem) (path : String) : Except SystemError ByteArray := do
  if path.utf8ByteSize > maxPath then throw .nameTooLong
  let place ← files.walk (files.startOf path) (namesOf path)
  match files.root.at? place with
  | some (.file content) => return content
  | some (.folder _) => throw .isDirectory
  | none => throw .notFound

/-- The place of the file that a path opens for writing, whether there is one or not. A path that
ends in a slash or in dots names a folder. -/
def openAt (files : FileSystem) (path : String) : Except SystemError (List String) := do
  if path.utf8ByteSize > maxPath then throw .nameTooLong
  let names := namesOf path
  let before := (names.reverse.dropWhile (· = "")).reverse
  let folder ← files.walk (files.startOf path) before.dropLast
  let name := before.getLastD ""
  if !files.isFolderAt folder then throw .notDirectory
  if before.length < names.length ∨ name = "" ∨ name = "." ∨ name = ".." then throw .isDirectory
  if name.utf8ByteSize > maxName then throw .nameTooLong
  if files.isFolderAt (folder ++ [name]) then throw .isDirectory
  return folder ++ [name]

/-- The file system with some content in the file at a place. -/
def putFile (files : FileSystem) (place : List String) (content : ByteArray) : FileSystem :=
  { files with root := files.root.put place (.file content) }

/-- Writes a file on a device that has room for a number of bytes, or for all of them. To open the
file loses what was in it, so when the room runs out the file holds a beginning of the content. -/
def writeFile (files : FileSystem) (room : Option Nat) (path : String) (content : ByteArray) :
    Except SystemError Unit × FileSystem :=
  match files.openAt path with
  | .error e => (.error e, files)
  | .ok place =>
    match room with
    | none => (.ok (), files.putFile place content)
    | some room =>
      if content.size ≤ room then (.ok (), files.putFile place content)
      else (.error .noSpace, files.putFile place (content.extract 0 room))

/-- A file system whose working folder holds the given files. -/
def ofFiles (contents : List (String × ByteArray)) : FileSystem :=
  let here := ["home", "work"]
  let root := contents.foldl
    (fun root (name, content) => root.put (here ++ namesOf name) (.file content))
    (Node.empty.put here .empty)
  { root, here }

/-- The files below the working folder, by their paths from there. -/
def toFiles (files : FileSystem) : List (String × ByteArray) :=
  (((files.root.at? files.here).getD .empty).files []).map fun (place, content) =>
    ("/".intercalate place, content)

/-- The files below the working folder that are new or have changed since `before`. -/
def written (before after : FileSystem) : List (String × ByteArray) :=
  after.toFiles.filter fun (path, content) => before.toFiles.lookup path != some content

/-- The file system as what a run reads and writes, with the bytes of the input and the room that is
left for the file it writes. -/
def hostWithin (room : Option Nat) (input : ByteArray) : Host (StateM FileSystem) where
  readFile path := do return (← get).readFile path
  readInput := return .ok input
  writeFile path content := do
    let (result, files) := (← get).writeFile room path content.toUTF8
    set files
    return result

/-- The file system with room for everything that is written. -/
def host (input : ByteArray) : Host (StateM FileSystem) := hostWithin none input

end FileSystem

end TableSchema.CommandLine
