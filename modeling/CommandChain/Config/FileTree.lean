import CommandChain.OrderedMap

/-!
Files and directories by path. The names of a path are taken one after the other, each in the
directory that the names before it lead to: a dot stays there, two dots lead out of it. A path with
a slash behind its last name leads to a directory or nowhere. A path that is too long, has a name
too long or has a null character in it leads nowhere.
-/
namespace CommandChain

inductive FileEntry where
  | directory
  /-- The content, unless it is no text. -/
  | file (text : Option String)
  deriving DecidableEq, Repr

/-- Entries under their names from the outermost in. The directory that relative paths start in has
no name, and the root has a slash for one; both are always there. -/
abbrev FileTree := OrderedMap (List String) FileEntry

namespace FileTree

def entry? (tree : FileTree) (place : List String) : Option FileEntry :=
  if place = [] ∨ place = ["/"] then some .directory else OrderedMap.find? tree place

def isDirectory (tree : FileTree) (place : List String) : Bool :=
  tree.entry? place = some .directory

/-- The names of a path, with empty ones between slashes that follow each other. An absolute path
starts with the name of the root. -/
def names (path : String) : List String :=
  match path.splitOn "/" with
  | "" :: rest => "/" :: rest
  | parts => parts

def maxPathBytes : Nat := 4095

def maxNameBytes : Nat := 255

/-- Whether a path can lead anywhere. -/
def isUsable (path : String) : Bool :=
  !path.toList.contains '\x00' && path.utf8ByteSize ≤ maxPathBytes &&
    (names path).all fun name => name.utf8ByteSize ≤ maxNameBytes

def walk? (tree : FileTree) : List String → List String → Option (List String)
  | place, [] => some place
  | place, name :: rest =>
    if !tree.isDirectory place then none
    else if name = "" ∨ name = "." then walk? tree place rest
    else if name = ".." then walk? tree place.dropLast rest
    else walk? tree (place ++ [name]) rest

/-- The place that a path leads to. Only the last name of it may be missing. -/
def place? (tree : FileTree) (path : String) : Option (List String) :=
  if path = "" ∨ !isUsable path then none else tree.walk? [] (names path)

def lookup? (tree : FileTree) (path : String) : Option FileEntry :=
  (tree.place? path).bind tree.entry?

def isPresent (tree : FileTree) (path : String) : Bool := (tree.lookup? path).isSome

def readText? (tree : FileTree) (path : String) : Option String :=
  match tree.lookup? path with
  | some (.file text) => text
  | _ => none

/-- Makes the directories that names lead through, where they are missing. -/
def makeFrom? (tree : FileTree) : List String → List String → Option FileTree
  | place, [] => if tree.isDirectory place then some tree else none
  | place, name :: rest =>
    if !tree.isDirectory place then none
    else if name = "" ∨ name = "." then makeFrom? tree place rest
    else if name = ".." then makeFrom? tree place.dropLast rest
    else match tree.entry? (place ++ [name]) with
      | some _ => makeFrom? tree (place ++ [name]) rest
      | none => makeFrom? (tree ++ [(place ++ [name], .directory)]) (place ++ [name]) rest

def makeDirectories? (tree : FileTree) (path : String) : Option FileTree :=
  if path = "" then some tree
  else if isUsable path then tree.makeFrom? [] (names path)
  else none

/-- Writes a file into a directory that is there. -/
def write? (tree : FileTree) (path text : String) : Option FileTree :=
  if path.endsWith "/" then none
  else match tree.place? path with
    | none => none
    | some place =>
      if tree.isDirectory place then none
      else some (OrderedMap.insert tree place (.file (some text)))

/-- Without the slashes and dots at the end that lead nowhere. -/
def trimNames (reversed : List String) : List String :=
  reversed.dropWhile fun name => name = "" || name = "."

/-- The path of the directory that a path's last name lies in, if the path has a name. -/
def parent? (path : String) : Option String :=
  match trimNames (path.splitOn "/").reverse with
  | [] => none
  | _ :: outer =>
    some (match trimNames outer with
      | [] => if path.startsWith "/" then "/" else ""
      | rest => "/".intercalate rest.reverse)

/-- Puts a directory, or a file with the content, where a path leads; what it lies in is made. -/
def put (tree : FileTree) (path : String) (entry : FileEntry) : FileTree :=
  let made := (match entry with
    | .directory => tree.makeDirectories? path
    | .file _ => (parent? path).bind tree.makeDirectories?).getD tree
  match entry, made.place? path with
  | .file text, some place => OrderedMap.insert made place (.file text)
  | _, _ => made

end FileTree
end CommandChain
