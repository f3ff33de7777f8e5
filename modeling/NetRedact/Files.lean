import NetRedact.Table

/-!
# Files and directories

The part of a file system that start-up reads and changes: a tree of directories that hold files.  A
place in the tree is the list of names that lead to it from the root, last name first, and a path is
a text that is followed name by name, from the root or from the directory one works in.
-/

namespace NetRedact

/-- Why a file or a directory cannot be used. -/
inductive FileError where
  | notFound
  | alreadyExists
  | notDirectory
  | isDirectory
  | notText
  deriving DecidableEq, Repr

/-- The text of an error. -/
def FileError.message : FileError → String
  | .notFound => "No such file or directory (os error 2)"
  | .alreadyExists => "File exists (os error 17)"
  | .notDirectory => "Not a directory (os error 20)"
  | .isDirectory => "Is a directory (os error 21)"
  | .notText => "stream did not contain valid UTF-8"

/-- What there is at a place. -/
inductive FileEntry where
  | directory
  | file (content : List UInt8)
  deriving DecidableEq

/-- A place in a tree: the names that lead to it, last name first. -/
abbrev Place := List String

/-- A file system.  The root is a directory whether it has an entry or not. -/
structure FileTree where
  entries : Table Place FileEntry

instance : Inhabited FileTree := ⟨⟨.empty⟩⟩

namespace FileTree

/-- What there is at a place, if anything. -/
def entry? (t : FileTree) (place : Place) : Option FileEntry :=
  match place with
  | [] => some .directory
  | place => t.entries.find? place

/-- The tree with something at a place. -/
def insert (t : FileTree) (place : Place) (entry : FileEntry) : FileTree :=
  ⟨t.entries.insert place entry⟩

/-- The place that a name leads to from a directory. -/
def enter (place : Place) (name : String) : Place :=
  if name = "" ∨ name = "." then place
  else if name = ".." then place.tail
  else name :: place

/-- The place where names lead to.  All places on the way must be directories; the last one need not
be there. -/
def follow (t : FileTree) (place : Place) : List String → Except FileError Place
  | [] => .ok place
  | name :: rest =>
    match t.entry? place with
    | some .directory => t.follow (enter place name) rest
    | some (.file _) => .error .notDirectory
    | none => .error .notFound

/-- The names in a path. -/
def names (path : String) : List String :=
  path.splitOn "/"

/-- The place where a path starts: the root for a path that begins with a slash. -/
def origin (working : Place) (path : String) : Place :=
  if path.startsWith "/" then [] else working

/-- The content of the file at a path.  The empty path leads nowhere. -/
def read (t : FileTree) (working : Place) (path : String) : Except FileError (List UInt8) :=
  if path.isEmpty then .error .notFound
  else match t.follow (origin working path) (names path) with
    | .error e => .error e
    | .ok place =>
      match t.entry? place with
      | none => .error .notFound
      | some .directory => .error .isDirectory
      | some (.file content) => .ok content

/-- Makes a directory at a place unless it is there. -/
def makeDirectory (t : FileTree) (place : Place) : Except FileError FileTree :=
  match t.entry? place with
  | none => .ok (t.insert place .directory)
  | some .directory => .ok t
  | some (.file _) => .error .alreadyExists

/-- Makes the directories on a way that are not there.  A file at the end of the way is in the place
of the directory, and a file before that cannot be passed.  What is made stays even if a later step
fails. -/
def makeDirectories (t : FileTree) (place : Place) : List String → Except FileError Place × FileTree
  | [] => (.ok place, t)
  | name :: rest =>
    let next := enter place name
    match t.makeDirectory next with
    | .ok t => t.makeDirectories next rest
    | .error e => (.error (if rest.all (· = "") then e else .notDirectory), t)

/-- The names in a directory. -/
def children (t : FileTree) (place : Place) : List String :=
  t.entries.entries.filterMap fun (other, _) =>
    match other with
    | [] => none
    | name :: parent => if parent = place then some name else none

/-- Whether there is a directory at a path. -/
def isDirectory (t : FileTree) (working : Place) (path : String) : Bool :=
  match t.follow (origin working path) (names path) with
  | .ok place => t.entry? place = some .directory
  | .error _ => false

end FileTree

end NetRedact
