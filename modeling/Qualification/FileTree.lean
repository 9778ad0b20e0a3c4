import Qualification.Text.Cut
import Qualification.Text.Utf8
/-!
# File trees

A tree of directories and files, each under the list of names that leads to it from the root.

* `FileTree.resolve?` finds the place of a path text, from a working directory;
* `FileTree.read?`, `write?`, `makeDirs?`, `children`, `remove`.
-/

namespace Qualification

/-- The names that lead to a place. -/
abbrev Place := List String

/-- What stands at a place. -/
inductive FileEntry where
  | directory
  | file (bytes : ByteArray)

/-- Directories and files by place; the root is always a directory. -/
structure FileTree where
  entries : List (Place × FileEntry)

namespace Path

/-- The names in a path text. -/
def names (path : String) : List String :=
  (Text.splitOn '/' path).filter fun n => n != "" && n != "."

def isAbsolute (path : String) : Bool := Text.startsWith path "/"

/-- A path below another one; an absolute path stands for itself. -/
def join (base path : String) : String :=
  if isAbsolute path then path
  else if base.isEmpty || Text.endsWith base "/" then base ++ path
  else base ++ "/" ++ path

/-- The absolute path of a place. -/
def ofPlace (p : Place) : String := "/" ++ Text.joinWith "/" p

/-- A file name without its extension: what stands before the last point, unless that begins it. -/
def stem (name : String) : String :=
  let cs := name.toList
  match Text.cutAt? (· == '.') cs.reverse with
  | some (_, front) => if front.isEmpty then name else String.ofList front.reverse
  | none => name

/-- Whether a list of names comes before another one. -/
def before : List String → List String → Bool
  | [], [] => false
  | [], _ :: _ => true
  | _ :: _, [] => false
  | a :: as, b :: bs => a < b || (a == b && before as bs)

end Path

namespace FileTree

def empty : FileTree := ⟨[]⟩

instance : Inhabited FileTree := ⟨empty⟩

/-- What stands at a place. -/
def entry? (t : FileTree) (p : Place) : Option FileEntry :=
  if p.isEmpty then some .directory else t.entries.lookup p

def isDirectory (t : FileTree) (p : Place) : Bool :=
  match t.entry? p with
  | some .directory => true
  | _ => false

def isFile (t : FileTree) (p : Place) : Bool :=
  match t.entry? p with
  | some (.file _) => true
  | _ => false

def read? (t : FileTree) (p : Place) : Option ByteArray :=
  match t.entry? p with
  | some (.file b) => some b
  | _ => none

/-- Follows names from a directory; only the last one need not exist. -/
def follow? (t : FileTree) : (at_ : Place) → List String → Option Place
  | p, [] => some p
  | p, ".." :: rest => if t.isDirectory p then t.follow? p.dropLast rest else none
  | p, n :: rest => if t.isDirectory p then t.follow? (p ++ [n]) rest else none

/-- The place of a path text, from a working directory; an empty path has none. -/
def resolve? (t : FileTree) (cwd : Place) (path : String) : Option Place :=
  if path.isEmpty then none
  else
    match t.follow? (if Path.isAbsolute path then [] else cwd) (Path.names path) with
    | some p =>
      -- a path with a slash at its end means a directory
      if (Text.endsWith path "/" || Text.endsWith path "/.") && t.isFile p then none else some p
    | none => none

/-- Puts something at a place. -/
def put (t : FileTree) (p : Place) (e : FileEntry) : FileTree :=
  ⟨(t.entries.filter fun x => x.1 != p) ++ [(p, e)]⟩

/-- Makes a directory and those around it; none of them may be a file. -/
def makeDirsFrom? (t : FileTree) (at_ : Place) : List String → Option FileTree
  | [] => some t
  | ".." :: rest => t.makeDirsFrom? at_.dropLast rest
  | n :: rest =>
    let p := at_ ++ [n]
    match t.entry? p with
    | some .directory => t.makeDirsFrom? p rest
    | some (.file _) => none
    | none => (t.put p .directory).makeDirsFrom? p rest

/-- Makes the directory of a path text, from a working directory, and those around it. -/
def makeDirs? (t : FileTree) (cwd : Place) (path : String) : Option FileTree :=
  if path.isEmpty then some t
  else t.makeDirsFrom? (if Path.isAbsolute path then [] else cwd) (Path.names path)

/-- Writes a file into a directory that exists. -/
def write? (t : FileTree) (p : Place) (bytes : ByteArray) : Option FileTree :=
  if p.isEmpty || t.isDirectory p || !t.isDirectory p.dropLast then none
  else some (t.put p (.file bytes))

/-- Writes at the end of a file, which may be new. -/
def append? (t : FileTree) (p : Place) (bytes : ByteArray) : Option FileTree :=
  t.write? p (((t.read? p).getD ByteArray.empty) ++ bytes)

/-- Everything at and below a place is gone. -/
def remove (t : FileTree) (p : Place) : FileTree :=
  ⟨t.entries.filter fun x => !(p.isPrefixOf x.1)⟩

/-- The names in a directory, in the order in which they were made. -/
def children (t : FileTree) (p : Place) : List String :=
  t.entries.filterMap fun x => if x.1.dropLast == p && !x.1.isEmpty then x.1.getLast? else none

/-- The files at or below a directory. -/
def filesBelow (t : FileTree) (p : Place) : List Place :=
  t.entries.filterMap fun x => match x.2 with
    | .file _ => if p.isPrefixOf x.1 then some x.1 else none
    | .directory => none

/-- A tree of file names and contents below a place; a name with a slash at its end is a directory. -/
def addFiles (t : FileTree) (base : Place) : List (String × ByteArray) → FileTree
  | [] => t
  | (name, bytes) :: rest =>
    let p := base ++ Path.names name
    let t :=
      if Text.endsWith name "/" then (t.makeDirsFrom? [] p).getD t
      else ((t.makeDirsFrom? [] p.dropLast).bind fun t => t.write? p bytes).getD t
    t.addFiles base rest

end FileTree

end Qualification
