import RegisterMachine.Text.Quoted

/-!
# Paths and files

Where a path leads in a tree of files.

**Rules.**
* In a path, empty parts and single dots mean nothing, and two dots mean the
  folder above.  A path that begins with a slash starts at the root; exactly two
  slashes are kept as two.
* A path is followed part by part, and only through folders that exist.  On the
  way, a part with too long a name is an obstacle of its own.
* Above the root there is the root.

**Contents.**
* `Path.ofText`, `Path.write`: a path read from its text and written plainly.
* `Found`, `FileError`: what a path can lead to, and why there may be nothing to
  read although it leads somewhere.
* `FileTree.find`: where a path leads.
-/

namespace RegisterMachine
namespace CommandLine

/-- A path: the number of slashes it is rooted by, and its parts. -/
structure Path where
  slashes : Nat
  parts : List Text
deriving DecidableEq, Repr

namespace Path

/-- The part that means the folder above. -/
def parent : Text := ['.', '.']

/-- Whether a part of a path means anything. -/
def isSignificant (part : Text) : Bool :=
  part ≠ [] && part ≠ ['.']

/-- The number of slashes that are kept of those at the front of a path. -/
def rooting (count : Nat) : Nat :=
  if count = 2 then 2 else min count 1

/-- The path that a text denotes. -/
def ofText (t : Text) : Path where
  slashes := rooting (t.takeWhile (· = '/')).length
  parts := (t.splitOn '/').filter isSignificant

/-- The plainest text of a path. -/
def write (p : Path) : Text :=
  if p.slashes = 0 ∧ p.parts = [] then ['.']
  else List.replicate p.slashes '/' ++ ['/'].intercalate p.parts

/-- The number of bytes that a text takes. -/
def bytes (t : Text) : Nat :=
  t.foldl (fun count c => count + c.utf8Size) 0

/-- The longest part that a file system takes, in bytes. -/
def maxPart : Nat := 255

/-- The longest path that a file system takes, in bytes. -/
def maxBytes : Nat := 4095

end Path

/-- What a path leads to. -/
inductive Found
  | file (content : Text)
  | folder
  | nothing
  | tooLong
deriving DecidableEq, Repr

/-- Why a path that is not simply missing has nothing to read. -/
inductive FileError
  | isFolder (path : Path)
  | nameTooLong (path : Path)
deriving DecidableEq, Repr

/-- The error in words. -/
def FileError.message : FileError → String
  | .isFolder path => s!"[Errno 21] Is a directory: {path.write.quoted.str}"
  | .nameTooLong path => s!"[Errno 36] File name too long: {path.write.quoted.str}"

/-- The content that was found under a path; `none` if there is nothing. -/
def Found.content? (path : Text) : Found → Except FileError (Option Text)
  | .file content => .ok (some content)
  | .nothing => .ok none
  | .folder => .error (.isFolder (.ofText path))
  | .tooLong => .error (.nameTooLong (.ofText path))

/-- A tree of files, each under the parts of its path from the root, with folders
that need no file to exist, and the folder that paths start from. -/
structure FileTree where
  files : List (List Text × Text) := []
  folders : List (List Text) := []
  home : List Text := []
deriving DecidableEq, Repr

namespace FileTree

/-- Whether there is a folder at a place: the root, and every place on the way to
a file, to a folder or to the starting point. -/
def hasFolder (tree : FileTree) (place : List Text) : Bool :=
  (tree.home :: tree.folders ++ tree.files.map Prod.fst).any place.isPrefixOf

/-- What there is at a place. -/
def look (tree : FileTree) (place : List Text) : Found :=
  match tree.files.lookup place with
  | some content => .file content
  | none => if tree.hasFolder place then .folder else .nothing

/-- Where the parts of a path lead from a place. -/
def walk (tree : FileTree) (place : List Text) : List Text → Found
  | [] => tree.look place
  | part :: rest =>
      match tree.look place with
      | .folder =>
          if part = Path.parent then tree.walk place.dropLast rest
          else if Path.maxPart < Path.bytes part then .tooLong
          else tree.walk (place ++ [part]) rest
      | _ => .nothing

/-- Where a path leads. -/
def follow (tree : FileTree) (p : Path) : Found :=
  if '\x00' ∈ p.write then .nothing
  else if Path.maxBytes < Path.bytes p.write then .tooLong
  else tree.walk (if p.slashes = 0 then tree.home else []) p.parts

/-- Where the path that a text denotes leads. -/
def find (tree : FileTree) (t : Text) : Found :=
  tree.follow (Path.ofText t)

end FileTree
end CommandLine
end RegisterMachine
