import RawHtmlLint.Path
import RawHtmlLint.Text.Quoted
import RawHtmlLint.Text.Utf8

/-!
# File trees

Model of `collect_files`, of `SourceFile.from_file`, and of what both ask of the files: where a path
leads, what is below a directory, and what a file holds. A file tree is a directory, the root, with
a working directory somewhere in it; there are no links. Directories list their entries in any
order, each under a name of its own.

A path is walked name by name, from the root if it is absolute and from the working directory
otherwise: only a directory leads on, and `..` leads back from it, but not out of the root. Files
are read as UTF-8 text in which every line ends with a line feed.

To collect the files below a directory, all that is below it is listed, directory by directory;
what is no file or has another suffix is left out, and the rest is sorted by the parts of the paths,
so `a/x` comes before `a-b/x` and that before `a.svelte`.
-/

namespace RawHtmlLint

/-- Why something cannot be read. -/
inductive ReadFault where
  | missing
  /-- The path leads on from a file. -/
  | notDirectory
  | isDirectory
  /-- The content is not UTF-8. -/
  | undecodable (fault : Text.Utf8.Fault)

namespace ReadFault

/-- What is told of bytes that are not UTF-8. -/
def undecodableText (f : Text.Utf8.Fault) : String :=
  let place :=
    if f.start + 1 = f.stop then
      "byte 0x" ++ String.ofList (Text.hexDigits 2 f.first.toNat) ++ " in position " ++
        toString f.start
    else "bytes in position " ++ toString f.start ++ "-" ++ toString (f.stop - 1)
  let reason := match f.reason with
    | .invalidStart => "invalid start byte"
    | .invalidContinuation => "invalid continuation byte"
    | .unexpectedEnd => "unexpected end of data"
  "'utf-8' codec can't decode " ++ place ++ ": " ++ reason

/-- What the user reads of a fault at a path. -/
def text (path : String) : ReadFault → String
  | .missing => systemText 2 "No such file or directory"
  | .notDirectory => systemText 20 "Not a directory"
  | .isDirectory => systemText 21 "Is a directory"
  | .undecodable f => undecodableText f
where
  /-- The number and the meaning of an error of the system. -/
  systemText (number : Nat) (meaning : String) : String :=
    "[Errno " ++ toString number ++ "] " ++ meaning ++ ": " ++
      String.ofList (Text.quoted path.toList)

end ReadFault

/-- The text with every line end as a line feed: a carriage return, or one and a line feed,
ends a line as well. -/
def unifiedLines : List Char → List Char
  | [] => []
  | '\r' :: '\n' :: rest => '\n' :: unifiedLines rest
  | c :: rest => (if c = '\r' then '\n' else c) :: unifiedLines rest

/-! ## Files and directories -/

/-- A file or a directory, with its name. -/
inductive FileNode where
  | file (name : String) (content : ByteArray)
  | directory (name : String) (entries : List FileNode)

/-- A name that an entry of a directory can have. -/
def isFileName (name : String) : Bool :=
  Path.isName name && name ≠ ".." && !name.toList.any fun c => c = '/' || c = '\x00'

namespace FileNode

def name : FileNode → String
  | .file name _ | .directory name _ => name

/-- The entries of a directory; a file has none. -/
def entries : FileNode → List FileNode
  | .file .. => []
  | .directory _ entries => entries

def isFile : FileNode → Bool
  | .file .. => true
  | .directory .. => false

def isDirectory : FileNode → Bool
  | .file .. => false
  | .directory .. => true

/-- The entry with the name. -/
def child? (n : FileNode) (name : String) : Option FileNode := n.entries.find? (·.name == name)

/-- What the names lead to, one after the other, each to an entry of the last. -/
def at? (n : FileNode) : List String → Option FileNode
  | [] => some n
  | name :: names => (n.child? name).bind (·.at? names)

mutual

/-- All that is below, by the names that lead to it: the entries of a directory, and then what is
below each of them. -/
def descendants : FileNode → List (List String)
  | .file .. => []
  | .directory _ entries => entries.map ([·.name]) ++ descendantsAmong entries

/-- What is below the entries. -/
def descendantsAmong : List FileNode → List (List String)
  | [] => []
  | n :: entries => n.descendants.map (n.name :: ·) ++ descendantsAmong entries

end

/-- Below the node, every name is one that an entry can have, and no two entries of a directory
have the same. -/
inductive Proper : FileNode → Prop
  | file (name : String) (content : ByteArray) : Proper (.file name content)
  | directory (name : String) {entries : List FileNode}
      (names : ∀ e ∈ entries, isFileName e.name = true) (distinct : (entries.map (·.name)).Nodup)
      (proper : ∀ e ∈ entries, e.Proper) : Proper (.directory name entries)

end FileNode

/-- A root directory and, by the names that lead to it, the working directory. -/
structure FileTree where
  root : FileNode
  working : List String
  proper : root.Proper
  present : (root.at? working).any (·.isDirectory) = true

/-- A place on the way: what is there, and the directories above it, the nearest one first. -/
structure Spot where
  here : FileNode
  above : List FileNode

namespace Spot

/-- The directory above; the root is above itself. -/
def parent (p : Spot) : Spot :=
  match p.above with
  | [] => p
  | d :: above => ⟨d, above⟩

/-- One step on. -/
def step (p : Spot) (name : String) : Except ReadFault Spot :=
  match p.here with
  | .file .. => .error .notDirectory
  | .directory .. =>
    if name = ".." then .ok p.parent
    else match p.here.child? name with
      | some n => .ok ⟨n, p.here :: p.above⟩
      | none => .error .missing

end Spot

namespace FileTree

/-- The names that lead from the root to where the walk along a path starts. -/
def start (t : FileTree) (path : Path) : List String := if path.isAbsolute then [] else t.working

/-- What a path leads to. -/
def find (t : FileTree) (path : Path) : Except ReadFault FileNode := do
  let spot ← (t.start path ++ path.names).foldlM Spot.step ⟨t.root, []⟩
  return spot.here

/-- What a path leads to, if it leads to something. -/
def node? (t : FileTree) (path : Path) : Option FileNode := (t.find path).toOption

/-- The path leads to a file. -/
def isFile (t : FileTree) (path : Path) : Bool := (t.node? path).any (·.isFile)

/-- The path leads to a directory. -/
def isDirectory (t : FileTree) (path : Path) : Bool := (t.node? path).any (·.isDirectory)

/-- The text of a file. -/
def read (t : FileTree) (path : Path) : Except ReadFault (List Char) := do
  match ← t.find path with
  | .directory .. => .error .isDirectory
  | .file _ content =>
    match Text.Utf8.decode content with
    | .ok text => return unifiedLines text
    | .error fault => .error (.undecodable fault)

/-- The paths to all that is below a path. -/
def pathsBelow (t : FileTree) (path : Path) : List Path :=
  match t.node? path with
  | some n => n.descendants.map path.append
  | none => []

/-- The files that one argument stands for: those below a directory whose suffix is among the
extensions, sorted by the parts of their paths, or the path itself. -/
def expand (t : FileTree) (extensions : List String) (path : Path) : List Path :=
  if t.isDirectory path then
    Path.sort <| (t.pathsBelow path).filter fun p => t.isFile p && extensions.contains p.suffix
  else [path]

/-- The files that the arguments stand for, in their order. -/
def collect (t : FileTree) (extensions : List String) (paths : List Path) : List Path :=
  paths.flatMap (t.expand extensions)

end FileTree

end RawHtmlLint
