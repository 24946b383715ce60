/-! Paths and files. A path is a list of segments; empty segments and single dots mean nothing,
while a double dot stays and is followed only when the path is looked up. -/
namespace StackCalc

/-- A path without redundant segments. -/
structure Location where
  /-- The root of an absolute path, empty for a relative one. -/
  root : String
  segments : List String
deriving DecidableEq, Repr

namespace Location

def splitSlashes : List Char → List (List Char)
  | [] => [[]]
  | c :: rest =>
    if c = '/' then [] :: splitSlashes rest
    else
      match splitSlashes rest with
      | first :: others => (c :: first) :: others
      | [] => [[c]]

/-- The root of a path: two slashes count as one of their own, any other number as one. -/
def rootOf (cs : List Char) : String :=
  match cs.takeWhile (· = '/') with
  | [] => ""
  | ['/', '/'] => "//"
  | _ => "/"

def ofPath (path : String) : Location :=
  let cs := path.toList
  let segments := (splitSlashes cs).map String.ofList
  ⟨rootOf cs, segments.filter fun s => s ≠ "" ∧ s ≠ "."⟩

/-- A location as a path; the empty relative one is a single dot. -/
def path (l : Location) : String :=
  if l.root = "" ∧ l.segments = [] then "." else l.root ++ "/".intercalate l.segments

end Location

/-- What is found at a location. -/
inductive Found where
  | nothing
  | directory
  | file (text : String)
  /-- The path, or a name in it, is longer than the system allows. -/
  | nameTooLong
deriving DecidableEq, Repr

/-- Files below a working directory. -/
structure FileTree where
  /-- The way from the root to the working directory. -/
  base : List String
  /-- Files by their paths from the working directory. -/
  files : List (String × String)
deriving Repr

namespace FileTree

def nameLimit : Nat := 255

def pathLimit : Nat := 4095

def systemDirectories : List (List String) := [
  ["bin"], ["boot"], ["dev", "pts"], ["dev", "shm"], ["etc"], ["home"], ["lib"], ["media"],
  ["mnt"], ["opt"], ["proc"], ["root"], ["run"], ["sbin"], ["srv"], ["sys"], ["tmp"],
  ["usr", "bin"], ["usr", "include"], ["usr", "lib"], ["usr", "local"], ["usr", "sbin"],
  ["usr", "share"], ["usr", "src"], ["var", "cache"], ["var", "lib"], ["var", "log"],
  ["var", "spool"], ["var", "tmp"]
]

/-- All files, by their ways from the root. Every system has an empty file as its null device. -/
def allFiles (t : FileTree) : List (List String × String) :=
  (["dev", "null"], "") ::
    t.files.map fun (path, text) => (t.base ++ (Location.ofPath path).segments, text)

/-- What is found by going down a list of segments from the root. What is on the way to a known
place is a directory. -/
def lookAt (t : FileTree) (segments : List String) : Found :=
  match t.allFiles.lookup segments with
  | some text => .file text
  | none =>
    let places := t.base :: systemDirectories ++ t.allFiles.map (·.1)
    if places.any segments.isPrefixOf then .directory else .nothing

/-- Follows segments from a directory. Only a directory can be left or searched; the directory above
the root is the root. -/
def follow (t : FileTree) (here : List String) : List String → Found
  | [] => t.lookAt here
  | segment :: rest =>
    match t.lookAt here with
    | .directory =>
      if segment = ".." then follow t here.dropLast rest
      else if nameLimit < segment.utf8ByteSize then .nameTooLong
      else follow t (here ++ [segment]) rest
    | _ => .nothing

/-- What is found at a location. A path with a zero character leads nowhere. -/
def find (t : FileTree) (l : Location) : Found :=
  if l.path.contains '\x00' then .nothing
  else if pathLimit < l.path.utf8ByteSize then .nameTooLong
  else t.follow (if l.root = "" then t.base else []) l.segments

end FileTree

end StackCalc
