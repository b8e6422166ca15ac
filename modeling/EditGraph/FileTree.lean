import EditGraph.Place
import EditGraph.Workspace

/-!
# File trees

A file tree is the content of a file system: files and directories by their places. What holds
something listed is a directory, whether it is listed itself or not.

A path is followed name by name, as an operating system does it: every name but the last has
to stand for a directory, also where `..` or a slash at the end follows it. Two lengths are
limited. A name has to be one that a directory can hold, and a path has to be one that can be
handed to the operating system. A path that is opened is handed over as it is. The path of a
workspace is resolved one name after the other, and what is handed over is the path of each
place on the way. So a path of a place that is too long is found out before the directory is
looked at that would hold the place, however many slashes and `.` stand between the two.

## Main definitions

* `FileTree` — the tree.
* `FileTree.ofPaths` — the tree of files and directories below a directory.
* `FileTree.locate` — where an absolute path leads.
* `FileTree.find` — what is opened by an absolute path.
* `FileTree.workspace` — the workspace at a path.
-/

namespace EditGraph

/-- Files and directories by their places. Of several entries for one place the first counts. -/
structure FileTree where
  entries : List (Place × Entry)

/-- The greatest length of a name in bytes. -/
def maxNameBytes : Nat := 255

/-- The greatest length of a path in bytes. -/
def maxPathBytes : Nat := 4095

namespace FileTree

/-- The tree with an entry at the place that the names lead to from `place`. Every place on the
way becomes a directory, also one that is left again by `..`. -/
def add (t : FileTree) (place : Place) (entry : Entry) : List String → FileTree
  | [] => ⟨(place, entry) :: t.entries⟩
  | name :: rest =>
    add ⟨(place, .directory) :: t.entries⟩ (place.next name) entry rest

/-- The tree of entries by their paths from the directory at an absolute path. They are added
one after the other. -/
def ofPaths (directory : String) (entries : List (String × Entry)) : FileTree :=
  let base := (Path.names directory).foldl Place.next []
  entries.foldl (fun t e => t.add base e.2 (Path.names e.1)) ⟨[(base, .directory)]⟩

/-- What lies at a place. -/
def entry? (t : FileTree) (place : Place) : Option Entry :=
  match t.entries.lookup place with
  | some entry => some entry
  | none =>
    if place.isEmpty || t.entries.any (fun e => place.isPrefixOf e.1) then some .directory
    else none

/-- There is a directory at the place. -/
def isDirectory (t : FileTree) (place : Place) : Bool :=
  match t.entry? place with
  | some .directory => true
  | _ => false

/-- The place that a name leads to from `place`. A name that leads nowhere else is passed over;
for any other the path to look up has to be short enough before it matters what lies there. -/
def step (t : FileTree) (place : Place) (name : String) : Except SystemError Place :=
  let target := place.next name
  if Path.isHere name then .ok place
  else if maxPathBytes < target.path.utf8ByteSize then .error .nameTooLong
  else if !t.isDirectory place then .error .notDirectory
  else if maxNameBytes < name.utf8ByteSize then .error .nameTooLong
  else if (t.entry? target).isNone then .error .notFound
  else .ok target

/-- The place that an absolute path leads to. With a slash or `.` at its end it leads to a
directory only. -/
def locate (t : FileTree) (path : String) : Except SystemError Place := do
  if '\x00' ∈ path.toList then .error .zeroByte
  else
    let names := Path.names path
    let place ← names.foldlM t.step []
    if names.getLast?.any Path.isHere && !t.isDirectory place then .error .notDirectory
    else .ok place

/-- What is opened by an absolute path. A path that is too long as it is opens nothing, wherever
its names lead. -/
def find (t : FileTree) (path : String) : Option Entry :=
  if maxPathBytes < path.utf8ByteSize then none
  else
    match t.locate path with
    | .ok place => t.entry? place
    | .error _ => none

/-- The workspace at the directory that an absolute path leads to. -/
def workspace (t : FileTree) (path : String) : Except Failure Workspace :=
  match t.locate path with
  | .error error => .error (.system error)
  | .ok place =>
    if t.isDirectory place then .ok { path := place.path, find := t.find }
    else .error (.notDirectory place.path)

end FileTree

end EditGraph
