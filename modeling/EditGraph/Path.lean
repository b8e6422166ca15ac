/-!
# Paths

A path is a text of names separated by slashes. One that begins with a slash is absolute; any
other is read from some directory. Empty names and `.` stand for the directory reached so far
and `..` for the one above it.

## Main definitions

* `Path.join` — a path read from a directory.
* `Path.names` — the names of a path.
* `Path.isHere` — a name that leads nowhere else.
-/

namespace EditGraph.Path

/-- The path `p`, read from the directory at `base`. An empty `p` is the directory itself,
with a slash behind it. -/
def join (base p : String) : String :=
  if p.toList.head? = some '/' then p
  else if base.toList.getLast? = some '/' ∨ base.isEmpty then base ++ p
  else base ++ "/" ++ p

/-- The names in a text, when `name` is the beginning of the first one, given backward. -/
def namesFrom (name : List Char) : List Char → List String
  | [] => [String.ofList name.reverse]
  | c :: rest =>
    if c = '/' then String.ofList name.reverse :: namesFrom [] rest
    else namesFrom (c :: name) rest

/-- The names between the slashes of a path, the empty ones among them. -/
def names (p : String) : List String := namesFrom [] p.toList

/-- The name stands for the directory that holds it. -/
def isHere (name : String) : Bool := name = "" || name = "."

end EditGraph.Path
