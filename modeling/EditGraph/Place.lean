import EditGraph.Path

/-!
# Places

A place is a position in a file system, given by the names that lead to it from the root
directory. Many paths can lead to one place; the one without detours is its path.

## Main definitions

* `Place` — the position.
* `Place.next` — where a name leads from a place.
* `Place.path` — the path of a place.
-/

namespace EditGraph

/-- The names that lead to something from the root directory. -/
abbrev Place := List String

namespace Place

/-- The place that a name leads to. The directory above the root directory is itself. -/
def next (place : Place) (name : String) : Place :=
  if Path.isHere name then place
  else if name = ".." then place.dropLast
  else place ++ [name]

/-- The absolute path of a place, without detours. -/
def path : Place → String
  | [] => "/"
  | names => String.join (names.map ("/" ++ ·))

end Place

end EditGraph
