import GeoTag.Text.Split

/-!
# Paths

A path is a text with slashes between its parts.  Empty parts and single dots change nothing.
`Path.fileName?` is the last part that names something, and `Path.join` puts a file into a
directory.
-/

namespace GeoTag

namespace Path

/-- The parts of a path that lead somewhere. -/
def parts (path : String) : List String :=
  ((Text.splitOn '/' path.toList).map String.ofList).filter fun p => p ≠ "" ∧ p ≠ "."

/-- The last part of a path, unless it leads upwards or there is none. -/
def fileName? (path : String) : Option String := (parts path).getLast?.filter (· ≠ "..")

/-- The name under which a file is known: its last part, or the whole path if there is none. -/
def label (path : String) : String := (fileName? path).getD path

/-- The path starts at the root. -/
def isAbsolute (path : String) : Bool := path.toList.head? = some '/'

/-- A path inside a directory; an absolute path stays as it is. -/
def join (directory file : String) : String :=
  if isAbsolute file then file
  else if directory.isEmpty ∨ directory.toList.getLast? = some '/' then directory ++ file
  else directory ++ "/" ++ file

end Path

end GeoTag
