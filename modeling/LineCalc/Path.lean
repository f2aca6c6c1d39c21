/-!
# File paths

A path is written without needless parts: no empty parts, no `.` but for the path
that is nothing else, and no slash at the end. What begins with a slash stays
absolute, and exactly two slashes at the front stay two.
-/

namespace LineCalc.Path

/-- The slashes a path begins with, as they are kept. -/
def root (s : String) : String :=
  match (s.toList.takeWhile (· == '/')).length with
  | 0 => ""
  | 2 => "//"
  | _ => "/"

/-- The parts of a path that lead somewhere. -/
def parts (s : String) : List String :=
  (s.splitOn "/").filter fun p => p != "" && p != "."

/-- A path from its root and its parts. -/
def assemble (root : String) (parts : List String) : String :=
  if root.isEmpty && parts.isEmpty then "." else root ++ String.intercalate "/" parts

/-- A path as it is shown. -/
def normal (s : String) : String := assemble (root s) (parts s)

/-- The path of a file in a directory. -/
def join (directory file : String) : String :=
  assemble (root directory) (parts directory ++ [file])

end LineCalc.Path
