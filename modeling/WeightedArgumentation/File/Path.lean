/-!
# Paths

The names in a path, and how long a name and a path may be.
-/

namespace WeightedArgumentation

/-- The largest number of bytes in a name. -/
def longestName : Nat := 255

/-- The largest number of bytes in a path. -/
def longestPath : Nat := 4095

/-- The pieces of a path between its slashes. -/
def pathPieces : List Char → List (List Char)
  | [] => [[]]
  | '/' :: rest => [] :: pathPieces rest
  | c :: rest =>
      match pathPieces rest with
      | [] => [[c]]
      | first :: more => (c :: first) :: more

/-- The names in a path, without the empty ones between slashes. -/
def pathNames (path : String) : List String :=
  ((pathPieces path.toList).filter (· ≠ [])).map String.ofList

/-- The path from the root that consists of names. -/
def absolutePath (names : List String) : String := "/" ++ "/".intercalate names

/-- Whether a path starts at the root. -/
def isAbsolute (path : String) : Bool := path.toList.head? = some '/'

/-- Whether a path ends with a slash and so asks for a directory. -/
def asksForDirectory (path : String) : Bool := path.toList.getLast? = some '/'

end WeightedArgumentation
