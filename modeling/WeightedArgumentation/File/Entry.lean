import WeightedArgumentation.File.Fault

/-!
# Entries

What can stand at a place to which a path leads.
-/

namespace WeightedArgumentation

/-- A file that keeps nothing: the null device, one that is always full, and the
streams of the program itself. -/
inductive Device
  | null
  | full
  | input
  | output
  | errors
  deriving DecidableEq, Repr

/-- What stands at a place.  A folder that takes no files refuses them with a fault,
and a file that is not UTF-8 has no text. -/
inductive Entry
  | folder (refusal : Option FileFault)
  | file (text : Option String)
  | device (device : Device)
  deriving DecidableEq, Repr

end WeightedArgumentation
