/-!
# Routes

The resources of the API by path.  The target of a request is a path, or a whole
address with a scheme and a host before the path.  A path is compared exactly,
without its query.  The id in the path of an argument is one segment, which is
not empty; the segment `next-id` is a resource of its own.
-/

namespace WeightedArgumentation.Http

/-- The resources of the API.  The id of an argument is as it stands in the
path. -/
inductive Route
  | graph
  | arguments
  | nextId
  | argument (segment : String)
  | weights
  | scores
  deriving DecidableEq, Repr

/-- What follows a given beginning of a text. -/
def after? : List Char → List Char → Option (List Char)
  | [], text => some text
  | _ :: _, [] => none
  | c :: beginning, d :: text => if c = d then after? beginning text else none

/-- Whether a character may stand in a scheme. -/
def isSchemeCharacter (c : Char) : Bool := c.isAlphanum || c = '+' || c = '-' || c = '.'

/-- Whether a character ends a path. -/
def endsPath (c : Char) : Bool := c = '?' || c = '#'

/-- What follows the scheme and the host of an address. -/
def afterHost? (target : List Char) : Option (List Char) :=
  (after? "://".toList (target.dropWhile isSchemeCharacter)).map
    (·.dropWhile fun c => c ≠ '/' && !endsPath c)

/-- A target that starts with a slash is a path and has no host. -/
theorem afterHost?_slash (rest : List Char) : afterHost? ('/' :: rest) = none := rfl

/-- The path of a target.  An address without a path has the root's. -/
def pathOf (target : String) : List Char :=
  match afterHost? target.toList with
  | none => target.toList.takeWhile (!endsPath ·)
  | some rest =>
      match rest.takeWhile (!endsPath ·) with
      | [] => ['/']
      | path => path

namespace Route

/-- The resource of an argument whose id is a segment. -/
def ofSegment? (segment : List Char) : Option Route :=
  if segment.isEmpty || segment.contains '/' then none
  else if segment = "next-id".toList then some .nextId
  else some (.argument (String.ofList segment))

/-- The resource of a target. -/
def ofTarget? (target : String) : Option Route :=
  let path := pathOf target
  if path = "/graph".toList then some .graph
  else if path = "/arguments".toList then some .arguments
  else if path = "/weights".toList then some .weights
  else if path = "/scores".toList then some .scores
  else (after? "/arguments/".toList path).bind ofSegment?

end Route

end WeightedArgumentation.Http
