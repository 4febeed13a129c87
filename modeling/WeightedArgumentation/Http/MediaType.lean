/-!
# Media types that announce JSON

A media type is a type and a subtype with a slash between them, followed by
parameters.  It announces JSON when the type is `application` and the subtype
is `json`, before its last plus sign or after it, in any case.  A media type
that is not well-formed announces nothing.
-/

namespace WeightedArgumentation.Http

/-- The characters of a token. -/
def isTokenChar (c : Char) : Bool :=
  ('a' ≤ c && c ≤ 'z') || ('A' ≤ c && c ≤ 'Z') || ('0' ≤ c && c ≤ '9') ||
    "!#$%&'*+-.^_`|~".toList.contains c

/-- The characters that a header may hold besides the tab. -/
def isVisible (c : Char) : Bool := 0x20 ≤ c.toNat && c.toNat < 0x7F

/-- What may come next in the parameters of a media type. -/
inductive ParameterState
  | beforeName
  | inName
  | beforeValue
  | inValue
  | afterQuote
  | inQuotes
  | afterQuotes
  deriving DecidableEq, Repr

namespace ParameterState

/-- The state after one more character, if it may stand there. -/
def next? (c : Char) : ParameterState → Option ParameterState
  | beforeName =>
      if c = ' ' then some beforeName else if isTokenChar c then some inName else none
  | inName => if isTokenChar c then some inName else if c = '=' then some beforeValue else none
  | beforeValue =>
      if c = '"' then some afterQuote else if isTokenChar c then some inValue else none
  | inValue => if isTokenChar c then some inValue else if c = ';' then some beforeName else none
  | afterQuote => some inQuotes
  | inQuotes => if c = '"' then some afterQuotes else some inQuotes
  | afterQuotes =>
      if c = ';' then some beforeName else if c = ' ' then some afterQuotes else none

/-- Whether the parameters may end here. -/
def mayEnd : ParameterState → Bool
  | beforeName | beforeValue | inValue | afterQuotes => true
  | inName | afterQuote | inQuotes => false

/-- Whether the parameters go on and end well from a state. -/
def accepts : ParameterState → List Char → Bool
  | state, [] => state.mayEnd
  | state, c :: rest =>
      match state.next? c with
      | some next => accepts next rest
      | none => false

end ParameterState

/-- What stands before the last plus sign that is not in front, and what stands
behind it. -/
def splitSuffix (subtype : List Char) : List Char × Option (List Char) :=
  let behind := (subtype.reverse.takeWhile (· ≠ '+')).reverse
  let before := subtype.take (subtype.length - behind.length - 1)
  if behind.length = subtype.length || before.isEmpty then (subtype, none)
  else (before, some behind)

/-- Whether a subtype in lower case names JSON. -/
def isJsonSubtype (subtype : List Char) : Bool :=
  let (before, suffix) := splitSuffix subtype
  before = "json".toList || suffix = some "json".toList

/-- Whether the text behind the slash is a JSON subtype with parameters. -/
def announcesJsonBehindSlash (text : List Char) : Bool :=
  isJsonSubtype (text.takeWhile isTokenChar) &&
    match text.dropWhile isTokenChar with
    | [] => true
    | ';' :: parameters => ParameterState.beforeName.accepts parameters
    | _ => false

/-- Whether a media type announces JSON. -/
def announcesJson (mediaType : String) : Bool :=
  let text := mediaType.toList.map Char.toLower
  text.all isVisible && text.takeWhile isTokenChar = "application".toList &&
    match text.dropWhile isTokenChar with
    | '/' :: rest => announcesJsonBehindSlash rest
    | _ => false

end WeightedArgumentation.Http
