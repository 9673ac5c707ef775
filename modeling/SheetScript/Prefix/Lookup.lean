import SheetScript.Json
import SheetScript.Number.Shortest
import SheetScript.Text.Quoted
import SheetScript.Text.Search

/-!
Looking into data that may have any shape: each look answers, or says what about the data forbids it.
-/

namespace SheetScript.Prefix

open SheetScript.Number

/-- What about a data file forbids an answer. -/
inductive DataFault
  | undecodable
  | malformed
  | integerTooLong
  /-- A value of this kind offers no such operation. -/
  | unsupported (kind operation : String)
  | notIterable (kind : String)
  | notSearchable (kind : String)
  | notIndexable (kind : String)
  | textIndexedByText
  | listIndexedByText
  | notAKey (kind : String)
  | notNumeric (kind : String)
  | unordered (left right : String)
  | missingKey (key : String)
  | badNumber (text : String)
  | numberTooLarge
  /-- A count in a query has so many digits. -/
  | countTooLong (digits : Nat)
  deriving DecidableEq, Repr

namespace DataFault

def className : DataFault → String
  | undecodable => "UnicodeDecodeError"
  | malformed => "JSONDecodeError"
  | integerTooLong => "ValueError"
  | unsupported .. => "AttributeError"
  | notIterable _ | notSearchable _ | notIndexable _ | textIndexedByText | listIndexedByText
  | notAKey _ | notNumeric _ | unordered .. => "TypeError"
  | missingKey _ => "KeyError"
  | badNumber _ | countTooLong _ => "ValueError"
  | numberTooLarge => "OverflowError"

def message : DataFault → String
  | undecodable => "<UnicodeDecodeError>"
  | malformed => "<JSONDecodeError>"
  | integerTooLong => "<ValueError>"
  | unsupported kind operation => s!"'{kind}' object has no attribute '{operation}'"
  | notIterable kind => s!"'{kind}' object is not iterable"
  | notSearchable kind => s!"argument of type '{kind}' is not iterable"
  | notIndexable kind => s!"'{kind}' object is not subscriptable"
  | textIndexedByText => "string indices must be integers, not 'str'"
  | listIndexedByText => "list indices must be integers or slices, not str"
  | notAKey kind => s!"unhashable type: '{kind}'"
  | notNumeric kind => s!"float() argument must be a string or a real number, not '{kind}'"
  | unordered left right =>
    s!"'<' not supported between instances of '{left}' and '{right}'"
  | missingKey key => Text.quoted key
  | badNumber text => s!"could not convert string to float: {Text.quoted text}"
  | numberTooLarge => "int too large to convert to float"
  | countTooLong digits =>
    s!"Exceeds the limit ({Json.integerLimit} digits) for integer string conversion: " ++
      s!"value has {digits} digits; use sys.set_int_max_str_digits() to increase the limit"

end DataFault

def kind : Json → String
  | .null => "NoneType"
  | .bool _ => "bool"
  | .int _ => "int"
  | .float _ => "float"
  | .string _ => "str"
  | .array _ => "list"
  | .object _ => "dict"

def isAbsent : Json → Bool
  | .null => true
  | .bool value => !value
  | .int n => n = 0
  | .float x => x.isZero
  | .string text => text.isEmpty
  | .array items => items.isEmpty
  | .object fields => fields.isEmpty

def lookup (value : Json) (key : String) : Except DataFault (Option Json) :=
  match value with
  | .object fields => .ok (Assoc.get? fields key)
  | other => .error (.unsupported (kind other) "get")

/-- A text is a key, an item or a part of a value. -/
def holds (value : Json) (text : String) : Except DataFault Bool :=
  match value with
  | .object fields => .ok (Assoc.get? fields text).isSome
  | .array items => .ok (items.any fun
      | .string item => item == text
      | _ => false)
  | .string whole => .ok (Text.occursIn text.toList whole.toList)
  | other => .error (.notSearchable (kind other))

def demand (value : Json) (key : String) : Except DataFault Json :=
  match value with
  | .object fields =>
    match Assoc.get? fields key with
    | some found => .ok found
    | none => .error (.missingKey key)
  | .string _ => .error .textIndexedByText
  | .array _ => .error .listIndexedByText
  | other => .error (.notIndexable (kind other))

def items : Json → Except DataFault (List Json)
  | .array items => .ok items
  | .object fields => .ok (fields.map fun field => .string field.1)
  | .string text => .ok (text.toList.map fun c => .string (String.singleton c))
  | other => .error (.notIterable (kind other))

def readNumber (text : String) : Except DataFault Binary64 :=
  match Binary64.read? text.toList with
  | some x => .ok x
  | none => .error (.badNumber text)

def number (value : Json) : Except DataFault Binary64 :=
  if isAbsent value then .ok .zero
  else
    match value with
    | .bool _ => .ok (.finite false Binary64.one)
    | .int n => (Binary64.ofInt? n).elim (.error .numberTooLarge) .ok
    | .float x => .ok x
    | .string text => readNumber text
    | other => .error (.notNumeric (kind other))

mutual

def displayPart : Json → String
  | .null => "None"
  | .bool value => if value then "True" else "False"
  | .int n => toString n
  | .float x => x.text
  | .string text => Text.quoted text
  | .array items => "[" ++ ", ".intercalate (displayItems items) ++ "]"
  | .object fields => "\x7b" ++ ", ".intercalate (displayFields fields) ++ "\x7d"

def displayItems : List Json → List String
  | [] => []
  | item :: rest => displayPart item :: displayItems rest

def displayFields : List (String × Json) → List String
  | [] => []
  | (key, value) :: rest => s!"{Text.quoted key}: {displayPart value}" :: displayFields rest

end

def display : Json → String
  | .string text => text
  | other => displayPart other

def rank? : Json → Option Int
  | .bool value => some (if value then Binary64.one else 0)
  | .int n => some (n * Binary64.one)
  | .float x => x.rank?
  | _ => none

def ordered? (left right : Json) : Option Bool :=
  match left, right with
  | .string left, .string right => some !(right < left)
  | left, right =>
    match rank? left, rank? right with
    | some left, some right => some (left ≤ right)
    | _, _ => none

def unorderedPair? : List Json → Option (Json × Json)
  | first :: second :: rest =>
    if (ordered? first second).isNone then some (first, second) else unorderedPair? (second :: rest)
  | _ => none

def sortItems (row : List Json) : Except DataFault (List Json) :=
  match unorderedPair? row with
  | some (first, second) => .error (.unordered (kind second) (kind first))
  | none => .ok (row.mergeSort fun left right => (ordered? left right).getD true)

end SheetScript.Prefix
