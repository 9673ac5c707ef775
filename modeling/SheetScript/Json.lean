import SheetScript.Assoc
import SheetScript.Number.Decimal
import SheetScript.Text.Hexadecimal

/-!
JSON text. Integers are exact, other numbers binary; `NaN` and the infinities are read too, and of
two equal keys in an object the later value counts.

Reading has two steps: the text is cut into tokens, and a stack of open brackets turns the tokens
into a value.
-/

namespace SheetScript

open SheetScript.Number SheetScript.Text

inductive Json
  | null
  | bool (value : Bool)
  | int (value : Int)
  | float (value : Binary64)
  | string (value : String)
  | array (items : List Json)
  | object (fields : List (String × Json))
  deriving Inhabited

namespace Json

def field? (key : String) : Json → Option Json
  | object fields => Assoc.get? fields key
  | _ => none

inductive Token
  | openArray
  | closeArray
  | openObject
  | closeObject
  | colon
  | comma
  | scalar (value : Json)

def escapedChar? : Char → Option Char
  | '"' => some '"'
  | '\\' => some '\\'
  | '/' => some '/'
  | 'b' => some '\x08'
  | 'f' => some '\x0c'
  | 'n' => some '\n'
  | 'r' => some '\r'
  | 't' => some '\t'
  | _ => none

def lowSurrogate? : List Char → Option Nat
  | '\\' :: 'u' :: a :: b :: c :: d :: _ =>
    match hexUnit? a b c d with
    | some unit => if 0xdc00 ≤ unit && unit ≤ 0xdfff then some unit else none
    | none => none
  | _ => none

/-- The text up to the closing quote, and what follows it; `skip` characters are already read. -/
def readText? : Nat → List Char → Option (List Char × List Char)
  | _, [] => none
  | skip + 1, _ :: rest => readText? skip rest
  | 0, '"' :: rest => some ([], rest)
  | 0, '\\' :: 'u' :: a :: b :: c :: d :: rest => do
    let unit ← hexUnit? a b c d
    match if 0xd800 ≤ unit && unit ≤ 0xdbff then lowSurrogate? rest else none with
    | some low =>
      let (text, after) ← readText? 6 rest
      return (Char.ofNat (0x10000 + (unit - 0xd800) * 0x400 + (low - 0xdc00)) :: text, after)
    | none =>
      let (text, after) ← readText? 0 rest
      return (unitChar unit :: text, after)
  | 0, '\\' :: c :: rest => do
    let meant ← escapedChar? c
    let (text, after) ← readText? 0 rest
    return (meant :: text, after)
  | 0, c :: rest =>
    if c.toNat < 0x20 || c == '\\' then none
    else do
      let (text, after) ← readText? 0 rest
      return (c :: text, after)

def isNumberChar (c : Char) : Bool :=
  ('0' ≤ c && c ≤ '9') || c == '-' || c == '+' || c == '.' || c == 'e' || c == 'E'

def isDigitChar (c : Char) : Bool :=
  '0' ≤ c && c ≤ '9'

def isExponent : List Char → Bool
  | [] => true
  | mark :: rest =>
    let digits :=
      match rest with
      | '-' :: digits => digits
      | '+' :: digits => digits
      | digits => digits
    (mark == 'e' || mark == 'E') && !digits.isEmpty && digits.all isDigitChar

/-- A number without its sign: no needless zero in front, digits on both sides of a point. -/
def readUnsigned? (negative : Bool) (text : List Char) : Option Json :=
  let whole := text.takeWhile isDigitChar
  let afterWhole := text.dropWhile isDigitChar
  if whole.isEmpty || (whole.length > 1 && whole.head? == some '0') then none
  else
    match afterWhole with
    | [] =>
      let value : Int := digitsValue whole
      some (.int (if negative then -value else value))
    | '.' :: rest =>
      let fraction := rest.takeWhile isDigitChar
      if !fraction.isEmpty && isExponent (rest.dropWhile isDigitChar) then
        (Decimal.readUnsigned? negative text).map fun d => .float d.toBinary64
      else none
    | rest =>
      if isExponent rest then
        (Decimal.readUnsigned? negative text).map fun d => .float d.toBinary64
      else none

def readNumber? : List Char → Option Json
  | '-' :: rest => readUnsigned? true rest
  | rest => readUnsigned? false rest

def isBlankChar (c : Char) : Bool :=
  c == ' ' || c == '\t' || c == '\n' || c == '\r'

def names : List (List Char × Json) :=
  [("null".toList, .null), ("true".toList, .bool true), ("false".toList, .bool false),
    ("NaN".toList, .float .nan), ("Infinity".toList, .float (.infinity false)),
    ("-Infinity".toList, .float (.infinity true))]

def named? (text : List Char) : Option (Json × Nat) :=
  (names.find? fun name => name.1.isPrefixOf text).map fun name => (name.2, name.1.length)

/-- The tokens of a text; `skip` characters belong to the token read last. -/
def tokens? : Nat → List Char → Option (List Token)
  | _, [] => some []
  | skip + 1, _ :: rest => tokens? skip rest
  | 0, c :: rest =>
    if isBlankChar c then tokens? 0 rest
    else if c == '[' then (tokens? 0 rest).map (.openArray :: ·)
    else if c == ']' then (tokens? 0 rest).map (.closeArray :: ·)
    else if c == '\x7b' then (tokens? 0 rest).map (.openObject :: ·)
    else if c == '\x7d' then (tokens? 0 rest).map (.closeObject :: ·)
    else if c == ':' then (tokens? 0 rest).map (.colon :: ·)
    else if c == ',' then (tokens? 0 rest).map (.comma :: ·)
    else if c == '"' then
      match readText? 0 rest with
      | some (text, after) =>
        (tokens? (rest.length - after.length) rest).map (.scalar (.string (String.ofList text)) :: ·)
      | none => none
    else
      match named? (c :: rest) with
      | some (value, length) => (tokens? (length - 1) rest).map (.scalar value :: ·)
      | none =>
        if isNumberChar c then
          match readNumber? (c :: rest.takeWhile isNumberChar) with
          | some value =>
            (tokens? (rest.takeWhile isNumberChar).length rest).map (.scalar value :: ·)
          | none => none
        else none

/-- What is open around the point of reading, items newest first. -/
inductive Frame
  | items (before : List Json)
  | field (before : Assoc Json) (key : String)

inductive Focus
  | value
  | valueOrClose
  | keyOrClose
  | key (before : Assoc Json)
  | colon (before : Assoc Json) (key : String)
  | done (value : Json)

def opening (frames : List Frame) : Token → Option (Focus × List Frame)
  | .openArray => some (.valueOrClose, frames)
  | .openObject => some (.keyOrClose, frames)
  | .scalar value => some (.done value, frames)
  | _ => none

def step : Focus × List Frame → Token → Option (Focus × List Frame)
  | (.value, frames), token => opening frames token
  | (.valueOrClose, frames), .closeArray => some (.done (.array []), frames)
  | (.valueOrClose, frames), token => opening (.items [] :: frames) token
  | (.keyOrClose, frames), .closeObject => some (.done (.object []), frames)
  | (.keyOrClose, frames), .scalar (.string key) => some (.colon [] key, frames)
  | (.key before, frames), .scalar (.string key) => some (.colon before key, frames)
  | (.colon before key, frames), .colon => some (.value, .field before key :: frames)
  | (.done value, .items before :: frames), .comma =>
    some (.value, .items (value :: before) :: frames)
  | (.done value, .items before :: frames), .closeArray =>
    some (.done (.array (value :: before).reverse), frames)
  | (.done value, .field before key :: frames), .comma => some (.key (before.set key value), frames)
  | (.done value, .field before key :: frames), .closeObject =>
    some (.done (.object (before.set key value)), frames)
  | _, _ => none

def read? (text : List Char) : Option Json := do
  let tokens ← tokens? 0 text
  match ← tokens.foldlM step (.value, []) with
  | (.done value, []) => some value
  | _ => none

def integerLimit : Nat := 4300

def Token.isLongInteger : Token → Bool
  | .scalar (.int n) => decimalLength n.natAbs > integerLimit
  | _ => false

def hasLongInteger (text : List Char) : Bool :=
  (tokens? 0 text).any fun tokens => tokens.any Token.isLongInteger

end Json

end SheetScript
