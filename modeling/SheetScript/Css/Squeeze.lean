import SheetScript.Css.Structure
import SheetScript.Text.Blank
import SheetScript.Text.Comment
import SheetScript.Text.Search

/-!
Squeezing: a style sheet without the blanks, comments and semicolons it can do without.

The text is read once, a part at a time; a part is replaced in view of the character before it, what
follows it, and a few counts kept on the way (`Place`).
-/

namespace SheetScript.Css

open SheetScript.Text

structure Place where
  /-- Blocks of declarations around this place. -/
  rules : Nat
  /-- Rules like `@media` whose block is still to open. -/
  groups : Nat
  /-- A comment that ends in a backslash is in force, and the next other one ends it. -/
  hidden : Bool
  deriving DecidableEq, Repr

namespace Place

def start : Place := ⟨0, 0, false⟩

def isOutside (place : Place) : Bool :=
  place.rules = 0 && place.groups = 0

end Place

def isBreak (c : Char) : Bool :=
  c == '\r' || c == '\n' || c == '\x0c'

def isSpace (c : Char) : Bool :=
  isBreak c || c == ' ' || c == '\t'

/-- Characters that nothing else begins with; runs of them are kept. -/
def isPlain (c : Char) : Bool :=
  !isSpace c && !(['\\', '"', '&', '\'', 'u', '>', '@', '/', ';', ':', '\x7b', '\x7d', '+'].contains c)

/-! Gaps -/

inductive Gap
  | blank
  /-- A comment; whether it ends in a backslash. -/
  | comment (hides : Bool)
  deriving DecidableEq, Repr

def gaps (isGap : Char → Bool) (text : List Char) : List Gap × Nat :=
  match text with
  | [] => ([], 0)
  | c :: rest =>
    if isGap c then
      let (more, count) := gaps isGap rest
      (.blank :: more, count + 1)
    else
      match c, rest with
      | '/', '*' :: body =>
        match commentBody? body with
        | some (comment, _) =>
          let (more, count) := gaps isGap (body.drop comment.length)
          let hides := ((comment.dropLast.dropLast).getLast? == some '\\')
          (.comment hides :: more, 2 + comment.length + count)
        | none => ([], 0)
      | _, _ => ([], 0)
termination_by text.length
decreasing_by all_goals (simp only [List.length_cons, List.length_drop]; omega)

/--
What is left of a row of gaps. Of neighbouring comments the last one counts: one that ends in a
backslash leaves a short one like it, unless one is in force, and any other ends the one in force.
-/
def leftover (hidden : Bool) : List Gap → List Char × Bool
  | [] => ([], hidden)
  | .blank :: rest => leftover hidden rest
  | .comment _ :: .comment hides :: rest => leftover hidden (.comment hides :: rest)
  | .comment hides :: rest =>
    let (more, last) := leftover hides rest
    if hides = hidden then (more, last)
    else ((if hides then "/*\\*/" else "/**/").toList ++ more, last)

structure Squeezed where
  text : List Char
  count : Nat
  place : Place

def squeezeGaps (place : Place) (lead : List Char) (row : List Gap) (count : Nat) : Squeezed :=
  let (kept, hidden) := leftover place.hidden row
  ⟨lead ++ kept, count, { place with hidden := hidden }⟩

def sparesBlankAfter (c : Char) : Bool :=
  ['\x7b', '\x7d', '(', '=', ':', '>', '[', ',', '!'].contains c

def sparesBlankBefore (c : Char) : Bool :=
  [':', '\x7b', '\x7d', ')', ';', '=', '>', ']', ',', '!'].contains c

def squeezeBetween (place : Place) (previous : Option Char) (row : List Gap) (count : Nat)
    (next : Option Char) : Squeezed :=
  let spared :=
    previous.all sparesBlankAfter || (next.all sparesBlankBefore && !(next == some ':' && place.isOutside))
  squeezeGaps place (if spared then [] else [' ']) row count

def squeezeSemicolon (place : Place) (rest : List Char) : Squeezed :=
  let (row, count) := gaps (fun c => isSpace c || c == ';') rest
  let spared := (rest.drop count).head? == some '\x7d' && 0 < place.rules
  squeezeGaps place (if spared then [] else [';']) row (count + 1)

def openBlock (place : Place) : Place :=
  if 0 < place.groups then { place with groups := place.groups - 1 }
  else { place with rules := place.rules + 1 }

def closeBlock (place : Place) : Place :=
  { place with rules := place.rules - 1 }

/-! Quoted texts, escapes and addresses -/

def quotedLength? (bareBreaks escapedBreaks : Bool) (quote : Char) : List Char → Option Nat
  | [] => none
  | ['\\'] => if quote == '\\' then some 1 else none
  | '\\' :: c :: rest =>
    if isBreak c && !escapedBreaks then none
    else (quotedLength? bareBreaks escapedBreaks quote rest).map (· + 2)
  | c :: rest =>
    if c == quote then some 1
    else if isBreak c && !bareBreaks then none
    else (quotedLength? bareBreaks escapedBreaks quote rest).map (· + 1)

def withoutEscapedBreaks : List Char → List Char
  | '\\' :: '\r' :: '\n' :: rest => withoutEscapedBreaks rest
  | '\\' :: '\r' :: rest => withoutEscapedBreaks rest
  | '\\' :: '\n' :: rest => withoutEscapedBreaks rest
  | '\\' :: '\x0c' :: rest => withoutEscapedBreaks rest
  | c :: rest => c :: withoutEscapedBreaks rest
  | [] => []

def escapeLength : List Char → Nat
  | [] => 0
  | c :: rest =>
    let digits := runLength isHexDigit ((c :: rest).take 6)
    if digits = 0 then if isBreak c then 0 else 1
    else
      match (c :: rest).drop digits with
      | '\r' :: '\n' :: _ => digits + 2
      | blank :: _ => if isSpace blank then digits + 1 else digits
      | [] => digits

def breakLength : List Char → Nat
  | '\r' :: '\n' :: _ => 2
  | c :: _ => if isBreak c then 1 else 0
  | [] => 0

-- The blank that may end a hexadecimal escape goes like any other, unlike outside an address.
def squeezeQuotedAddress (text : List Char) : List Char :=
  match text with
  | [] => []
  | ['\\'] => ['\\']
  | '\\' :: c :: rest =>
    if isBreak c then squeezeQuotedAddress ((c :: rest).drop (breakLength (c :: rest)))
    else '\\' :: c :: squeezeQuotedAddress rest
  | c :: rest =>
    if isSpace c then squeezeQuotedAddress rest
    else c :: squeezeQuotedAddress rest
termination_by text.length
decreasing_by all_goals (simp only [List.length_cons, List.length_drop]; omega)

/-- A quoted address that holds its data as plain text, where blanks count. -/
def isPlainData (quoted : List Char) : Bool :=
  let address := (quoted.drop 1).map Char.toLower
  "data:".toList.isPrefixOf address &&
    !";base64".toList.isSuffixOf (address.takeWhile (· != ','))

def bareAddress? (text : List Char) : Option (List Char × Nat) :=
  match text with
  | [] => none
  | ['\\'] => none
  | '\\' :: c :: rest =>
    if isBreak c then
      let count := breakLength (c :: rest)
      (bareAddress? ((c :: rest).drop count)).map fun (kept, more) => (kept, 1 + count + more)
    else (bareAddress? rest).map fun (kept, count) => ('\\' :: c :: kept, count + 2)
  | c :: rest =>
    if c == ')' then some ([c], 1)
    else if isSpace c then (bareAddress? rest).map fun (kept, count) => (kept, count + 1)
    else if c ≤ ' ' || c == '"' || c == '\'' || c == '(' || c == '\x7f' then none
    else (bareAddress? rest).map fun (kept, count) => (c :: kept, count + 1)
termination_by text.length
decreasing_by all_goals (simp only [List.length_cons, List.length_drop]; omega)

def quotedAddress? (quote : Char) (rest : List Char) : Option (List Char × Nat) := do
  let length ← quotedLength? true true quote rest
  let quoted := quote :: rest.take length
  let blanks := runLength isSpace (rest.drop length)
  if (rest.drop (length + blanks)).head? == some ')' then
    let kept := if isPlainData quoted then quoted else squeezeQuotedAddress quoted
    some (kept ++ [')'], 1 + length + blanks + 1)
  else none

def address? (text : List Char) : Option (List Char × Nat) :=
  let blanks := runLength isSpace text
  let found :=
    match text.drop blanks with
    | c :: rest => if c == '"' || c == '\'' then quotedAddress? c rest else bareAddress? (c :: rest)
    | [] => none
  found.map fun (kept, count) => (kept, blanks + count)

/-! Words that change how blanks count -/

def isPrefixAnyCase (word : String) (text : List Char) : Bool :=
  word.toList.isPrefixOf ((text.take word.length).map Char.toLower)

/-- Rules whose block holds rules. -/
def groupWords : List String :=
  ["media", "supports", "document", "keyframes", "-webkit-keyframes", "-moz-keyframes",
    "-o-keyframes", "-ms-keyframes"]

def groupLength? (text : List Char) : Option Nat :=
  (groupWords.find? fun word =>
    isPrefixAnyCase word text && !(text.drop word.length).head?.any isNameChar).map String.length

def firstLength? (text : List Char) : Option Nat :=
  (["first-line", "first-letter"].find? (isPrefixAnyCase · text)).map String.length

def collapseBreaks (inRow : Bool) : List Char → List Char
  | [] => []
  | c :: rest =>
    if isBreak c || c == '\t' then
      if inRow then collapseBreaks true rest else ' ' :: collapseBreaks true rest
    else c :: collapseBreaks false rest

/-! One part -/

def squeezeMark (place : Place) (previous : Option Char) (c : Char) (rest : List Char) : Squeezed :=
  let same : Squeezed := ⟨[c], 1, place⟩
  match c with
  | ';' => squeezeSemicolon place rest
  | '\x7b' => ⟨[c], 1, openBlock place⟩
  | '\x7d' => ⟨[c], 1, closeBlock place⟩
  | 'u' =>
    if !previous.any isNameChar && "rl(".toList.isPrefixOf rest then
      match address? (rest.drop 3) with
      | some (kept, count) => ⟨"url(".toList ++ kept, 4 + count, place⟩
      | none => same
    else same
  | '@' =>
    match groupLength? rest with
    | some count => ⟨c :: rest.take count, count + 1, { place with groups := place.groups + 1 }⟩
    | none => same
  | '&' =>
    match gaps isSpace rest with
    | ([], _) => same
    | (row, count) =>
      let needed := row.contains .blank && !(rest.drop count).isEmpty
      squeezeGaps place (if needed then [c, ' '] else [c]) row (count + 1)
  | '>' =>
    if "/**/".toList.isPrefixOf rest then
      let (row, count) := gaps isSpace (rest.drop 4)
      if place.isOutside then
        squeezeGaps { place with hidden := false } (c :: "/**/".toList) row (count + 5)
      else squeezeGaps place [c] row (count + 5)
    else same
  | ':' =>
    match firstLength? rest with
    | some length =>
      let (row, count) := gaps isSpace (rest.drop length)
      let next := (rest.drop (length + count)).head?
      if next == some '\x7b' || next == some ',' then
        squeezeGaps place (c :: rest.take length ++ [' ']) row (1 + length + count)
      else same
    | none => same
  | '\\' =>
    match escapeLength rest with
    | 0 => same
    | escaped =>
      let count := escaped + runLength isPlain (rest.drop escaped)
      ⟨collapseBreaks false (c :: rest.take count), count + 1, place⟩
  | c =>
    if c == '"' || c == '\'' then
      match quotedLength? false false c rest, quotedLength? false true c rest with
      | some count, _ => ⟨c :: rest.take count, count + 1, place⟩
      | none, some count => ⟨withoutEscapedBreaks (c :: rest.take count), count + 1, place⟩
      | none, none => same
    else same

def squeezePart (place : Place) (previous : Option Char) (c : Char) (rest : List Char) : Squeezed :=
  let text := c :: rest
  if isPlain c then ⟨text.takeWhile isPlain, runLength isPlain text, place⟩
  else
    match gaps isSpace text with
    | ([], _) => squeezeMark place previous c rest
    | (row, count) =>
      if previous == some '&' then ⟨[c], 1, place⟩
      else squeezeBetween place previous row count (text.drop count).head?

def squeezeFrom (place : Place) (previous : Option Char) (text : List Char) : List Char :=
  match text with
  | [] => []
  | c :: rest =>
    let part := squeezePart place previous c rest
    part.text ++
      squeezeFrom part.place (c :: rest.take (part.count - 1)).getLast? (rest.drop (part.count - 1))
termination_by text.length
decreasing_by simp only [List.length_cons, List.length_drop]; omega

def squeeze (css : String) : String :=
  String.ofList (trimChars (squeezeFrom .start none css.toList))

structure Minified where
  styles : String
  errors : List String
  deriving DecidableEq, Repr

def minify (css : String) : Minified :=
  match checkStructure css with
  | [] => ⟨squeeze css, []⟩
  | errors => ⟨"", errors⟩

end SheetScript.Css
