import SheetScript.Json
import SheetScript.Prefix.Version
import SheetScript.Text.Blank
import SheetScript.Text.Lowercase
import SheetScript.Text.Word

/-! Queries for browsers, as people write them. -/

namespace SheetScript.Prefix

open SheetScript.Number SheetScript.Text

inductive Comparison
  | above
  | atLeast
  | below
  | atMost
  deriving DecidableEq, Repr

def Comparison.holds (comparison : Comparison) (left right : Binary64) : Bool :=
  match comparison with
  | above => right.lt left
  | atLeast => right.le left
  | below => left.lt right
  | atMost => left.le right

/-- Numbers in queries are kept as written. -/
inductive Query
  | defaults
  | dead
  /-- The versions of Firefox with extended support. -/
  | extendedSupport
  | usage (comparison : Comparison) (limit : String)
  /-- The last versions of every browser. -/
  | last (count : Nat)
  | lastOf (count : Nat) (browser : String)
  /-- A count of more digits than an integer is read from. -/
  | longCount (digits : Nat)
  | compared (browser : String) (comparison : Comparison) (limit : String)
  | between (browser low high : String)
  | exact (browser version : String)
  | unreadable (text : String)
  deriving DecidableEq, Repr

/-- A query that adds to a selection, or takes away from it. -/
structure Clause where
  negative : Bool
  query : Query
  deriving DecidableEq, Repr

/-- The small letter that a letter stands for where case does not count. -/
def plainLetter (c : Char) : Char :=
  if c == 'ſ' then 's' else if c == 'İ' || c == 'ı' then 'i' else c.toLower

def isWordAnyCase (word text : String) : Bool :=
  text.toList.map plainLetter == word.toList

def isVersionsWord (text : String) : Bool :=
  isWordAnyCase "version" text || isWordAnyCase "versions" text

def isCount (text : String) : Bool :=
  text != "" && text.toList.all isDigit

def isBrowserWord (text : String) : Bool :=
  text != "" && text.toList.all isWord

def isVersionWord (text : String) : Bool :=
  text != "" && text.toList.all fun c => isWord c || c == '.' || c == '-'

def comparison? : List Char → Option (Comparison × List Char)
  | '>' :: '=' :: rest => some (.atLeast, rest)
  | '<' :: '=' :: rest => some (.atMost, rest)
  | '>' :: rest => some (.above, rest)
  | '<' :: rest => some (.below, rest)
  | _ => none

namespace Query

/-- A share of use: `> 0.5%`. -/
def readUsage? (text : List Char) : Option Query := do
  let (comparison, rest) ← comparison? text
  let limit := trimStart rest
  if limit.getLast? == some '%' && isVersionText limit.dropLast &&
      (splitAt '.' limit.dropLast).length ≤ 2 then
    some (.usage comparison (String.ofList limit.dropLast))
  else none

/-- A browser and a comparison: `safari >= 12`. -/
def readCompared? (text : List Char) : Option Query := do
  let browser := text.takeWhile isWord
  let (comparison, rest) ← comparison? (trimStart (text.drop browser.length))
  let limit := trimStart rest
  if !browser.isEmpty && isVersionText limit then
    some (.compared (String.ofList browser) comparison (String.ofList limit))
  else none

/-- A browser and a range: `ios 15.2 - 15.4`. -/
def readBetween? (text : List Char) : Option Query :=
  let browser := text.takeWhile isWord
  let range := text.drop browser.length
  match splitAt '-' (trimStart range) with
  | [low, high] =>
    let low := trimEnd low
    let high := trimStart high
    if !browser.isEmpty && range.head?.any isBlank && isVersionText low && isVersionText high then
      some (.between (String.ofList browser) (String.ofList low) (String.ofList high))
    else none
  | _ => none

def counted (count : String) (query : Nat → Query) : Query :=
  if count.length > Json.integerLimit then .longCount count.length
  else query (digitsValue count.toList)

/-- Queries that are rows of words: `last 2 chrome versions`, `firefox esr`, `ie 11`. -/
def readWords? (text : List Char) : Option Query :=
  match fields (String.ofList text) with
  | [word, count, versions] =>
    if isWordAnyCase "last" word && isCount count && isVersionsWord versions then
      some (counted count .last)
    else none
  | [word, count, browser, versions] =>
    if isWordAnyCase "last" word && isCount count && isBrowserWord browser &&
        isVersionsWord versions then
      some (counted count (.lastOf · browser))
    else none
  | _ => none

def readExtendedSupport? (text : List Char) : Option Query :=
  match fields (String.ofList text) with
  | [browser, esr] =>
    if ["firefox", "ff", "fx"].any (isWordAnyCase · browser) && isWordAnyCase "esr" esr then
      some .extendedSupport
    else none
  | _ => none

def readExact? (text : List Char) : Option Query :=
  match fields (String.ofList text) with
  | [browser, version] =>
    if isBrowserWord browser && isVersionWord version then some (.exact browser version) else none
  | _ => none

def read (text : String) : Query :=
  let trimmed := trimChars text.toList
  let plain := String.ofList trimmed
  if lowercase plain == "defaults" then .defaults
  else if lowercase plain == "dead" then .dead
  else
    (readExtendedSupport? trimmed <|> readUsage? trimmed <|> readWords? trimmed <|> readCompared? trimmed <|>
      readBetween? trimmed <|> readExact? trimmed).getD (.unreadable plain)

end Query

/-- What follows `not` and blanks, if that is one line. -/
def negated? (text : List Char) : Option (List Char) :=
  let rest := text.drop 3
  let query := trimStart rest
  if isWordAnyCase "not" (String.ofList (text.take 3)) && rest.head?.any isBlank &&
      !query.isEmpty && !query.contains '\n' then
    some query
  else none

def Clause.read (text : List Char) : Clause :=
  match negated? text with
  | some query => ⟨true, .read (String.ofList query)⟩
  | none => ⟨false, .read (String.ofList text)⟩

def afterOr? (text : List Char) : Option (List Char) :=
  match text.dropWhile isBlank with
  | 'o' :: 'r' :: rest =>
    if text.head?.any isBlank && rest.head?.any isBlank then some (rest.dropWhile isBlank) else none
  | _ => none

theorem length_afterOr? {text rest : List Char} (found : afterOr? text = some rest) :
    rest.length < text.length := by
  unfold afterOr? at found
  split at found
  next after same =>
    split at found
    next =>
      have outer := (List.dropWhile_sublist isBlank (l := text)).length_le
      have inner := (List.dropWhile_sublist isBlank (l := after)).length_le
      obtain rfl := Option.some.inj found
      rw [same] at outer
      simp only [List.length_cons] at outer
      omega
    next => simp at found
  next => simp at found

/-- Cuts a text at commas and at the word `or` between blanks. -/
def alternatives (text : List Char) : List (List Char) :=
  match text with
  | [] => [[]]
  | c :: rest =>
    if c == ',' then [] :: alternatives rest
    else
      match _found : afterOr? (c :: rest) with
      | some after => [] :: alternatives after
      | none =>
        match alternatives rest with
        | first :: more => (c :: first) :: more
        | [] => [[c]]
termination_by text.length
decreasing_by
  · simp
  · exact length_afterOr? _found
  · simp

def clauses (text : String) : List Clause :=
  ((alternatives text.toList).map trimChars).filterMap fun part =>
    if part.isEmpty then none else some (.read part)

end SheetScript.Prefix
