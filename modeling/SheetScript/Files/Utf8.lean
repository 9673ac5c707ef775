import SheetScript.Text.Hexadecimal

/-! Where bytes are not UTF-8, and why. -/

namespace SheetScript.Files

inductive Utf8Reason
  | invalidStart
  | invalidContinuation
  | unexpectedEnd
  deriving DecidableEq, Repr

def Utf8Reason.text : Utf8Reason → String
  | invalidStart => "invalid start byte"
  | invalidContinuation => "invalid continuation byte"
  | unexpectedEnd => "unexpected end of data"

structure Utf8Fault where
  start : Nat
  count : Nat
  first : UInt8
  reason : Utf8Reason
  deriving DecidableEq, Repr

def Utf8Fault.message (fault : Utf8Fault) : String :=
  if fault.count = 1 then
    let byte := String.ofList (Text.hexDigits 2 fault.first.toNat)
    s!"'utf-8' codec can't decode byte 0x{byte} in position {fault.start}: {fault.reason.text}"
  else
    let last := fault.start + fault.count - 1
    s!"'utf-8' codec can't decode bytes in position {fault.start}-{last}: {fault.reason.text}"

/-- The least and greatest second byte after a first one, and the number of bytes after the first. -/
def sequenceShape? (first : UInt8) : Option (UInt8 × UInt8 × Nat) :=
  if first < 0x80 then some (0x80, 0xbf, 0)
  else if first < 0xc2 then none
  else if first < 0xe0 then some (0x80, 0xbf, 1)
  else if first = 0xe0 then some (0xa0, 0xbf, 2)
  else if first = 0xed then some (0x80, 0x9f, 2)
  else if first < 0xf0 then some (0x80, 0xbf, 2)
  else if first = 0xf0 then some (0x90, 0xbf, 3)
  else if first < 0xf4 then some (0x80, 0xbf, 3)
  else if first = 0xf4 then some (0x80, 0x8f, 3)
  else none

/-- Checks the `count` bytes after a first one; a fault comes with the number of bytes before it. -/
def checkRest (least greatest : UInt8) : Nat → Nat → List UInt8 → Option (Utf8Reason × Nat)
  | _, 0, _ => none
  | good, _ + 1, [] => some (.unexpectedEnd, good)
  | good, count + 1, byte :: rest =>
    if least ≤ byte && byte ≤ greatest then checkRest 0x80 0xbf (good + 1) count rest
    else some (.invalidContinuation, good)

def utf8Fault? (offset : Nat) (bytes : List UInt8) : Option Utf8Fault :=
  match bytes with
  | [] => none
  | first :: rest =>
    match sequenceShape? first with
    | none => some ⟨offset, 1, first, .invalidStart⟩
    | some (least, greatest, count) =>
      match checkRest least greatest 1 count rest with
      | some (reason, good) => some ⟨offset, good, first, reason⟩
      | none => utf8Fault? (offset + 1 + count) (rest.drop count)
termination_by bytes.length
decreasing_by simp only [List.length_cons, List.length_drop]; omega

end SheetScript.Files
