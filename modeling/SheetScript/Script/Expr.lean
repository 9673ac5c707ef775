import SheetScript.Number.Binary64

/-! The syntax trees of scripts. Lines count from one in the source that holds the node. -/

namespace SheetScript.Script

open SheetScript.Number

inductive Constant
  | text (value : String)
  | int (value : Nat)
  | float (value : Binary64)
  | bool (value : Bool)
  | null
  | undefined
  deriving DecidableEq, Repr

inductive Part (ε : Type)
  | text (value : String)
  | hole (expr : ε)
  deriving Repr

inductive Expr
  | literal (value : Constant)
  | template (parts : List (Part Expr))
  | name (id : String) (line : Nat)
  | member (object : Expr) (field : String) (line : Nat)
  | index (object key : Expr) (line : Option Nat)
  | call (function : Expr) (arguments : List Expr) (line : Option Nat)
  | object (fields : List (String × Expr))
  | array (items : List Expr)
  | sum (left right : Expr)
  | negation (operand : Expr)
  deriving Inhabited

namespace Expr

def line? : Expr → Option Nat
  | name _ line => some line
  | member _ _ line => some line
  | index _ _ line => line
  | call _ _ line => line
  | _ => none

end Expr

inductive Target
  | name (id : String) (line : Nat)
  | member (object : Expr) (field : String) (line : Nat)

namespace Target

def ofExpr? : Expr → Option Target
  | .name id line => some (.name id line)
  | .member object field line => some (.member object field line)
  | _ => none

def toExpr : Target → Expr
  | name id line => .name id line
  | member object field line => .member object field line

def line : Target → Nat
  | name _ line => line
  | member _ _ line => line

theorem toExpr_of_ofExpr? {expr : Expr} {target : Target} (found : ofExpr? expr = some target) :
    target.toExpr = expr := by
  cases expr <;> simp_all [ofExpr?] <;> subst found <;> rfl

end Target

inductive Statement
  | declare (name : String) (value : Expr)
  | assign (target : Target) (value : Expr)
  | expression (value : Expr)

end SheetScript.Script
