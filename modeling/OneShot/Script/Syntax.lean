import OneShot.Value

/-!
# The script language

Expressions and statements.  A function value is made by `function`; calls of
library functions are calls of literals.
-/

namespace OneShot.Script

inductive FunctionKind where
  | plain
  | generator
  | coroutine
  deriving DecidableEq, Repr, Inhabited

mutual

inductive Expr where
  | literal (v : Val)
  | name (x : String)
  | choose (c a b : Expr)
  | function (f : Function)
  | call (f : Expr) (args : List Expr)
  | yield (e : Expr)
  | delegate (e : Expr)
  | await (e : Expr)
  /-- Gives way to the event loop a number of times. -/
  | pause (e : Expr)

inductive Stmt where
  | expr (e : Expr)
  | assign (x : String) (e : Expr)
  | branch (c : Expr) (yes no : List Stmt)
  | loop (c : Expr) (body : List Stmt)
  /-- Counts from zero up to a bound. -/
  | count (x : String) (bound : Expr) (body : List Stmt)
  | attempt (body : List Stmt) (clauses : List Clause) (finish : List Stmt)
  | result (e : Expr)
  | throw (e : Expr)

/-- What to do about exceptions of a kind. -/
structure Clause where
  kind : Kind
  name : String
  body : List Stmt

structure Function where
  kind : FunctionKind
  name : String
  parameters : List String
  /-- The names assigned in the body, which are local to it. -/
  locals : List String
  body : List Stmt

end

instance : Inhabited Expr := ⟨.literal .none⟩

mutual

/-- The names that a statement assigns, nested functions apart. -/
def Stmt.assigned : Stmt → List String
  | .expr _ | .result _ | .throw _ => []
  | .assign x _ => [x]
  | .branch _ yes no => Stmt.allAssigned yes ++ Stmt.allAssigned no
  | .loop _ body => Stmt.allAssigned body
  | .count x _ body => x :: Stmt.allAssigned body
  | .attempt body clauses finish =>
    Stmt.allAssigned body ++ Clause.allAssigned clauses ++ Stmt.allAssigned finish

def Stmt.allAssigned : List Stmt → List String
  | [] => []
  | s :: ss => s.assigned ++ Stmt.allAssigned ss

def Clause.allAssigned : List Clause → List String
  | [] => []
  | ⟨_, x, body⟩ :: cs => x :: Stmt.allAssigned body ++ Clause.allAssigned cs

end

end OneShot.Script
