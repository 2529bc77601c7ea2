import OneShot.Display

/-!
# Changes

A change of the store that gives a result or raises an exception.
-/

namespace OneShot

abbrev Change (α : Type) := ExceptT Exc (StateM Store) α

namespace Change

def fail {α : Type} (f : Fault) : Change α := do
  let (s, x) := (← get).fault f
  set s
  throw x

/-- Raises a new exception of a kind. -/
def raise {α : Type} (kind : Kind) (args : List Val) : Change α := do
  let (s, x) := (← get).newException kind args .plain
  set s
  throw x

/-- Applies an operation that makes something new. -/
def make {α : Type} (f : Store → Store × α) : Change α := do
  let (s, a) := f (← get)
  set s
  pure a

def ask {α : Type} (f : Store → α) : Change α := do pure (f (← get))

def list (vs : List Val) : Change Val := make (·.newList vs.toArray)

def isFalse (v : Val) : Change Bool := ask fun s => !s.truth v

end Change

end OneShot
