import OneShot.Script.Syntax

/-!
# Variables

A call of a function has a scope of its own, inside the scope in which the
function was made.  A name that a function assigns is its own in all of its
body, even before it has a value.
-/

namespace OneShot.Script

structure Scope where
  names : List (String × Option Val)
  outer : Option Nat
  deriving Inhabited

structure Closure where
  function : Function
  scope : Nat

structure Memory where
  scopes : Array Scope
  closures : Array Closure

namespace Scope

def find? (x : String) : List (String × Option Val) → Option (Option Val)
  | [] => none
  | (y, v) :: rest => if x = y then some v else find? x rest

def put (x : String) (v : Val) : List (String × Option Val) → List (String × Option Val)
  | [] => [(x, some v)]
  | (y, w) :: rest => if x = y then (y, some v) :: rest else (y, w) :: put x v rest

theorem find?_put (x : String) (v : Val) (ns : List (String × Option Val)) :
    find? x (put x v ns) = some (some v) := by
  induction ns with
  | nil => simp [put, find?]
  | cons n ns ih =>
    obtain ⟨y, w⟩ := n
    by_cases h : x = y <;> simp [put, find?, h]
    simpa [h] using ih

end Scope

namespace Memory

/-- One scope for the globals, which is the outermost of all. -/
def initial : Memory := ⟨#[⟨[], none⟩], #[]⟩

/-- Looks a name up from a scope outwards, through at most `n` scopes. -/
def lookupN (m : Memory) (x : String) : (n : Nat) → (scope : Nat) → Option Val
  | 0, _ => none
  | n + 1, i =>
    match m.scopes[i]? with
    | none => none
    | some s =>
      match Scope.find? x s.names with
      | some v => v
      | none => s.outer.bind (lookupN m x n)

def lookup (m : Memory) (i : Nat) (x : String) : Option Val := m.lookupN x m.scopes.size i

def assign (m : Memory) (i : Nat) (x : String) (v : Val) : Memory :=
  { m with scopes := m.scopes.modify i fun s => { s with names := Scope.put x v s.names } }

def newScope (m : Memory) (s : Scope) : Memory × Nat :=
  let id := m.scopes.size
  ({ m with scopes := m.scopes.push s }, id)

def newClosure (m : Memory) (f : Function) (scope : Nat) : Memory × Val :=
  let id := m.closures.size
  ({ m with closures := m.closures.push ⟨f, scope⟩ }, .closure id f.name)

end Memory

end OneShot.Script
