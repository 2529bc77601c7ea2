import OneShot.Change
import OneShot.Equality

/-!
# Plain data

Arithmetic on integers, and what can be done with texts, lists, cells and
tables.  Operands of other types are refused.
-/

namespace OneShot.Data

open Change

def arithmetic (sign : String) (f : Int → Int → Change Val) : List Val → Change Val
  | [.int a, .int b] => f a b
  | _ => fail (.badOperands sign)

def add : List Val → Change Val
  | [.int a, .int b] => pure (.int (a + b))
  | [.str a, .str b] => pure (.str (a ++ b))
  | [.list a, .list b] => make fun s => s.newList (s.list a ++ s.list b)
  | _ => fail (.badOperands "+")

/-! ## Places in a sequence -/

/-- Truth values count as the integers zero and one. -/
def integer? : Val → Option Int
  | .int i => some i
  | .bool b => some (if b then 1 else 0)
  | _ => none

/-- An index must fit into 64 bits. -/
def index (refused : Fault) (i : Val) : Change Int :=
  match integer? i with
  | some i => if -0x8000000000000000 ≤ i ∧ i < 0x8000000000000000 then pure i else fail .indexTooBig
  | none => fail refused

/-- The place that an index means; a negative one counts from the end. -/
def place? (size : Nat) (i : Int) : Option Nat :=
  let j := if i < 0 then i + size else i
  if 0 ≤ j ∧ j < size then some j.toNat else none

theorem place?_lt {size : Nat} {i : Int} {j : Nat} (h : place? size i = some j) : j < size := by
  simp only [place?] at h
  split at h <;> split at h <;> simp at h <;> omega

def listPlace (l : Nat) (i : Val) (outside : Fault) : Change Nat := do
  let i ← index (.badListIndex i.typeName) i
  match place? (← ask (·.list l)).size i with
  | some j => pure j
  | none => fail outside

def hashed (v : Val) : Change Val :=
  match Store.unhashable? v with
  | some t => fail (.unhashable t)
  | none => pure v

def item : Val → Val → Change Val
  | .list l, i => do
    let j ← listPlace l i (.outOfRange "list")
    ask fun s => (s.list l).getD j .none
  | .str t, i => do
    let i ← index (.badTextIndex i.typeName) i
    match (place? t.length i).bind (t.toList[·]?) with
    | some c => pure (.str (String.ofList [c]))
    | none => fail (.outOfRange "str")
  | .table t, k => do
    let k ← hashed k
    match ← ask (fun s => s.findEntry? k (s.table t)) with
    | some v => pure v
    | none => raise .key [k]
  | v, _ => fail (.notIndexable v.typeName)

def nth : List Val → Change Val
  | [v, i] => item v i
  | _ => fail (.badOperands "nth")

def length : List Val → Change Val
  | [.list l] => do pure (.int (← ask (·.list l)).size)
  | [.table t] => do pure (.int (← ask (·.table t)).length)
  | [.str t] => pure (.int t.length)
  | v :: _ => fail (.noLength v.typeName)
  | [] => fail (.badOperands "len")

/-- What a value holds one after the other, unless it has to run to tell. -/
def elements? (s : Store) : Val → Option (List Val)
  | .list l => some (s.list l).toList
  | .table t => some ((s.table t).map Prod.fst)
  | .str t => some (t.toList.map fun c => .str (String.ofList [c]))
  | _ => none

/-! ## Changing -/

def setList (l : Nat) (f : Array Val → Array Val) : Change Val := do
  modify fun s => { s with lists := s.lists.modify l f }
  pure .none

def push : List Val → Change Val
  | [.list l, v] => setList l (·.push v)
  | v :: _ => fail (.noField v "append")
  | [] => fail (.badOperands "push")

def cellGet : List Val → Change Val
  | [.cell c] => ask (·.cell c)
  | v :: _ => fail (.noField v "value")
  | [] => fail (.badOperands "get")

def cellPut : List Val → Change Val
  | [.cell c, v] => do
    modify fun s => { s with cells := s.cells.modify c fun _ => v }
    pure .none
  | v :: _ => fail (.noField v "value")
  | [] => fail (.badOperands "put")

/-- The entries of a table that is given as keys and values in turn. -/
def entries (acc : List (Val × Val)) : List Val → Change (List (Val × Val))
  | k :: v :: rest => do
    let k ← hashed k
    let s ← get
    entries (s.insertEntry k v acc) rest
  | _ => pure acc

def setTable (t : Nat) (f : Store → List (Val × Val) → List (Val × Val)) : Change Val := do
  modify fun s => { s with tables := s.tables.modify t (f s) }
  pure .none

def tableSet : List Val → Change Val
  | [.table t, k, v] => do
    let k ← hashed k
    setTable t fun s => s.insertEntry k v
  | [.list l, i, v] => do
    let j ← listPlace l i .assignmentOutOfRange
    setList l (·.setIfInBounds j v)
  | v :: _ => fail (.notAssignable v.typeName)
  | [] => fail (.badOperands "tset")

/-- In an empty table nothing is looked for, so that the key may be anything. -/
def tableDelete : List Val → Change Val
  | [.table t, k] => do
    if (← ask (·.table t)).isEmpty then pure .none
    else
      let k ← hashed k
      setTable t fun s => s.eraseEntry k
  | .list _ :: _ => fail .popSurplus
  | v :: _ => fail (.noField v "pop")
  | [] => fail (.badOperands "tdel")

end OneShot.Data
