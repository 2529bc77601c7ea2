import OneShot.Change

/-!
# Making handlers and wraps
-/

namespace OneShot

open Change

namespace Handler

/-- The keys of a clause table must be effects. -/
def clauseKey : Val → Change Effect
  | .effect e => pure e
  | v => fail (.clauseKey v.typeName)

/-- The clauses that a value stands for; besides tables, whatever holds no keys will do. -/
def clausesOf : Val → Change (List (Effect × Val))
  | .table t => do
    (← ask (·.table t)).mapM fun e => return (← clauseKey e.1, e.2)
  | .list l => do
    let keys ← (← ask (·.list l)).toList.mapM clauseKey
    if keys.isEmpty then pure [] else fail .notPairs
  | .str t => do
    let keys ← t.toList.mapM fun c => clauseKey (.str (String.ofList [c]))
    if keys.isEmpty then pure [] else fail .notPairs
  | v => fail (.notIterable v.typeName)

/-- A return handler that counts as false stands for the identity. -/
def make (onReturn table : Val) : Change Val := do
  let clauses ← clausesOf table
  let onReturn := if ← isFalse onReturn then .native .identity else onReturn
  return .handler ⟨← Change.make (·.freshId), onReturn, clauses⟩

end Handler

/-- The wrap that applies the given wraps, the last one innermost. -/
def combineWraps : List Val → Change Val
  | [] => pure (.native .identityWrap)
  | head :: rest => do
    let inner ← combineWraps rest
    return .native (.combined (← make (·.freshId)) head inner)

end OneShot
