import OneShot.Script.Body
import OneShot.Script.Reader

/-!
# Sessions

A script is a list of steps that share their variables and the state of the
engine.  Each step has an answer: the value of an expression, nothing for a
statement, or the exception that ended it; and the events of its run.
-/

namespace OneShot.Script

inductive Ending where
  | value (d : Datum)
  | error (kind message : String)
  /-- The step did not end within the bound on steps. -/
  | endless

structure Answer where
  ending : Ending
  events : List Event

/-- Far more kernel steps than a script can take in practice. -/
def stepBound : Nat := 1000000000000

/-- The globals are the first scope. -/
def globalScope : Nat := 0

def bodyOf : Stmt → Body
  | .expr e => ⟨.eval e, [], globalScope⟩
  | s => ⟨.exec [s], [], globalScope⟩

def answerStep (w : World language) (s : Stmt) : World language × Answer :=
  let start : Config language := ⟨w, [.calling (.guest (bodyOf s))], .reply (.value .none)⟩
  match start.run stepBound with
  | none => (w, ⟨.endless, []⟩)
  | some (w, r) =>
    let ending : Ending :=
      match r with
      | .value v | .yielded v => .value (w.store.datum v)
      | .raised x => .error x.kind.text (w.store.message x)
    let events := w.store.events.reverse
    ({ w with store := { w.store with events := [] } }, ⟨ending, events⟩)

def answerSteps (w : World language) : List Stmt → List Answer
  | [] => []
  | s :: ss =>
    let (w, a) := answerStep w s
    a :: answerSteps w ss

/-- The answers of a script that is run from a fresh state. -/
def answers (c : Settings) (fs : List Form) : Read (List Answer) := do
  let ss ← fs.mapM read
  return answerSteps ⟨Store.initial c, #[], Memory.initial⟩ ss

end OneShot.Script
