import OneShot.Data
import OneShot.Record
import OneShot.Site
import OneShot.State
import OneShot.Prompt
import OneShot.Await

/-!
# Operations

`apply` is the meaning of every function that answers at once.
-/

namespace OneShot.Op

open Change

def apply : Op → List Val → Change Val
  | .add, args => Data.add args
  | .subtract, args => Data.arithmetic "-" (fun a b => pure (.int (a - b))) args
  | .multiply, args => Data.arithmetic "*" (fun a b => pure (.int (a * b))) args
  | .floorDivide, args =>
    Data.arithmetic "//"
      (fun a b => if b = 0 then fail .divisionByZero else pure (.int (a.fdiv b))) args
  | .less, args => Data.arithmetic "<" (fun a b => pure (.bool (a < b))) args
  | .negate, [v] => return .bool (← isFalse v)
  | .truth, [v] => return .bool !(← isFalse v)
  | .equal, [v, w] => return .bool (← ask (·.equal v w))
  | .same, [v, w] => pure (.bool (v.same w))
  | .list, args => Change.list args
  | .nth, args => Data.nth args
  | .length, args => Data.length args
  | .push, args => Data.push args
  | .cell, [v] => make (·.newCell v)
  | .cellGet, args => Data.cellGet args
  | .cellPut, args => Data.cellPut args
  | .table, args => do
    let es ← Data.entries [] args
    make (·.newTable es)
  | .tableSet, args => Data.tableSet args
  | .tableDelete, args => Data.tableDelete args
  | .str, [v] => return .str (← ask (·.str v))
  | .repr, [v] => return .str (← ask (·.repr v))
  | .typeName, [v] => pure (.str v.typeName)
  | .trace, args => do
    modify fun s => s.emit (.trace (args.map s.datum))
    pure .none
  | .exception k, args => Record.exception k args
  | .field, [v, name] => Record.visibleField v name
  | .effect, args => return .effect (← make (·.freshEffect (args.headD (.str ""))))
  | .handler, [e, onReturn, clause] => do
    let e ← Data.hashed e
    let t ← make (·.newTable [(e, clause)])
    Handler.make onReturn t
  | .combine, args => combineWraps args
  | .createState, _ => return .state (← make (·.newState))
  | .createPrompt, _ => return .prompt (← make (·.newPrompt))
  | .createAwaiter, _ => return .awaiter (← make (·.newAwaiter))
  | .isInvocation, [v] => pure (.bool v.isInvocation)
  | .formatContext, [v] => return .str (← placeText v)
  | .frames, [.cont k] => Record.describeFrames k
  | .frames, v :: _ => fail (.noField v "frames")
  | .markConsumed, [.cont k] => do
    if ← make (·.take k) then pure .none
    else throw (← make (·.doubleResumeError (.cont k)))
  | .markConsumed, v :: _ => fail (.noField v "mark_consumed")
  | .capture, [skip, sites] => Site.capture skip sites
  | .envFlag, args => Site.flag (args.headD .none)
  | _, args => fail (.misused (commaSeparated (args.map Val.typeName)))

end OneShot.Op
