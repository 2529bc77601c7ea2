import OneShot.Display
import OneShot.Turn

/-!
# State

A state consists of two effects, `get` and `put`.  Its handler does not hold
the value: its clauses only report which operation was performed, with the
continuation, and the loop around the handled computation answers the reports,
keeping the value as its own.
-/

namespace OneShot

namespace StateLoop

inductive Phase where
  | start (handler : Handler) (value computation : Val)
  /-- Waits for the generator to delegate to. -/
  | entering (value : Val)
  /-- Delegates, and waits for a report. -/
  | stepping (value : Val)

/-- Answers a report, or returns the result. -/
def answer (value : Val) : Val → Turn Phase
  | .report _ (.done v) => .done v
  | .report _ (.get k) => .ask (.call k [value]) (.entering value)
  | .report _ (.put k v) => .ask (.call k []) (.entering v)
  | .exc x =>
    match x.detail with
    | .invalid _ => .fault (.noField (.exc x) "k")
    | _ => .fault (.noField (.exc x) (if x.kind = .stopIteration then "k" else "value"))
  | .resumption id r => .fault (.noField (.resumption id r) "k")
  | v => .fault (.noField v "value")

def step (s : Store) : Phase → Reply → Store × Turn Phase
  | .start h v c, _ => (s, .ask (.call (.handler h) [c]) (.entering v))
  | .entering v, .value g => (s, .ask (.delegate g) (.stepping v))
  | .stepping v, .value r => (s, answer v r)
  | _, .raised x => (s, .raise x)
  | _, .yielded v => (s, .done v)

end StateLoop

namespace StateEffect

def onGet : Val := .native (.report .get)

def onPut : Val := .native (.report .put)

def onDone : Val := .native (.report .done)

end StateEffect

/-- A new state: two effects, and the handler that reports them. -/
def Store.newState (s : Store) : Store × StateEffect :=
  let (s, get) := s.freshEffect (.str "State#get")
  let (s, put) := s.freshEffect (.str "State#put")
  let (s, id) := s.freshId
  (s, ⟨get, put, id, StateEffect.onDone,
    [(get, StateEffect.onGet), (put, StateEffect.onPut)]⟩)

end OneShot
