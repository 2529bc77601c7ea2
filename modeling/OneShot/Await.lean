import OneShot.Display
import OneShot.Turn

/-!
# Awaiting

One effect and two handlers for it.  The asynchronous clause suspends the whole
computation with an escape whose action awaits the awaitable; the blocking
clause runs the awaitable on a loop of its own.  Both resume the continuation
with the outcome, an exception included.
-/

namespace OneShot

namespace AwaitClause

inductive Phase where
  | start (cont awaitable : Val) (blocking : Bool)
  /-- Waits for the outcome of the awaitable. -/
  | waiting (cont : Val)
  /-- Waits for the generator that resumes the continuation. -/
  | resuming
  | delegating

def step (s : Store) : Phase → Reply → Store × Turn Phase
  | .start k a true, _ => (s, .ask (.call (.native (.service .awaitNow)) [a]) (.waiting k))
  | .start k a false, _ =>
    let (s, action) := s.freshId
    let (s, id) := s.freshId
    (s, .ask (.yield (.escape id (.native (.awaiting action a))) .direct) (.waiting k))
  | .waiting k, .value v => (s, .ask (.call k [v]) .resuming)
  | .waiting k, .raised x =>
    if x.isException then
      (s, .ask (.call (.native (.service .throwInto)) [k, .exc x]) .resuming)
    else (s, .raise x)
  | .resuming, .value g => (s, .ask (.delegate g) .delegating)
  | .delegating, .value v => (s, .done v)
  | _, .raised x => (s, .raise x)
  | _, .yielded v => (s, .done v)

end AwaitClause

/-- A new awaiter: its effect and the two handlers. -/
def Store.newAwaiter (s : Store) : Store × Awaiter :=
  let (s, e) := s.freshEffect (.str "AsyncAwait#await")
  let (s, i) := s.freshId
  let (s, j) := s.freshId
  (s, ⟨e, ⟨i, .native .identity, [(e, .native .onAwaitAsync)]⟩,
    ⟨j, .native .identity, [(e, .native .onAwaitBlocking)]⟩⟩)

end OneShot
