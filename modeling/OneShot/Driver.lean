import OneShot.Machine

/-!
# Drivers

`execute` runs a computation in a machine without handlers and returns its
result.  `executeAsync` does so in a coroutine that satisfies the escapes of
the computation: it awaits what the action of an escape gives, and sends the
outcome back in.  Whatever else reaches a driver is an error; everything
captured by it and the machine are closed first, topmost generator first.
-/

namespace OneShot

namespace Driver

def asyncHint : String := "computations that await external sources must run with execute_async()"

/-- What to close when `op` reaches the driver of the machine `g`. -/
def abandoned (s : Store) (g : Gen) : Val → List Val
  | .resend _ ⟨_, _, .cont k, _⟩ => (s.frames k).filterMap Val.framed? ++ [.gen g]
  | _ => [.gen g]

/-- The error for an effect that reached the top, or what went wrong in composing it. -/
def uncaught (s : Store) (op effect context : Val) : Store × Exc :=
  let s := s.note .driver fun _ => "uncaught effect " ++ s.str effect ++ " reached the top"
  match (uncaughtEffectError op effect context).run s with
  | (.ok x, s) | (.error x, s) => (s, x)

/-- The error for a suspension that a driver cannot answer. -/
def escapedError (s : Store) (op : Val) : Store × Exc :=
  match op with
  | .invocation _ i => uncaught s op i.effect i.context
  | .resend _ r => uncaught s op r.effect r.context
  | .escape .. => s.invalidInvocationError op (.str asyncHint)
  | _ => s.invalidInvocationError op .none

/-- Closes what is abandoned, one after the other, then raises the error for `op`. -/
def abandon {σ : Type} (waiting : List Val → σ) (s : Store) (op : Val) :
    List Val → Store × Turn σ
  | [] =>
    let (s, x) := escapedError s op
    (s, .raise x)
  | v :: rest => (s, .ask (.closing v) (waiting rest))

end Driver

namespace Execute

inductive Phase where
  | start (computation : Val)
  /-- Waits for the computation's generator. -/
  | converting
  | launching
  | running (machine : Gen)
  | abandoning (op : Val) (rest : List Val)

/-- The call that makes the generator of a machine without handlers on top of `g`. -/
def launch (s : Store) (g : Gen) : Store × Ask :=
  let (s, t) := s.freshTag
  let (s, m) := s.newMachine (.own [.frame (.generator (.gen g) t)]) .none
  (s, .call (.native (.service .runMachine)) [.machine m])

def convert (computation : Val) : Ask := .call (.native (.service .toGenerator)) [computation]

def step (s : Store) : Phase → Reply → Store × Turn Phase
  | .start c, _ => (s, .ask (convert c) .converting)
  | .converting, .value (.gen g) =>
    let (s, a) := launch s g
    (s, .ask a .launching)
  | .launching, .value (.gen g) => (s, .ask (.advance g (.send .none)) (.running g))
  | .running _, .value v =>
    (s.note .driver fun _ => "execute completed with " ++ s.repr v, .done v)
  | .running g, .yielded op => Driver.abandon (.abandoning op) s op (Driver.abandoned s g op)
  | .abandoning op rest, .value _ => Driver.abandon (.abandoning op) s op rest
  | _, .raised x => (s, .raise x)
  | _, .value v | _, .yielded v => (s, .done v)

end Execute

namespace ExecuteAsync

inductive Phase where
  | start (computation : Val)
  | converting
  | launching
  | running (machine : Gen) (escapes : Nat)
  /-- Waits for the action of an escape to give an awaitable. -/
  | acting (machine : Gen) (escapes : Nat)
  /-- Waits for the awaitable. -/
  | awaiting (machine : Gen) (escapes : Nat)
  /-- Has given way to other tasks before passing the outcome in. -/
  | pausing (machine : Gen) (escapes : Nat) (outcome : Input)
  | abandoning (op : Val) (rest : List Val)

def pause (g : Gen) (n : Nat) (outcome : Input) : Turn Phase :=
  .ask (.yield .none .pause) (.pausing g n outcome)

/-- An exception of an awaitable goes back into the computation. -/
def awaitFailed (s : Store) (g : Gen) (n : Nat) (x : Exc) : Store × Turn Phase :=
  if x.isException then
    (s.note .driver fun _ => s!"escape {n}: awaitable failed with " ++ s.repr (.exc x),
      pause g n (.throw (.exc x)))
  else (s, .raise x)

def step (s : Store) : Phase → Reply → Store × Turn Phase
  | .start c, _ => (s, .ask (Execute.convert c) .converting)
  | .converting, .value (.gen g) =>
    let (s, a) := Execute.launch s g
    (s, .ask a .launching)
  | .launching, .value (.gen g) => (s, .ask (.advance g (.send .none)) (.running g 0))
  | .running _ n, .value v =>
    (s.note .driver fun _ =>
      "execute_async completed with " ++ s.repr v ++ s!" after {n} escapes", .done v)
  | .running g n, .yielded (.escape _ action) =>
    (s.note .driver fun _ => s!"escape {n + 1}: awaiting " ++ s.repr action,
      .ask (.call action []) (.acting g (n + 1)))
  | .running g _, .yielded op => Driver.abandon (.abandoning op) s op (Driver.abandoned s g op)
  | .acting g n, .value v => (s, .ask (.await v) (.awaiting g n))
  | .acting g n, .raised x => awaitFailed s g n x
  | .awaiting g n, .value v => (s, pause g n (.send v))
  | .awaiting g n, .raised x => awaitFailed s g n x
  | .pausing g n outcome, .value _ => (s, .ask (.advance g outcome) (.running g n))
  | .abandoning op rest, .value _ => Driver.abandon (.abandoning op) s op rest
  | _, .raised x => (s, .raise x)
  | _, .value v | _, .yielded v => (s, .done v)

end ExecuteAsync

end OneShot
