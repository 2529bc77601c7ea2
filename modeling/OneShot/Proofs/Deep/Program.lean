import OneShot.Proofs.Deep.Computation

/-!
# Programs of computations

Code of computations as a guest of the kernel.  A computation, a clause and a
return handler is a generator function or a plain function.  An effect is
performed by calling it and yielding the invocation; a continuation is resumed
by calling it, or throwing into it, and delegating to the generator that this
gives.
-/

namespace OneShot.Deep

namespace Answer

def reply : Answer → Reply
  | .value v => .value v
  | .failed x => .raised x.exc

def input : Answer → Input
  | .value v => .send v
  | .failed x => .throw (.exc x.exc)

def outcome : Answer → Outcome
  | .value v => .ok v
  | .failed x => .failed (.exc x.exc)

/-- The request to resume a continuation with an answer. -/
def call (k : Cont) : Answer → Ask
  | .value v => .call (.cont k) [v]
  | .failed x => .call (.native (.service .throwInto)) [.cont k, .exc x.exc]

/-- What a reply is to a computation; exits are none of its business. -/
def ofReply? : Reply → Option Answer
  | .value v => some (.value v)
  | .raised x =>
      if h : x.isException = true ∧ x.kind ≠ .stopIteration then some (.failed ⟨x, h.1, h.2⟩)
      else none
  | .yielded _ => none

@[simp] theorem ofReply?_reply (a : Answer) : ofReply? a.reply = some a := by
  cases a with
  | value v => rfl
  | failed x => exact dif_pos ⟨x.isException, x.noStop⟩

end Answer

/-- The functions of a layer as values of the kernel. -/
def Layer.handler (l : Layer) : Handler where
  id := l.id
  onReturn :=
    match l.onReturn with
    | none => .native .identity
    | some i => .closure (3 * i + 1) "on_return"
  clauses := l.clauses.map fun p => (p.1, .closure (3 * p.2 + 2) "clause")

theorem Layer.clause?_handler (l : Layer) (e : Effect) :
    l.handler.clause? e = (l.clause? e).map fun j => .closure (3 * j + 2) "clause" := by
  simp only [Handler.clause?, Layer.handler, Layer.clause?, List.find?_map, Option.map_map]
  rfl

theorem Layer.owns_handler (l : Layer) (e : Effect) :
    l.handler.owns e = (l.clause? e).isSome := by
  simp [Handler.owns, clause?_handler]

def Result.turn {σ : Type} : Result → Turn σ
  | .value v _ => .done v
  | .failed x => .raise x.exc

/-- A suspended computation; a clause comes with the continuation that it holds. -/
inductive State (c : Code) where
  | plain (s : c.Plain)
  | holding (s : c.Holding) (k : Cont)

inductive Body (c : Code) where
  /-- Applies a handler to the function of the next level. -/
  | wrapping (l : Layer) (level : Nat)
  | answering (r : Result)
  | resuming (k : Cont) (b : Answer)
  /-- Hands on whatever comes. -/
  | passing
  | waiting (q : State c)
  /-- Waits for the invocation to yield. -/
  | invoking (q : State c)
  /-- Waits for the generator to delegate to. -/
  | requesting (s : c.Plain)

variable {c : Code}

namespace Body

def act : State c → Answer → Turn (Body c)
  | .plain s, a =>
      match c.plain s a with
      | .done r => r.turn
      | .perform e args s => .ask (.call (.effect e) args) (.invoking (.plain s))
  | .holding s k, a =>
      match c.holding s a with
      | .act (.done r) => r.turn
      | .act (.perform e args s) => .ask (.call (.effect e) args) (.invoking (.holding s k))
      | .resume b s => .ask (b.call k) (.requesting s)

def step : Body c → Reply → Turn (Body c)
  | .wrapping l level, _ =>
      .ask (.call (.handler l.handler) [.closure (3 * level) "computation"]) .passing
  | .answering r, _ => r.turn
  | .resuming k b, _ => .ask (b.call k) .passing
  | .passing, .value v | .passing, .yielded v => .done v
  | .waiting q, r =>
      match Answer.ofReply? r, r with
      | some a, _ => act q a
      | none, .raised x => .raise x
      | none, _ => .done .none
  | .invoking q, .value i => .ask (.yield i .direct) (.waiting q)
  | .requesting s, .value g => .ask (.delegate g) (.waiting (.plain s))
  | _, .raised x => .raise x
  | _, _ => .done .none

end Body

/--
The functions by their numbers: of the levels of the program, the last of which
is the computation, of return handlers and of clauses.
-/
def enter (layers : List Layer) (s : c.Plain) (id : Nat) (args : List Val) : Entry (Body c) :=
  match id % 3, args with
  | 0, _ =>
      match layers[id / 3]? with
      | some l => .run (.wrapping l (id / 3 + 1))
      | none => .spawn .generator (.waiting (.plain s))
  | 1, [v] =>
      match c.onReturn (id / 3) v with
      | .result r => .run (.answering r)
      | .run s => .spawn .generator (.waiting (.plain s))
  | 2, .cont k :: args =>
      match c.clause (id / 3) args with
      | .result r => .run (.answering r)
      | .resume b => .run (.resuming k b)
      | .run s => .spawn .generator (.waiting (.holding s k))
  | _, _ => .fault (.notCallable "function")

/-- The guest that runs a computation under layers of handlers, outermost first. -/
@[reducible]
def guest (c : Code) (layers : List Layer) (s : c.Plain) : Guest where
  Memory := Unit
  Body := Body c
  enter m id args := (m, enter layers s id args)
  step m b r := (m, b.step r)

section Entering

variable (layers : List Layer) (s : c.Plain)

theorem enter_level (i : Nat) :
    enter layers s (3 * i) [] =
      match layers[i]? with
      | some l => .run (.wrapping l (i + 1))
      | none => .spawn .generator (.waiting (.plain s)) := by
  have third : 3 * i % 3 = 0 := by omega
  have level : 3 * i / 3 = i := by omega
  simp only [enter, third, level]

theorem enter_onReturn (i : Nat) (v : Val) :
    enter layers s (3 * i + 1) [v] =
      match c.onReturn i v with
      | .result r => .run (.answering r)
      | .run s => .spawn .generator (.waiting (.plain s)) := by
  have third : (3 * i + 1) % 3 = 1 := by omega
  have number : (3 * i + 1) / 3 = i := by omega
  simp only [enter, third, number]

theorem enter_clause (j : Nat) (k : Cont) (args : List Val) :
    enter layers s (3 * j + 2) (.cont k :: args) =
      match c.clause j args with
      | .result r => .run (.answering r)
      | .resume b => .run (.resuming k b)
      | .run s => .spawn .generator (.waiting (.holding s k)) := by
  have third : (3 * j + 2) % 3 = 2 := by omega
  have number : (3 * j + 2) / 3 = j := by omega
  simp only [enter, third, number]

end Entering

/-- The call that runs the program from a fresh state. -/
def start (c : Code) (layers : List Layer) (s : c.Plain) (settings : Settings) :
    Config (guest c layers s) where
  world := ⟨Store.initial settings, #[], ()⟩
  stack := []
  signal := .call (.native (.service .execute)) [.closure 0 "computation"] .program

end OneShot.Deep
