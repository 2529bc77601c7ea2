import OneShot.Proofs.Joined.Language

/-!
# Programs over one stack, as guests

Code as a guest of the kernel.  A computation is a generator function; a request
delegates to the generator that the library gives for it.  The guest keeps which
continuation has which number, and which computation and coroutine each function
that it hands to the library stands for.
-/

namespace OneShot.Joined

open Deep (Failure Result)

variable {c : Code}

/-! ## Values of the library -/

def thunk (i : Nat) : Val := .closure (5 * i) "computation"

def clause (j : Nat) : Val := .closure (5 * j + 2) "clause"

def coroutine (i : Nat) : Val := .closure (5 * i + 3) "coroutine"

def Layer.handler (l : Layer) : Handler where
  id := l.id
  onReturn :=
    match l.onReturn with
    | none => .native .identity
    | some i => .closure (5 * i + 1) "on_return"
  clauses := l.clauses.map fun p => (plainEffect p.1, clause p.2)

def stateEffect (n : Nat) : StateEffect where
  get := getEffect n
  put := putEffect n
  handler := ⟨n, StateEffect.onDone,
    [(getEffect n, StateEffect.onGet), (putEffect n, StateEffect.onPut)]⟩

def awaiter (n : Nat) : Awaiter where
  effect := awaitEffect n
  async := ⟨n, .native .identity, [(awaitEffect n, .native .onAwaitAsync)]⟩
  blocking := ⟨n, .native .identity, [(awaitEffect n, .native .onAwaitBlocking)]⟩

def prompt (n : Nat) : Prompt where
  shift := shiftEffect n
  handler := ⟨n, .native .identity, [(shiftEffect n, .native .applyBody)]⟩

/-- The function that puts a computation under a scope: a handler, a function, or a method. -/
def Scope.value : Scope → Val
  | .handle l => .handler l.handler
  | .state i => .closure (5 * i + 4) "run"
  | .await n true => .native (.method n (.awaiter (awaiter n)) "blocking")
  | .await n false => .native (.method n (.awaiter (awaiter n)) "async_")
  | .reset n => .native (.method n (.prompt (prompt n)) "reset")
  | .nothing => .native .identityWrap

def Wrap.value : Wrap → Val
  | .scope w => w.value
  | .combined id head inner => .native (.combined id head.value inner.value)

def Operation.args {τ : Type} : Operation τ → List Val
  | .ask _ args => args
  | .put _ v => [v]
  | .shift _ j => [clause j]
  | _ => []

/-! ## Bodies -/

/-- What is done with the generator that a request gives. -/
inductive After (σ : Type) where
  | pass
  | delegate (s : σ)

inductive Body (c : Code) where
  | answering (r : Result)
  | asking (q : Request c.State)
  /-- Makes a generator, and puts it under wraps. -/
  | making (ws : List Wrap) (computation : Val)
  | made (ws : List Wrap)
  | wrapping (w : Wrap) (computation : Val)
  /-- Runs a state. -/
  | keeping (n : Nat) (v computation : Val)
  | asked (n : After c.State)
  | waiting (s : c.State)
  | going (s : c.State) (a : Deep.Answer)
  /-- Waits for the record to yield. -/
  | yielding (s : c.State)
  /-- Waits for the coroutine to await. -/
  | awaiting (n : Nat) (s : c.State)
  | task (t : c.Task)
  /-- Waits for the coroutine to run. -/
  | completing
  | passing

/-- What a function of a computation makes a generator of. -/
inductive Source (c : Code) where
  | code (s : c.State)
  /-- Likewise, but the generator is made before it is put under wraps. -/
  | making (s : c.State)
  | object (g : Gen)

structure Memo (c : Code) where
  memory : Memory c
  handles : List Cont
  thunks : List (List Wrap × Source c)
  tasks : List c.Task

namespace Memo

def newThunk (m : Memo c) (ws : List Wrap) (o : Source c) : Memo c × Val :=
  ({ m with thunks := m.thunks ++ [(ws, o)] }, thunk m.thunks.length)

/-- What wraps are applied to: a generator object stands for itself. -/
def computation (m : Memo c) (ws : List Wrap) (o : Source c) : Memo c × Val :=
  match ws, o with
  | [], .object g => (m, .gen g)
  | ws, o => m.newThunk ws o

def newTask (m : Memo c) (t : c.Task) : Memo c × Val :=
  ({ m with tasks := m.tasks ++ [t] }, coroutine m.tasks.length)

end Memo

def Comp.source (p : Comp c.State) : Source c := if p.made then .making p.body else .code p.body

namespace Body

/-- A continuation that cannot be resumed. -/
def refused : After c.State → Turn (Body c)
  | .pass => .raise resumedTwice.exc
  | .delegate s => .more (.going s (.failed resumedTwice))

def request (m : Memo c) (n : After c.State) : Request c.State → Memo c × Turn (Body c)
  | .resume k b =>
      match m.handles[k]? with
      | some k => (m, .ask (b.call k) (.asked n))
      | none => (m, refused n)
  | .run p =>
      ((m.newThunk p.wraps p.source).1, .ask (.call (m.newThunk p.wraps p.source).2 []) (.asked n))

def act (m : Memo c) : Act c.State c.Task → Memo c × Turn (Body c)
  | .done r => (m, r.turn)
  | .again b s => (m, .more (.going s b))
  | .perform (.await n t) s => ((m.newTask t).1, .ask (.call (m.newTask t).2 []) (.awaiting n s))
  | .perform (.shift n j) s =>
      (m, .ask (.call (.native (.service .shift)) [.prompt (prompt n), clause j])
        (.asked (.delegate s)))
  | .perform o s => (m, .ask (.call (.effect o.effect) o.args) (.yielding s))
  | .escape t s =>
      ((m.newTask t).1,
        .ask (.call (.native (.service (.build .escape))) [(m.newTask t).2]) (.yielding s))
  | .call q s => request m (.delegate s) q

/-- Runs the code of a computation. -/
def run (m : Memo c) (s : c.State) (a : Deep.Answer) : Memo c × Turn (Body c) :=
  act { m with memory := (m.memory.step s a).1 } (m.memory.step s a).2

def step (m : Memo c) : Body c → Reply → Memo c × Turn (Body c)
  | .answering r, _ => (m, r.turn)
  | .asking q, _ => request m .pass q
  | .making ws v, _ => (m, .ask (.call v []) (.made ws))
  | .made [], .value g => (m, .done g)
  | .made (w :: ws), .value (.gen g) =>
      ((m.computation ws (.object g)).1,
        .ask (.call w.value [(m.computation ws (.object g)).2]) (.asked .pass))
  | .wrapping w v, _ => (m, .ask (.call w.value [v]) (.asked .pass))
  | .keeping n v p, _ =>
      (m, .ask (.call (.native (.service .runState)) [.state (stateEffect n), v, p])
        (.asked .pass))
  | .asked .pass, .value g => (m, .done g)
  | .asked (.delegate s), .value g => (m, .ask (.delegate g) (.waiting s))
  | .asked n, .raised _ => (m, refused n)
  | .waiting s, r =>
      match Deep.Answer.ofReply? r, r with
      | some a, _ => run m s a
      | none, .raised x => ({ m with memory := m.memory.exit s }, .raise x)
      | none, _ => (m, .done .none)
  | .going s a, _ => run m s a
  | .yielding s, .value v => (m, .ask (.yield v .direct) (.waiting s))
  | .awaiting n s, .value v =>
      (m, .ask (.call (.native (.service .awaitEffect)) [.awaiter (awaiter n), v])
        (.asked (.delegate s)))
  | .task t, .value _ =>
      ({ m with memory := (m.memory.task t).1 },
        match (m.memory.task t).2 with
        | .pause t => .ask (.yield .none .pause) (.task t)
        | .done (.value v) => .done v
        | .done (.failed x) => .raise x.exc)
  | .completing, .value g => (m, .ask (.call (.native (.service .complete)) [g]) .passing)
  | _, .raised x => (m, .raise x)
  | _, .value v | _, .yielded v => (m, .done v)

end Body

/-- What the entry into a return handler or a clause comes to. -/
def entryOf : Opening c.State → OneShot.Entry (Body c)
  | .result r => .run (.answering r)
  | .request q => .run (.asking q)

/-- The call of a function of a computation. -/
def enterThunk (m : Memo c) : List Wrap × Source c → Memo c × OneShot.Entry (Body c)
  | ([], .code s) => (m, .spawn .generator (.waiting s))
  | (ws, .making s) =>
      ((m.newThunk [] (.code s)).1, .run (.making ws (m.newThunk [] (.code s)).2))
  | (w :: ws, o) => ((m.computation ws o).1, .run (.wrapping w (m.computation ws o).2))
  | ([], .object _) => (m, .fault (.notCallable "generator"))

/--
The functions by their numbers: of computations, return handlers, clauses,
coroutines, and those that run states.
-/
def enter (m : Memo c) (id : Nat) (args : List Val) : Memo c × OneShot.Entry (Body c) :=
  match id % 5, args with
  | 0, _ =>
      match m.thunks[id / 5]? with
      | some p => enterThunk m p
      | none => (m, .fault (.notCallable "function"))
  | 1, [v] =>
      ({ m with memory := (m.memory.onReturn (id / 5) v).1 },
        entryOf (m.memory.onReturn (id / 5) v).2)
  | 2, .cont k :: args =>
      ({ m with
        memory := (m.memory.clause (id / 5) m.handles.length args).1
        handles := m.handles ++ [k] },
        entryOf (m.memory.clause (id / 5) m.handles.length args).2)
  | 3, _ =>
      match m.tasks[id / 5]? with
      | some t => (m, .spawn .coroutine (.task t))
      | none => (m, .fault (.notCallable "function"))
  | 4, [v] =>
      (m, .run (.keeping (c.init (id / 5) m.memory.data).1 (c.init (id / 5) m.memory.data).2 v))
  | _, _ => (m, .fault (.notCallable "function"))

/-- The guest that runs code. -/
@[reducible]
def guest (c : Code) : Guest where
  Memory := Memo c
  Body := Body c
  enter := enter
  step := Body.step

/--
The call that runs a computation from a fresh state.  An asynchronous driver
gives a coroutine, which is run to its end.
-/
def start (async : Bool) (p : Comp c.State) (d : c.Memory) (settings : Settings) :
    OneShot.Config (guest c) where
  world := ⟨.initial settings, #[], ⟨⟨d, []⟩, [], [(p.wraps, p.source)], []⟩⟩
  stack := if async then [.calling (.guest .completing)] else []
  signal := .call (.native (.service (if async then .executeAsync else .execute))) [thunk 0]
    .program

end OneShot.Joined
