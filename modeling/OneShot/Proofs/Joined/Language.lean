import OneShot.Proofs.Deep.Program

/-!
# Programs over one stack

Programs that perform effects, handle them, keep the continuations that their
clauses get in any way they like, run states, reset and shift, await, combine
what puts computations under something, and escape to the driver.  Their
semantics has one stack for all machines: what the engine spreads over machines,
slices and relays is joined here.

Code keeps a memory of its own.  It knows a continuation by its number, in the
order in which its clauses are called.  What code is run, with what, and which
operations it performs, is logged.
-/

namespace OneShot.Joined

open Deep (Failure Result)

/-! ## Code -/

/-- A handler by the numbers of its effects and functions. -/
structure Layer where
  id : Nat
  onReturn : Option Nat
  clauses : List (Nat × Nat)

def Layer.clause? (l : Layer) (e : Nat) : Option Nat :=
  (l.clauses.find? fun c => c.1 == e).map Prod.snd

/-- What a computation is put under. -/
inductive Scope where
  | handle (l : Layer)
  /-- The state that a function of the program runs. -/
  | state (i : Nat)
  | await (n : Nat) (blocking : Bool)
  | reset (n : Nat)
  /-- What the combination of no wraps puts a computation under. -/
  | nothing

/-- What puts a computation under scopes. -/
inductive Wrap where
  | scope (w : Scope)
  | combined (id : Nat) (head inner : Wrap)

/-- The scopes of a wrap, outermost first. -/
def Wrap.scopes : Wrap → List Scope
  | .scope w => [w]
  | .combined _ head inner => head.scopes ++ inner.scopes

/--
A computation under wraps, outermost first: a function that makes a generator, or
a generator that is made before.
-/
structure Comp (σ : Type) where
  wraps : List Wrap
  made : Bool
  body : σ

def Comp.scopes {σ : Type} (p : Comp σ) : List Scope := p.wraps.flatMap Wrap.scopes

/-- What gives a generator to delegate to. -/
inductive Request (σ : Type) where
  | resume (k : Nat) (b : Deep.Answer)
  | run (p : Comp σ)

/-- What the call of a return handler or a clause comes to. -/
inductive Opening (σ : Type) where
  | result (r : Result)
  | request (q : Request σ)

inductive Operation (τ : Type) where
  | ask (e : Nat) (args : List Val)
  | get (n : Nat)
  | put (n : Nat) (v : Val)
  | await (n : Nat) (t : τ)
  /-- With a body that is a function of the program, called like a clause. -/
  | shift (n j : Nat)

/-- What a computation does next. -/
inductive Act (σ τ : Type) where
  | done (r : Result)
  /-- Goes on by itself. -/
  | again (b : Deep.Answer) (next : σ)
  | perform (o : Operation τ) (next : σ)
  | escape (t : τ) (next : σ)
  | call (q : Request σ) (next : σ)

/-- What a coroutine does next. -/
inductive Move (τ : Type) where
  | pause (next : τ)
  | done (a : Deep.Answer)

/-- The code of computations, coroutines, return handlers and clauses. -/
structure Code where
  Memory : Type
  State : Type
  Task : Type
  step : Memory → State → Deep.Answer → Memory × Act State Task
  /-- What is done when the computation is closed. -/
  exit : Memory → State → Memory
  task : Memory → Task → Memory × Move Task
  onReturn : Nat → Memory → Val → Memory × Opening State
  /-- A clause gets the number of its continuation. -/
  clause : Nat → Memory → Nat → List Val → Memory × Opening State
  /-- The state that a function runs, and its first value. -/
  init : Nat → Memory → Nat × Val

/-- Code that was run, and operations and escapes that it performed, waiting as `s`. -/
inductive Event (σ τ : Type) where
  | code (s : σ) (a : Deep.Answer)
  | performs (s : σ) (o : Operation τ)
  | escapes (s : σ) (t : τ)
  | exit (s : σ)
  | task (t : τ) (m : Move τ)
  | returns (i : Nat) (v : Val)
  | clause (j k : Nat) (args : List Val)

/-- The memory of code, and the log. -/
structure Memory (c : Code) where
  data : c.Memory
  log : List (Event c.State c.Task)

variable {c : Code}

namespace Memory

/-- Runs code, and notes what was run. -/
def running {α : Type} (m : Memory c) (e : Event c.State c.Task) (f : c.Memory → c.Memory × α) : Memory c × α :=
  (⟨(f m.data).1, m.log ++ [e]⟩, (f m.data).2)

/-- Notes what a computation performs. -/
def noting (m : Memory c) : Act c.State c.Task → Memory c
  | .perform o s => ⟨m.data, m.log ++ [.performs s o]⟩
  | .escape t s => ⟨m.data, m.log ++ [.escapes s t]⟩
  | _ => m

def step (m : Memory c) (s : c.State) (a : Deep.Answer) : Memory c × Act c.State c.Task :=
  let r := m.running (.code s a) fun d => c.step d s a
  (r.1.noting r.2, r.2)

def exit (m : Memory c) (s : c.State) : Memory c :=
  ⟨c.exit m.data s, m.log ++ [.exit s]⟩

def task (m : Memory c) (t : c.Task) : Memory c × Move c.Task :=
  m.running (.task t (c.task m.data t).2) fun d => c.task d t

def onReturn (m : Memory c) (i : Nat) (v : Val) : Memory c × Opening c.State :=
  m.running (.returns i v) fun d => c.onReturn i d v

def clause (m : Memory c) (j k : Nat) (args : List Val) : Memory c × Opening c.State :=
  m.running (.clause j k args) fun d => c.clause j d k args

end Memory

/-! ## Stacks -/

inductive Part (σ : Type) where
  /-- A computation that waits for what is above. -/
  | code (s : σ)
  | layer (l : Layer)
  /-- A state, which the function `i` runs, with its value. -/
  | state (i n : Nat) (v : Val)
  | await (n : Nat) (blocking : Bool)
  | prompt (n : Nat)

def Scope.parts (d : c.Memory) : Scope → List (Part c.State)
  | .handle l => [.layer l]
  | .state i => [.state i (c.init i d).1 (c.init i d).2]
  | .await n blocking => [.await n blocking]
  | .reset n => [.prompt n]
  | .nothing => []

/-- The parts of the stack for scopes, innermost first. -/
def parts (d : c.Memory) : List Scope → List (Part c.State)
  | [] => []
  | w :: ws => parts d ws ++ w.parts d

theorem parts_append (d : c.Memory) (ws ws' : List Scope) :
    parts d (ws ++ ws') = parts d ws' ++ parts d ws := by
  induction ws with
  | nil => simp [parts]
  | cons w ws ih => simp [parts, ih]

/-- How a part of the stack answers an operation. -/
inductive Way (σ τ : Type) where
  | clause (j : Nat) (args : List Val)
  /-- With a value; another part takes its place. -/
  | value (v : Val) (left : Part σ)
  | task (t : τ) (blocking : Bool)

def Part.way? {σ τ : Type} : Part σ → Operation τ → Option (Way σ τ)
  | .layer l, .ask e args => (l.clause? e).map fun j => .clause j args
  | .state i n v, .get n' => if n = n' then some (.value v (.state i n v)) else none
  | .state i n _, .put n' w => if n = n' then some (.value .none (.state i n w)) else none
  | .await n blocking, .await i t => if n = i then some (.task t blocking) else none
  | .prompt n, .shift i j => if n = i then some (.clause j []) else none
  | _, _ => none

/-- A stack at the innermost part that answers an operation. -/
structure Owner (σ τ : Type) where
  above : List (Part σ)
  part : Part σ
  way : Way σ τ
  below : List (Part σ)

/-- Finds the innermost part that answers an operation. -/
def owner? {σ τ : Type} (o : Operation τ) : List (Part σ) → Option (Owner σ τ)
  | [] => none
  | f :: fs =>
      match f.way? o with
      | some way => some ⟨[], f, way, fs⟩
      | none => (owner? o fs).map fun w => { w with above := f :: w.above }

/-! ## Steps -/

inductive Control (σ τ : Type) where
  | code (s : σ) (a : Deep.Answer)
  | result (r : Result)
  /-- A coroutine is run, for which a computation waits. -/
  | task (t : τ) (s : σ)

/-- A captured slice: a computation, and what is below it. -/
abbrev Slice (σ : Type) := σ × List (Part σ)

structure Program (c : Code) where
  memory : Memory c
  /-- Captured slices by number, none for those that were resumed. -/
  slices : List (Option (Slice c.State))
  stack : List (Part c.State)
  control : Control c.State c.Task

/-- What a step comes to. -/
inductive Next (c : Code) where
  | more (J : Program c)
  | finished (J : Program c) (r : Result)
  /-- No part of the stack answers an operation of `s`. -/
  | leaves (J : Program c) (o : Operation c.Task) (s : c.State)
  /-- `s` waits for a coroutine that the driver is to run; what is not captured is `held`. -/
  | escapes (J : Program c) (t : c.Task) (s : c.State) (held : List (Part c.State))

/-- The error that code gets for a continuation that was resumed already. -/
def resumedTwice : Failure where
  exc := ⟨0, .doubleResume, [], .plain⟩
  isException := by decide
  noStop := by decide

def plainEffect (e : Nat) : Effect := ⟨5 * e, .none⟩

def getEffect (n : Nat) : Effect := ⟨5 * n + 1, .str "State#get"⟩

def putEffect (n : Nat) : Effect := ⟨5 * n + 2, .str "State#put"⟩

def awaitEffect (n : Nat) : Effect := ⟨5 * n + 3, .str "AsyncAwait#await"⟩

def shiftEffect (n : Nat) : Effect := ⟨5 * n + 4, .str "Shift0Reset#shift0"⟩

def Operation.effect {τ : Type} : Operation τ → Effect
  | .ask e _ => plainEffect e
  | .get n => getEffect n
  | .put n _ => putEffect n
  | .await n _ => awaitEffect n
  | .shift n _ => shiftEffect n

namespace Program

def requested (J : Program c) : Request c.State → Program c
  | .resume k b =>
      match J.slices[k]? with
      | some (some (s, fs)) =>
          { J with slices := J.slices.set k none, stack := fs ++ J.stack, control := .code s b }
      | _ => { J with control := .result (.failed resumedTwice) }
  | .run p =>
      { J with
        stack := parts J.memory.data p.scopes ++ J.stack
        control := .code p.body (.value .none) }

def opened (J : Program c) : Opening c.State → Program c
  | .result r => { J with control := .result r }
  | .request q => J.requested q

/-- The call of a clause with the slice above what is left of the stack. -/
def answered (J : Program c) (j : Nat) (args : List Val) (slice : Slice c.State)
    (below : List (Part c.State)) : Program c :=
  { J with memory := (J.memory.clause j J.slices.length args).1,
           slices := J.slices ++ [some slice], stack := below : Program c }.opened
    (J.memory.clause j J.slices.length args).2

/-- What a computation that has performed an operation comes to. -/
def performed (J : Program c) (o : Operation c.Task) (s : c.State) : Next c :=
  match owner? o J.stack with
  | none => .leaves J o s
  | some ⟨above, f, .clause j args, below⟩ => .more (J.answered j args (s, above ++ [f]) below)
  | some ⟨above, _, .value v left, below⟩ =>
      .more { J with stack := above ++ left :: below, control := .code s (.value v) }
  | some ⟨_, _, .task t true, _⟩ => .more { J with control := .task t s }
  | some ⟨_, _, .task t false, below⟩ => .escapes J t s below

/-- What an action of a computation comes to. -/
def acted (J : Program c) : Act c.State c.Task → Next c
  | .done r => .more { J with control := .result r }
  | .again b s => .more { J with control := .code s b }
  | .perform o s => J.performed o s
  | .escape t s => .escapes J t s (.code s :: J.stack)
  | .call q s => .more ({ J with stack := .code s :: J.stack }.requested q)

/-- What a result comes to that is delivered to the stack. -/
def delivered (J : Program c) (r : Result) : Next c :=
  match J.stack, r with
  | [], r => .finished J r
  | .code s :: fs, r => .more { J with stack := fs, control := .code s r.answer }
  | .layer l :: fs, .value v h =>
      match l.onReturn with
      | none => .more { J with stack := fs, control := .result (.value v h) }
      | some i =>
          .more ({ J with memory := (J.memory.onReturn i v).1, stack := fs : Program c }.opened
            (J.memory.onReturn i v).2)
  | _ :: fs, r => .more { J with stack := fs, control := .result r }

def step (J : Program c) : Next c :=
  match J.control with
  | .code s a => { J with memory := (J.memory.step s a).1 }.acted (J.memory.step s a).2
  | .result r => J.delivered r
  | .task t s =>
      .more { J with
        memory := (J.memory.task t).1
        control :=
          match (J.memory.task t).2 with
          | .pause t => .task t s
          | .done a => .code s a }

end Program

/-! ## Runs -/

/-- How a run ends. -/
inductive Ending where
  | result (r : Result)
  | uncaught (e : Effect)
  /-- An escape has reached a driver that is not asynchronous. -/
  | escaped

/-- The memory after what waits was closed, topmost first. -/
def Memory.closing (m : Memory c) (fs : List (Part c.State)) : Memory c :=
  fs.foldl (fun m f => match f with | .code s => m.exit s | _ => m) m

/-- One step under a driver, which is asynchronous or not. -/
def Program.next (async : Bool) (J : Program c) : Except (Memory c × Ending) (Program c) :=
  match J.step with
  | .more J => .ok J
  | .finished J r => .error (J.memory, .result r)
  | .leaves J o s => .error (J.memory.closing (.code s :: J.stack), .uncaught o.effect)
  | .escapes J t s held =>
      if async then .ok { J with control := .task t s }
      else .error (J.memory.closing held, .escaped)

/-- A computation under its scopes, from a memory. -/
def begin (p : Comp c.State) (d : c.Memory) : Program c where
  memory := ⟨d, []⟩
  slices := []
  stack := parts d p.scopes
  control := .code p.body (.value .none)

end OneShot.Joined
