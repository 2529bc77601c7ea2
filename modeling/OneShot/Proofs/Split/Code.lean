import OneShot.Kernel

/-!
# Code that may do anything

Code of generators and plain functions that is not confined to the ways in which effects
are meant to be used: it yields whatever it likes, raises exceptions of all kinds, keeps
generators and continuations and passes them on, advances generators by hand, and goes
on after an exit was raised in it.  What it cannot do is to make the records of the
engine that stand for its own state, and to look at numbers and texts that only tell
how often the engine has been at work.

Code knows an object by the number of those that it came to know before.  All code that
is run is logged, with what it gets to see.
-/

namespace OneShot.Split

/-- A handler by the numbers of its functions and effects. -/
structure Layer where
  onReturn : Option Nat
  clauses : List (Nat × Nat)

/-- What code sees of a value: data, or the number of an object. -/
inductive Item where
  | none
  | bool (b : Bool)
  | int (i : Int)
  | str (s : String)
  | function (j : Nat)
  | effect (e : Nat)
  | object (n : Nat)
  /-- The request for a resumption, which only a machine can make use of. -/
  | request

/-- What code can write down. -/
inductive Expr where
  | item (i : Item)
  | handler (l : Layer)
  | error (kind : Kind) (args : List Item)
  | escape (action : Item)

/-- The parts of an object that code may look at. -/
inductive View where
  | plain
  | error (kind : Kind) (args : List Item)
  /-- An error about a type, with nothing but a text. -/
  | worded
  /-- An error of the engine, with what it is about. -/
  | failure (kind : Kind) (about : Item)
  | invocation (e : Nat) (args : List Item) (place : List Val)
  | escape (action : Item)

inductive Answer where
  | value (v : Item)
  | raised (x : Item)
  | yielded (v : Item)
  /-- A machine that was advanced by hand has resent an invocation. -/
  | resent (e : Nat) (args : List Item) (cont : Item) (place : List Val)
  | seen (v : View)

/-- What is passed into a generator that is advanced by hand. -/
inductive Pass where
  | send (v : Expr)
  | throw (x : Expr)

/-- What code does next. -/
inductive Act (σ : Type) where
  | done (v : Expr)
  | raise (x : Expr)
  /-- The call of a function, an effect, a continuation or a handler. -/
  | call (f : Expr) (args : List Expr) (next : σ)
  /-- The throw into a continuation. -/
  | throw (k : Item) (x : Expr) (next : σ)
  /-- Marks a continuation as consumed. -/
  | consume (k : Item) (next : σ)
  /-- Likewise, and closes what it has captured. -/
  | discard (k : Item) (next : σ)
  /-- Asks whether a continuation is consumed. -/
  | check (k : Item) (next : σ)
  | yield (v : Expr) (next : σ)
  | delegate (v : Expr) (next : σ)
  | advance (g : Item) (p : Pass) (next : σ)
  | close (g : Item) (next : σ)
  | look (v : Item) (next : σ)

/-- The call of a function runs code, or makes a generator of it. -/
inductive Opening (σ : Type) where
  | run (s : σ)
  | spawn (s : σ)

structure Code where
  Memory : Type
  State : Type
  enter : Memory → Nat → List Item → Memory × Opening State
  step : Memory → State → Answer → Memory × Act State

inductive Event (c : Code) where
  | call (j : Nat) (args : List Item)
  | code (s : c.State) (a : Answer)

/-- The memory of code, what it has come to know, and the log. -/
structure Memo (c : Code) where
  data : c.Memory
  known : List Val
  log : List (Event c)

variable {c : Code}

/-! ## Values -/

def function (j : Nat) : Val := .closure j "function"

def effect (e : Nat) : Effect := ⟨e, .none⟩

def Layer.handler (l : Layer) : Handler where
  id := 0
  onReturn := l.onReturn.elim (.native .identity) function
  clauses := l.clauses.map fun p => (effect p.1, function p.2)

/-- Generators and continuations are found again; other objects are new each time. -/
def sameObject : Val → Val → Bool
  | .gen g, .gen h => g.id == h.id
  | .cont k, .cont l => k.index == l.index
  | _, _ => false

/-- What an error of the engine is about. -/
def about : Detail → Option Val
  | .plain => none
  | .doubleResume v | .invalid v | .uncaught v _ | .missing v _ => some v

/-- Whether an error about a type has nothing but a text, which may name the class of a continuation. -/
def worded (x : Exc) : Bool :=
  x.kind = .type && match x.args with
    | [.str _] => true
    | _ => false

namespace Memo

/-- The number of an object, which code comes to know. -/
def know (m : Memo c) (v : Val) : Memo c × Item :=
  match m.known.findIdx? (sameObject v) with
  | some n => (m, .object n)
  | none => ({ m with known := m.known ++ [v] }, .object m.known.length)

def see (m : Memo c) : Val → Memo c × Item
  | .none => (m, .none)
  | .bool b => (m, .bool b)
  | .int i => (m, .int i)
  | .str s => (m, .str s)
  | .closure j _ => (m, .function j)
  | .effect e => (m, .effect e.uid)
  | .resumption .. => (m, .request)
  | v => m.know v

def seeAll (m : Memo c) : List Val → Memo c × List Item
  | [] => (m, [])
  | v :: vs => (((m.see v).1.seeAll vs).1, (m.see v).2 :: ((m.see v).1.seeAll vs).2)

/-- The effect of an invocation by its number. -/
def effectOf : Val → Nat
  | .effect e => e.uid
  | _ => 0

/-- Where an invocation was made, without the number of the record. -/
def placeOf : Val → List Val
  | .context c => [c.file, c.line, c.function, c.code]
  | _ => []

def view (m : Memo c) : Val → Memo c × View
  | .exc x =>
      match about x.detail with
      | some v => ((m.see v).1, .failure x.kind (m.see v).2)
      | none => if worded x then (m, .worded) else ((m.seeAll x.args).1, .error x.kind (m.seeAll x.args).2)
  | .invocation _ i =>
      ((m.seeAll i.args.values).1,
        .invocation (effectOf i.effect) (m.seeAll i.args.values).2 (placeOf i.context))
  | .escape _ action => ((m.see action).1, .escape (m.see action).2)
  | _ => (m, .plain)

def answer (m : Memo c) : Reply → Memo c × Answer
  | .value v => ((m.see v).1, .value (m.see v).2)
  | .raised x => ((m.see (.exc x)).1, .raised (m.see (.exc x)).2)
  | .yielded (.resend _ ⟨e, args, k, context⟩) =>
      (((m.seeAll args.values).1.see k).1,
        .resent (effectOf e) (m.seeAll args.values).2 ((m.seeAll args.values).1.see k).2 (placeOf context))
  | .yielded v => ((m.see v).1, .yielded (m.see v).2)

/-- The value of an item; a request for a resumption cannot be kept. -/
def item (m : Memo c) : Item → Val
  | .none | .request => .none
  | .bool b => .bool b
  | .int i => .int i
  | .str s => .str s
  | .function j => function j
  | .effect e => .effect (effect e)
  | .object n => m.known.getD n .none

def value (m : Memo c) : Expr → Val
  | .item i => m.item i
  | .handler l => .handler l.handler
  | .error kind args => .exc ⟨0, kind, args.map m.item, .plain⟩
  | .escape action => .escape 0 (m.item action)

def input (m : Memo c) : Pass → Input
  | .send v => .send (m.value v)
  | .throw x => .throw (m.value x)

end Memo

/-! ## The guest -/

inductive Body (c : Code) where
  | code (s : c.State)
  | looking (s : c.State) (v : Item)
  /-- Waits for a continuation to be marked as consumed. -/
  | discarding (s : c.State) (k : Cont)

namespace Body

/-- Does something with a continuation. -/
def withCont (m : Memo c) (v : Item) (name : String) (f : Cont → Turn (Body c)) : Turn (Body c) :=
  match m.item v with
  | .cont k => f k
  | v => .fault (.noField v name)

def withGen (m : Memo c) (v : Item) (f : Gen → Turn (Body c)) : Turn (Body c) :=
  match m.item v with
  | .gen g => f g
  | v => .fault (.notIterator v.typeName)

def consuming (k : Cont) : Ask := .call (.native (.op .markConsumed)) [.cont k]

def checking (k : Cont) : Ask := .call (.native (.op .field)) [.cont k, .str "consumed"]

def turn (m : Memo c) : Act c.State → Turn (Body c)
  | .done v => .done (m.value v)
  | .raise x => .raiseValue (m.value x)
  | .call f args s => .ask (.call (m.value f) (args.map m.value)) (.code s)
  | .throw k x s => withCont m k "throw" fun k =>
      .ask (.call (.native (.service .throwInto)) [.cont k, m.value x]) (.code s)
  | .consume k s => withCont m k "mark_consumed" fun k => .ask (consuming k) (.code s)
  | .discard k s => withCont m k "close" fun k => .ask (consuming k) (.discarding s k)
  | .check k s => withCont m k "consumed" fun k => .ask (checking k) (.code s)
  | .yield v s => .ask (.yield (m.value v) .direct) (.code s)
  | .delegate v s => .ask (.delegate (m.value v)) (.code s)
  | .advance g p s => withGen m g fun g => .ask (.advance g (m.input p)) (.code s)
  | .close g s => withGen m g fun g => .ask (.close g) (.code s)
  | .look v s => .more (.looking s v)

/-- Runs code. -/
def run (m : Memo c) (s : c.State) (a : Answer) : Memo c × Turn (Body c) :=
  let r := c.step m.data s a
  let m := { m with data := r.1, log := m.log ++ [.code s a] }
  (m, turn m r.2)

def step (m : Memo c) : Body c → Reply → Memo c × Turn (Body c)
  | .code s, r => run (m.answer r).1 s (m.answer r).2
  | .looking s v, _ => run (m.view (m.item v)).1 s (.seen (m.view (m.item v)).2)
  | .discarding s k, .value _ => (m, .ask (.call (.native (.service .close)) [.cont k]) (.code s))
  | .discarding s _, r => run (m.answer r).1 s (m.answer r).2

end Body

def enter (m : Memo c) (j : Nat) (args : List Val) : Memo c × OneShot.Entry (Body c) :=
  let seen := m.seeAll args
  let r := c.enter seen.1.data j seen.2
  ({ seen.1 with data := r.1, log := seen.1.log ++ [.call j seen.2] },
    match r.2 with
    | .run s => .run (.code s)
    | .spawn s => .spawn .generator (.code s))

@[reducible]
def guest (c : Code) : Guest where
  Memory := Memo c
  Body := Body c
  enter := enter
  step := Body.step

end OneShot.Split
