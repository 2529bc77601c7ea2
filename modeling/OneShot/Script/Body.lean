import OneShot.Kernel
import OneShot.Script.Memory

/-!
# Running scripts

The script language as a guest of the kernel.  The body of a call is what it is
about to do (its control) and what is left to do after that; one step takes it
to the next construct of the script, or to a question for the kernel.
-/

namespace OneShot.Script

/-- How a statement may end other than by going on to the next one. -/
inductive Abrupt where
  | raise (x : Exc)
  | result (v : Val)

inductive Control where
  | eval (e : Expr)
  | exec (ss : List Stmt)
  | value (v : Val)
  | abrupt (a : Abrupt)
  /-- Takes up the reply of the kernel. -/
  | waiting

/-- What is to be done after an expression or a statement. -/
inductive After where
  /-- Evaluates the operands that are left; those evaluated come last one first. -/
  | operands (done : List Val) (rest : List Expr)
  | choose (a b : Expr)
  | yield
  | delegate
  | await
  | pause
  | pausing (left : Nat)
  | discard
  | assign (x : String)
  | branch (yes no : List Stmt)
  | test (c : Expr) (body : List Stmt)
  | again (c : Expr) (body : List Stmt)
  | bound (x : String) (body : List Stmt)
  | count (x : String) (body : List Stmt) (next bound : Nat)
  | result
  | throw
  | seq (ss : List Stmt)
  | clauses (cs : List Clause)
  | finish (ss : List Stmt)
  /-- Ends as was interrupted by a finishing block. -/
  | resumeEnd (a : Option Abrupt)

structure Body where
  control : Control
  after : List After
  scope : Nat

namespace Body

def goOn (b : Body) (c : Control) : Turn Body := .more { b with control := c }

def ask (b : Body) (a : Ask) : Turn Body := .ask a { b with control := .waiting }

/-- Raises the exception for a fault inside the body. -/
def fault (b : Body) (f : Fault) : Turn Body :=
  .ask (.call (.native (.op (.exception f.kind))) [.str f.message])
    { b with control := .waiting, after := .throw :: b.after }

/-- Asks whether a value counts as true; the answer comes back to the same place. -/
def askTruth (b : Body) (a : After) (v : Val) : Turn Body :=
  .ask (.call (.native (.op .truth)) [v]) { b with control := .waiting, after := a :: b.after }

def eval (m : Memory) (b : Body) : Expr → Memory × Turn Body
  | .literal v => (m, b.goOn (.value v))
  | .name x =>
    match m.lookup b.scope x with
    | some v => (m, b.goOn (.value v))
    | none => (m, b.fault (.unbound x))
  | .choose c a d => (m, .more ⟨.eval c, .choose a d :: b.after, b.scope⟩)
  | .function f =>
    let (m, v) := m.newClosure f b.scope
    (m, b.goOn (.value v))
  | .call f args => (m, .more ⟨.eval f, .operands [] args :: b.after, b.scope⟩)
  | .yield e => (m, .more ⟨.eval e, .yield :: b.after, b.scope⟩)
  | .delegate e => (m, .more ⟨.eval e, .delegate :: b.after, b.scope⟩)
  | .await e => (m, .more ⟨.eval e, .await :: b.after, b.scope⟩)
  | .pause e => (m, .more ⟨.eval e, .pause :: b.after, b.scope⟩)

def exec (b : Body) (s : Stmt) : Turn Body :=
  match s with
  | .expr e => .more ⟨.eval e, .discard :: b.after, b.scope⟩
  | .assign x e => .more ⟨.eval e, .assign x :: b.after, b.scope⟩
  | .branch c yes no => .more ⟨.eval c, .branch yes no :: b.after, b.scope⟩
  | .loop c body => .more ⟨.eval c, .test c body :: b.after, b.scope⟩
  | .count x e body => .more ⟨.eval e, .bound x body :: b.after, b.scope⟩
  | .attempt body cs finish =>
    .more ⟨.exec body, .clauses cs :: .finish finish :: b.after, b.scope⟩
  | .result e => .more ⟨.eval e, .result :: b.after, b.scope⟩
  | .throw e => .more ⟨.eval e, .throw :: b.after, b.scope⟩

/-- Gives the operator applied to its operands to the kernel. -/
def applyOperands (b : Body) (done : List Val) : Turn Body :=
  match done.reverse with
  | f :: args => b.ask (.call f args)
  | [] => b.goOn (.value .none)

def pauseFor (b : Body) : Nat → Turn Body
  | 0 => b.goOn (.value .none)
  | n + 1 => .ask (.yield .none .pause) ⟨.waiting, .pausing n :: b.after, b.scope⟩

def countTo (m : Memory) (b : Body) (x : String) (body : List Stmt) (next bound : Nat) :
    Memory × Turn Body :=
  if next < bound then
    (m.assign b.scope x (.int next),
      .more ⟨.exec body, .count x body (next + 1) bound :: b.after, b.scope⟩)
  else (m, b.goOn (.exec []))

/-- How often to count or pause. -/
def bound? : Val → Option Nat
  | .int i => some i.toNat
  | .bool true => some 1
  | .bool false => some 0
  | _ => none

/-- Takes up the value of an expression. -/
def receive (m : Memory) (b : Body) (v : Val) : After → Memory × Turn Body
  | .operands done (e :: rest) =>
    (m, .more ⟨.eval e, .operands (v :: done) rest :: b.after, b.scope⟩)
  | .operands done [] => (m, b.applyOperands (v :: done))
  | .choose a d =>
    match v with
    | .bool true => (m, b.goOn (.eval a))
    | .bool false => (m, b.goOn (.eval d))
    | v => (m, b.askTruth (.choose a d) v)
  | .yield => (m, b.ask (.yield v .direct))
  | .delegate => (m, b.ask (.delegate v))
  | .await => (m, b.ask (.await v))
  | .pause =>
    match bound? v with
    | some n => (m, b.pauseFor n)
    | none => (m, b.fault (.notInteger v.typeName))
  | .pausing n => (m, b.pauseFor n)
  | .discard => (m, b.goOn (.exec []))
  | .assign x => (m.assign b.scope x v, b.goOn (.exec []))
  | .branch yes no =>
    match v with
    | .bool true => (m, b.goOn (.exec yes))
    | .bool false => (m, b.goOn (.exec no))
    | v => (m, b.askTruth (.branch yes no) v)
  | .test c body =>
    match v with
    | .bool true => (m, .more ⟨.exec body, .again c body :: b.after, b.scope⟩)
    | .bool false => (m, b.goOn (.exec []))
    | v => (m, b.askTruth (.test c body) v)
  | .bound x body =>
    match bound? v with
    | some n => countTo m b x body 0 n
    | none => (m, b.fault (.notInteger v.typeName))
  | .result => (m, b.goOn (.abrupt (.result v)))
  | .throw =>
    match v with
    | .exc x => (m, b.goOn (.abrupt (.raise x)))
    | _ => (m, b.fault .notRaisable)
  | _ => (m, b.goOn (.exec []))

/-- Goes on after a statement has ended normally. -/
def proceed (m : Memory) (b : Body) : After → Memory × Turn Body
  | .seq ss => (m, b.goOn (.exec ss))
  | .again c body => (m, .more ⟨.eval c, .test c body :: b.after, b.scope⟩)
  | .count x body next bound => countTo m b x body next bound
  | .finish ss => (m, .more ⟨.exec ss, .resumeEnd none :: b.after, b.scope⟩)
  | .resumeEnd (some a) => (m, b.goOn (.abrupt a))
  | _ => (m, b.goOn (.exec []))

def clauseFor? (x : Exc) (cs : List Clause) : Option Clause := cs.find? fun c => x.kind.isA c.kind

/-- Leaves a construct by an abrupt end. -/
def unwind (m : Memory) (b : Body) (a : Abrupt) : After → Memory × Turn Body
  | .clauses cs =>
    match a with
    | .raise x =>
      match clauseFor? x cs with
      | some c => (m.assign b.scope c.name (.exc x), b.goOn (.exec c.body))
      | none => (m, b.goOn (.abrupt a))
    | .result _ => (m, b.goOn (.abrupt a))
  | .finish ss => (m, .more ⟨.exec ss, .resumeEnd (some a) :: b.after, b.scope⟩)
  | _ => (m, b.goOn (.abrupt a))

/-- The value of a body without a result is none. -/
def step (m : Memory) (b : Body) (r : Reply) : Memory × Turn Body :=
  match b.control, b.after with
  | .waiting, _ =>
    match r with
    | .value v | .yielded v => (m, b.goOn (.value v))
    | .raised x => (m, b.goOn (.abrupt (.raise x)))
  | .eval e, _ => Body.eval m b e
  | .exec [s], _ => (m, b.exec s)
  | .exec (s :: ss), _ => (m, { b with after := .seq ss :: b.after }.exec s)
  | .exec [], a :: after => proceed m { b with after } a
  | .value v, a :: after => receive m { b with after } v a
  | .abrupt e, a :: after => unwind m { b with after } e a
  | .exec [], [] => (m, .done .none)
  | .value v, [] => (m, .done v)
  | .abrupt (.result v), [] => (m, .done v)
  | .abrupt (.raise x), [] => (m, .raise x)

end Body

/-- The call of a function: its parameters are bound and its other names are not yet. -/
def enter (m : Memory) (id : Nat) (args : List Val) : Memory × Entry Body :=
  match m.closures[id]? with
  | none => (m, .fault (.notCallable "function"))
  | some c =>
    let f := c.function
    if f.parameters.length = args.length then
      let bound := (f.parameters.zip args).map fun p => (p.1, some p.2)
      let free := (f.locals.filter fun x => !f.parameters.contains x).map fun x => (x, none)
      let (m, scope) := m.newScope ⟨bound ++ free, some c.scope⟩
      let body : Body := ⟨.exec f.body, [], scope⟩
      match f.kind with
      | .plain => (m, .run body)
      | .generator => (m, .spawn .generator body)
      | .coroutine => (m, .spawn .coroutine body)
    else (m, .fault (.arity f.name f.parameters.length args.length))

def language : Guest where
  Memory := Memory
  Body := Body
  enter := enter
  step := fun m b r => b.step m r

end OneShot.Script
