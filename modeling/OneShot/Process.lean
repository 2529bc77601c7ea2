import OneShot.Driver
import OneShot.EventLoop
import OneShot.Machine
import OneShot.Record
import OneShot.Site
import OneShot.State
import OneShot.Await

/-!
# Processes

Library routines in progress.  `step` gives one turn of any of them.
-/

namespace OneShot

/-- What the elements of a value are collected for. -/
inductive Purpose where
  /-- The arguments of an invocation, or of a resend of one. -/
  | arguments (record : RecordKind) (effect : Val) (rest : List Val)
  /-- The frames of a continuation that is there already. -/
  | frames (k : Cont)
  /-- The keys of a table of clauses, which are only gone through: there are no clauses then. -/
  | clauses (onReturn : Val)
  /-- The frames whose contents are to be closed. -/
  | closing

inductive Process where
  | machine (id : Nat) (phase : Machine.Phase)
  | execute (phase : Execute.Phase)
  | executeAsync (phase : ExecuteAsync.Phase)
  | loop (phase : Loop.Phase)
  | gather (phase : Gather.Phase)
  | state (phase : StateLoop.Phase)
  | awaitClause (phase : AwaitClause.Phase)
  /-- Asks once; the reply is its result. -/
  | asking (a : Ask)
  /-- Performs an effect once; the reply is its result. -/
  | performing (e : Effect) (args : List Val) (caller : Caller)
  /-- Hands on whatever comes. -/
  | passing
  /-- Calls a computation, which must give a generator. -/
  | calling (computation : Val)
  | converting
  /-- Makes the machine of a handled computation; the handler's frame is made already. -/
  | applying (h : Handler) (frame : Tag) (computation : Val)
  | applied (h : Handler) (frame : Tag)
  /-- Asks for a generator, and delegates to it. -/
  | entering (a : Ask)
  | entered
  /-- Advances a generator by hand and reports how it went. -/
  | stepping (g : Gen) (i : Input)
  | stepped
  /-- Asks for a value, and reports it like what a generator yields. -/
  | yielding (a : Ask)
  | yielded
  /-- Throws into a generator; its end is a stop. -/
  | throwing (g : Gen) (v : Val)
  | thrown
  /-- Collects what a generator yields. -/
  | collect (g : Gen) (p : Purpose)
  | collecting (g : Gen) (seen : List Val) (p : Purpose)
  | collected (vs : List Val) (p : Purpose)
  /-- Closes one after the other. -/
  | closing (contents : List Val)
  /-- Asks for a coroutine, and runs it on a loop. -/
  | launching (a : Ask)
  | launched
  /-- Several parties try to resume one continuation, outside of any loop. -/
  | racing (cont : Val) (parties : Nat)
  | raced (cont : Val) (parties won lost : Nat) (outer : Bool)

namespace Process

def report (s : Store) (tag : String) (v : Val) : Store × Turn Process :=
  let (s, r) := s.newList #[.str tag, v]
  (s, .done r)

def closeNext (s : Store) : List Val → Store × Turn Process
  | [] => (s, .done .none)
  | v :: rest => (s, .ask (.closing v) (.closing rest))

/-- The parties that lost come before those that won. -/
def raceNext (s : Store) (k : Val) (won lost : Nat) (outer : Bool) : Nat → Store × Turn Process
  | 0 =>
    let (s, r) := s.newList
      (List.replicate lost (Val.str "lost") ++ List.replicate won (Val.str "won")).toArray
    ({ s with looping := outer }, .done r)
  | n + 1 => (s, .ask (.call k [.int 1]) (.raced k n won lost outer))

/-- Only a second take of the continuation counts as a loss. -/
def lostBy (x : Exc) : Nat := if x.kind = .doubleResume then 1 else 0

private def lift {σ : Type} (f : σ → Process) (r : Store × Turn σ) : Store × Turn Process :=
  (r.1, r.2.map f)

def ofChange (a : Change Val) (s : Store) : Store × Turn Process :=
  match a.run s with
  | (.ok v, s) => (s, .done v)
  | (.error x, s) => (s, .raise x)

/-- Why an element cannot be used. -/
def refusal? (p : Purpose) (v : Val) : Option Fault :=
  match p, v with
  | .clauses _, .effect _ => none
  | .clauses _, v => some (.clauseKey v.typeName)
  | _, _ => none

def use (s : Store) (vs : List Val) : Purpose → Store × Turn Process
  | .arguments r effect rest => ofChange (Record.invocation r effect vs rest) s
  | .frames k => (s.setFrames k vs.reverse, .done (.cont k))
  | .clauses onReturn =>
    let (s, t) := s.newTable []
    ofChange (Handler.make onReturn t) s
  | .closing => closeNext s (vs.reverse.filterMap Val.framed?)

/-- The end of a generator that was thrown into by hand. -/
def stop (s : Store) (v : Val) : Store × Turn Process :=
  let (s, x) := s.newException .stopIteration (match v with | .none => [] | v => [v]) .plain
  (s, .raise x)

def step (s : Store) : Process → Reply → Store × Turn Process
  | .machine m p, r => lift (.machine m) (Machine.step s m p r)
  | .execute p, r => lift .execute (Execute.step s p r)
  | .executeAsync p, r => lift .executeAsync (ExecuteAsync.step s p r)
  | .loop p, r => lift .loop (Loop.step s p r)
  | .gather p, r => lift .gather (Gather.step s p r)
  | .state p, r => lift .state (StateLoop.step s p r)
  | .awaitClause p, r => lift .awaitClause (AwaitClause.step s p r)
  | .asking a, _ => (s, .ask a .passing)
  | .performing e args caller, _ =>
    let (s, i) := e.invocation s args caller
    (s, .ask (.yield i .direct) .passing)
  | .passing, .value v | .passing, .yielded v => (s, .done v)
  | .calling c, _ => (s, .ask (.call c []) .converting)
  | .converting, .value v =>
    match v.generator? with
    | some g => (s, .done (.gen g))
    | none => (s, .fault (.notGenerator v.typeName))
  | .applying h t c, _ =>
    (s, .ask (.call (.native (.service .toGenerator)) [c]) (.applied h t))
  | .applied h t, .value (.gen g) =>
    let (s, u) := s.freshTag
    let (s, m) := s.newMachine
      (.own [.frame (.generator (.gen g) u), .frame (.handler (.handler h) t)]) (.handler h)
    (s, .ask (.call (.native (.service .runMachine)) [.machine m]) .passing)
  | .entering a, _ => (s, .ask a .entered)
  | .entered, .value g => (s, .ask (.delegate g) .passing)
  | .stepping g i, _ => (s, .ask (.advance g i) .stepped)
  | .stepped, r =>
    match r.ended with
    | .yielded v => report s "yield" v
    | .value v => report s "done" v
    | .raised x => (s, .raise x)
  | .yielding a, _ => (s, .ask a .yielded)
  | .yielded, .value v => report s "yield" v
  | .throwing g v, _ => (s, .ask (.advance g (.throw v)) .thrown)
  | .thrown, .yielded v => (s, .done v)
  | .thrown, .value v => stop s v
  | .collect g p, _ => (s, .ask (.advance g (.send .none)) (.collecting g [] p))
  | .collecting g seen p, .yielded v =>
    match refusal? p v with
    | some f => (s, .fault f)
    | none => (s, .ask (.advance g (.send .none)) (.collecting g (v :: seen) p))
  | .collecting _ seen p, .value _ => use s seen.reverse p
  | .collected vs p, _ => use s vs p
  | .closing contents, .value _ => closeNext s contents
  | .launching a, _ => (s, .ask a .launched)
  | .launched, .value (.gen g) => (s, .more (.loop (.start g)))
  | .racing k n, _ =>
    let outer := s.looping
    raceNext { s with looping := false } k 0 0 outer n
  | .raced k n won lost outer, .value _ => raceNext s k (won + 1) lost outer n
  | .raced k n won lost outer, .raised x => raceNext s k won (lost + lostBy x) outer n
  | _, .raised x => (s, .raise x)
  | _, .value v | _, .yielded v => (s, .done v)

/-- The part of the library that a call of this process comes from. -/
def caller : Process → Caller
  | .machine .. => .machine
  | .converting => .conversion
  | .executeAsync _ => .escape
  | _ => .program

end Process

end OneShot
