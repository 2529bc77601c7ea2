import OneShot.Process
import OneShot.Operation

/-!
# Calling values

What a call of a value other than a function of the program comes to: an answer
at once, a library routine to run, a new generator or coroutine, or another
call.  A continuation is taken when it is called, not when the generator that
the call gives is first advanced.
-/

namespace OneShot

inductive Start where
  | done (v : Val)
  | raise (x : Exc)
  | fault (f : Fault)
  | enter (p : Process)
  | spawn (kind : GenKind) (name : String) (p : Process)
  /-- Another call, which comes from the given code. -/
  | call (f : Val) (args : List Val) (caller : Caller)

namespace Start

def ofChange (a : Change Val) (s : Store) : Store × Start :=
  match a.run s with
  | (.ok v, s) => (s, .done v)
  | (.error x, s) => (s, .raise x)

end Start

namespace Cont

/-- Takes a continuation and gives the generator that requests its resumption. -/
def request (s : Store) (k : Cont) (value error : Val) (text : Store → String) : Store × Start :=
  match s.take k with
  | (s, false) =>
    let (s, x) := s.doubleResumeError (.cont k)
    (s, .raise x)
  | (s, true) =>
    let s := s.note .continuation fun _ => s.repr (.cont k) ++ " resumed with " ++ text s
    let (s, id) := s.freshId
    (s, .spawn .generator "_request"
      (.asking (.yield (.resumption id ⟨.cont k, value, error⟩) .direct)))

def resume (s : Store) (k : Cont) (v : Val) : Store × Start :=
  k.request s v .none fun s => s.repr v

def throw (s : Store) (k : Cont) (error : Val) : Store × Start :=
  k.request s .none error fun s => "error " ++ s.repr error

end Cont

/-- Applies a handler to a computation: the frame of the handler is made first. -/
def Handler.apply (s : Store) (h : Handler) (computation : Val) : Store × Start :=
  let (s, t) := s.freshTag
  (s, .enter (.applying h t computation))

/-- Turns a computation, which is a generator or a function that makes one, into a generator. -/
def Computation.convert (s : Store) (c : Val) : Store × Start :=
  match c.generator? with
  | some g => (s, .done (.gen g))
  | none =>
    if c.isCallable then (s, .enter (.calling c)) else (s, .fault (.notComputation c.typeName))

namespace Report

def ofKind : ReportKind → List Val → Option Report
  | .get, [k] => some (.get k)
  | .put, [k, v] => some (.put k v)
  | .done, [v] => some (.done v)
  | _, _ => none

def signature : ReportKind → Signature
  | .get => ⟨"_Get.__init__", 1, ["k"], 0⟩
  | .put => ⟨"_Put.__init__", 1, ["k", "value"], 0⟩
  | .done => ⟨"_Done.__init__", 1, ["value"], 0⟩

end Report

/-- Goes through the elements of a value. -/
def Purpose.start (s : Store) (p : Purpose) (v : Val) : Store × Start :=
  match v.generator?, Data.elements? s v with
  | some g, _ => (s, .enter (.collect g p))
  | none, some vs => (s, .enter (.collected vs p))
  | none, none => (s, .fault (.notIterable v.typeName))

namespace Handler

/-- Makes a handler of a table of clauses. -/
def start (s : Store) (onReturn table : Val) : Store × Start :=
  match table.generator? with
  | some g => (s, .enter (.collect g (.clauses onReturn)))
  | none => Start.ofChange (make onReturn table) s

end Handler

/--
Builds a record.  Arguments are gone through before they are counted; a
continuation has its number before its frames are gone through.
-/
def RecordKind.start (s : Store) (r : RecordKind) (args : List Val) : Store × Start :=
  match r, args with
  | .invocation, e :: args :: rest => (Purpose.arguments .invocation e rest).start s args
  | .resend, e :: args :: rest => (Purpose.arguments .resend e rest).start s args
  | .continuation, [frames] =>
    let (s, k) := s.newCont [] none
    (Purpose.frames k).start s frames
  | .rehandled, [frames, inner] =>
    let (s, k) := s.newCont [] (some inner)
    (Purpose.frames k).start s frames
  | .handler, [onReturn, table] => Handler.start s onReturn table
  | r, args => Start.ofChange (Record.build r args) s

namespace Service

/-- The method that a service is known by, for the fault of calling it on something else. -/
def methodName : Service → String
  | .runState | .runMachine => "run"
  | .shift => "shift0"
  | .reset => "reset"
  | .awaitEffect => "await_"
  | .awaitAsync => "async_"
  | .awaitBlocking => "blocking"
  | .resume => "resume"
  | .throwInto | .throwAt => "throw"
  | .close => "close"
  | _ => "send"

/-- What is wrong with asking an object for a method, or with what the method is given. -/
def refusal (object : Val) (name : String) (args : List Val) : Fault :=
  ((object.method? name).bind fun m => (m.signature object).fault? args.length).getD
    (.noField object name)

/-- Running a state needs a value and a computation, and running a machine nothing. -/
def run (s : Store) : Val → List Val → Store × Start
  | .machine m, [] => (s, .spawn .generator "Machine.run" (.machine m .start))
  | .state t, [v, c] => (s, .spawn .generator "State.run" (.state (.start t.handler v c)))
  | v, args => (s, .fault (refusal v "run" args))

/-- Runs coroutines on a loop, which code that a loop runs cannot do. -/
def startLoop (s : Store) (p : Process) : Store × Start :=
  if s.looping then (s, .fault .loopRunning) else (s, .enter p)

def tasksOf (gs : List Val) : List Gather.Task :=
  (gs.filterMap fun | .gen g => some g | _ => none).zipIdx.map fun t => ⟨t.2, t.1⟩

def start (s : Store) : Service → List Val → Store × Start
  | .build r, args => r.start s args
  | .handlers, [onReturn, table] => Handler.start s onReturn table
  | .toGenerator, [c] => Computation.convert s c
  | .handle, [h, c] => (s, .call h [c] .program)
  | .execute, [c] => (s, .enter (.execute (.start c)))
  | .executeAsync, [c] => (s, .spawn .coroutine "execute_async" (.executeAsync (.start c)))
  | .complete, [.gen g] => startLoop s (.loop (.start g))
  | .awaitNow, [a] =>
    let (s, id) := s.freshId
    (s, .enter (.launching (.call (.native (.awaiting id a)) [])))
  | .gather, gs => startLoop s (.gather (.start (tasksOf gs)))
  | .runMachine, m :: args | .runState, m :: args => run s m args
  | .closeFrames, [frames] => Purpose.closing.start s frames
  | .resume, [.cont k] => k.resume s .none
  | .resume, [.cont k, v] => k.resume s v
  | .throwInto, [.cont k, x] => k.throw s x
  | .throwInto, [.gen g, x] => (s, .enter (.throwing g x))
  | .race, [k, n] =>
    match Data.integer? n with
    | some n => (s, .enter (.racing k n.toNat))
    | none => (s, .fault (.notInteger n.typeName))
  | .next, [v] =>
    match v.generator? with
    | some g => (s, .enter (.stepping g (.send .none)))
    | none => (s, .fault (.notIterator v.typeName))
  | .send, [.gen g, v] => (s, .enter (.stepping g (.send v)))
  | .throwAt, [.gen g, v] => (s, .enter (.stepping g (.throw v)))
  | .throwAt, [.cont k, v] =>
    (s, .enter (.yielding (.call (.native (.service .throwInto)) [.cont k, v])))
  | .close, [.gen g] => (s, .enter (.asking (.close g)))
  | .close, [.cont k] => (s, .enter (.closing ((s.frames k).filterMap Val.framed?)))
  | .callFrom, site :: .effect e :: args =>
    match (Site.siteContext site).run s with
    | (.ok c, s) =>
      let (s, i) := e.invocationAt s args (if s.settings.debug then c else .none)
      (s, .done i)
    | (.error x, s) => (s, .raise x)
  | .callFrom, _ :: f :: args => (s, .call f args .program)
  | .shift, [.prompt p, f] =>
    (s, .spawn .generator "Prompt.shift0" (.performing p.shift [f] .shift))
  | .reset, [.prompt p, c] => (s, .call (.handler p.handler) [c] .program)
  | .awaitEffect, [.awaiter a, v] =>
    (s, .spawn .generator "AsyncAwait.await_" (.performing a.effect [v] .awaiting))
  | .awaitAsync, [.awaiter a, c] => (s, .call (.handler a.async) [c] .program)
  | .awaitBlocking, [.awaiter a, c] => (s, .call (.handler a.blocking) [c] .program)
  | service, v :: args => (s, .fault (refusal v service.methodName args))
  | _, [] => (s, .done .none)

end Service

namespace Native

/-- The parameters of the functions that take a fixed number of arguments. -/
def signature? (f : Native) : Option Signature :=
  match f with
  | .op _ | .service _ => none
  | .report r => some (Report.signature r)
  | .identity => some ⟨f.name, 0, ["value"], 0⟩
  | .identityWrap | .combined .. => some ⟨f.name, 0, ["computation"], 0⟩
  | .applied .. | .awaiting .. => some ⟨f.name, 0, [], 0⟩
  | .onAwaitAsync | .onAwaitBlocking => some ⟨f.name, 0, ["k", "awaitable"], 0⟩
  | .applyBody => some ⟨f.name, 0, ["k", "f"], 0⟩
  | .method _ object name => (object.method? name).map (·.signature object)

def start (s : Store) (f : Native) (args : List Val) : Store × Start :=
  match f.signature?.bind (·.fault? args.length) with
  | some e => (s, .fault e)
  | none =>
    match f, args with
    | .op o, args => Start.ofChange (o.apply args) s
    | .service f, args => f.start s args
    | .identity, [v] => (s, .done v)
    | .identityWrap, [c] =>
      (s, .spawn .generator "_identity_wrap"
        (.entering (.call (.native (.service .toGenerator)) [c])))
    | .combined _ head inner, [c] =>
      let (s, id) := s.freshId
      (s, .call head [.native (.applied id inner c)] .combined)
    | .applied _ wrap c, [] => (s, .call wrap [c] .applied)
    | .awaiting _ a, [] => (s, .spawn .coroutine "_await" (.asking (.await a)))
    | .onAwaitAsync, [k, a] =>
      (s, .spawn .generator "_on_await_async" (.awaitClause (.start k a false)))
    | .onAwaitBlocking, [k, a] =>
      (s, .spawn .generator "_on_await_blocking" (.awaitClause (.start k a true)))
    | .applyBody, [k, f] => (s, .call f [k] .promptClause)
    | .method _ object name, args =>
      match object.method? name with
      | some m => (s, .call (.native m.code) (object :: args) .program)
      | none => (s, .fault (.noField object name))
    | .report r, args =>
      let (s, id) := s.freshId
      (s, (Report.ofKind r args).elim (.done .none) fun made => .done (.report id made))
    | _, _ => (s, .done .none)

end Native

def callSignature : Signature := ⟨"Continuation.__call__", 1, [], 1⟩

def handleSignature : Signature := ⟨"Handler.__call__", 1, ["computation"], 0⟩

/-- The call, by the given code, of a value that is not a function of the program. -/
def invoke (s : Store) (f : Val) (args : List Val) (caller : Caller) : Store × Start :=
  match f with
  | .native f => f.start s args
  | .effect e =>
    let (s, i) := e.invocation s args caller
    (s, .done i)
  | .cont k =>
    match callSignature.fault? args.length with
    | some f => (s, .fault f)
    | none => k.resume s (args.headD .none)
  | .handler h =>
    match handleSignature.fault? args.length with
    | some f => (s, .fault f)
    | none => h.apply s (args.headD .none)
  | v => (s, .fault (.notCallable v.typeName))

end OneShot
