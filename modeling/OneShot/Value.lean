import OneShot.Kind

/-!
# Values

What programs compute with: plain data, mutable data by reference, functions,
generators, and the records of the effect engine (effects, handlers, frames,
invocations, resumptions).

Things with a state of their own (lists, tables, cells, generators, machines,
continuations) are references into a store.  Immutable records are carried
whole; the `id` of such a record tells two otherwise equal ones apart.

Programs may build the records of the engine by hand, with anything in their
fields.  So a field has the type of what it should hold only if the engine
checks that when the record is made.
-/

namespace OneShot

inductive GenKind where
  | generator
  | coroutine
  deriving DecidableEq, Repr, Inhabited

def GenKind.text : GenKind → String
  | .generator => "generator"
  | .coroutine => "coroutine"

/-- A reference to a suspendable computation: a generator or a coroutine. -/
structure Gen where
  id : Nat
  kind : GenKind
  name : String
  deriving DecidableEq, Repr, Inhabited

/--
A reference to a one-shot continuation.  It is *rehandled* if the effect that
it suspends was resent by an inner machine.
-/
structure Cont where
  index : Nat
  rehandled : Bool
  deriving DecidableEq, Repr, Inhabited

namespace Cont

/-- Continuations are numbered from one when shown. -/
def number (k : Cont) : Nat := k.index + 1

end Cont

/-- The three reports by which a state handler tells its loop what happened. -/
inductive ReportKind where
  | get
  | put
  | done
  deriving DecidableEq, Repr, Inhabited

/-- Records that a program may build by hand. -/
inductive RecordKind where
  | invocation
  | resend
  | escape
  | resumption
  | context
  | continuation
  | rehandled
  | handler
  | machine
  | generatorFrame
  | handlerFrame
  deriving DecidableEq, Repr, Inhabited

/-- Functions that answer at once. -/
inductive Op where
  | add
  | subtract
  | multiply
  | floorDivide
  | less
  | negate
  | truth
  | equal
  | same
  | list
  | nth
  | length
  | push
  | cell
  | cellGet
  | cellPut
  | table
  | tableSet
  | tableDelete
  | str
  | repr
  | typeName
  | trace
  | exception (kind : Kind)
  | field
  | effect
  | handler
  | combine
  | createState
  | createPrompt
  | createAwaiter
  | isInvocation
  | formatContext
  | frames
  | markConsumed
  | capture
  | envFlag
  deriving DecidableEq, Repr, Inhabited

/-- Functions of the library that run other code. -/
inductive Service where
  | build (record : RecordKind)
  | handlers
  | toGenerator
  | handle
  | execute
  | executeAsync
  | complete
  | awaitNow
  | gather
  | runMachine
  | closeFrames
  | resume
  | throwInto
  | race
  | next
  | send
  | throwAt
  | close
  | callFrom
  | runState
  | shift
  | reset
  | awaitEffect
  | awaitAsync
  | awaitBlocking
  deriving DecidableEq, Repr, Inhabited

mutual

inductive Val where
  | none
  | bool (b : Bool)
  | int (i : Int)
  | str (s : String)
  | list (id : Nat)
  | table (id : Nat)
  | cell (id : Nat)
  | closure (id : Nat) (name : String)
  | native (f : Native)
  | gen (g : Gen)
  | cont (k : Cont)
  | machine (id : Nat)
  | effect (e : Effect)
  | handler (h : Handler)
  | exc (x : Exc)
  | invocation (id : Nat) (i : Invocation)
  | resend (id : Nat) (r : Resend)
  | escape (id : Nat) (action : Val)
  | resumption (id : Nat) (r : Resumption)
  | context (c : Context)
  | frame (f : Frame)
  | report (id : Nat) (r : Report)
  | state (s : StateEffect)
  | prompt (p : Prompt)
  | awaiter (a : Awaiter)

/-- Function values that the library itself supplies. -/
inductive Native where
  | op (o : Op)
  | service (s : Service)
  /-- The return handler that stands for "no return handler". -/
  | identity
  /-- The wrap that changes nothing. -/
  | identityWrap
  /-- The wrap that applies `inner` and then `head` around it. -/
  | combined (id : Nat) (head inner : Val)
  /-- The computation that `wrap` makes of `computation`. -/
  | applied (id : Nat) (wrap computation : Val)
  /-- The action that awaits a given awaitable. -/
  | awaiting (id : Nat) (awaitable : Val)
  | onAwaitAsync
  | onAwaitBlocking
  /-- The clause of a prompt: applies the body to the continuation. -/
  | applyBody
  | report (r : ReportKind)
  /-- The method of an object. -/
  | method (id : Nat) (object : Val) (name : String)

/-- A tag told apart by its number alone; the name is only shown. -/
structure Effect where
  uid : Nat
  name : Val

/-- A return handler and a table of clauses. -/
structure Handler where
  id : Nat
  onReturn : Val
  clauses : List (Effect × Val)

/-- Where an invocation was made. -/
structure Context where
  id : Nat
  file : Val
  line : Val
  function : Val
  code : Val

/-- The arguments of an invocation, which stay the same when it is resent. -/
structure Arguments where
  id : Nat
  values : List Val

structure Invocation where
  effect : Val
  args : Arguments
  context : Val

/-- An invocation that an inner machine could not answer, with its continuation. -/
structure Resend where
  effect : Val
  args : Arguments
  cont : Val
  context : Val

/--
The request to continue `cont`: by raising `error` at its suspension point,
or, if `error` is none, by sending it `value`.
-/
structure Resumption where
  cont : Val
  value : Val
  error : Val

/-- What a frame is known by; the number is only shown. -/
structure Tag where
  id : Nat
  number : Val

/-- A frame of a stack: it delimits the scope of a handler, or holds a suspended generator. -/
inductive Frame where
  | handler (content : Val) (tag : Tag)
  | generator (content : Val) (tag : Tag)

/-- What an exception carries besides its arguments. -/
inductive Detail where
  | plain
  | doubleResume (cont : Val)
  | invalid (value : Val)
  | uncaught (invocation effect : Val)
  /-- A field was asked for that the object does not have. -/
  | missing (object : Val) (field : String)

structure Exc where
  id : Nat
  kind : Kind
  args : List Val
  detail : Detail

inductive Report where
  | get (cont : Val)
  | put (cont value : Val)
  | done (value : Val)

structure StateEffect where
  get : Effect
  put : Effect
  handler : Handler

structure Prompt where
  shift : Effect
  handler : Handler

structure Awaiter where
  effect : Effect
  async : Handler
  blocking : Handler

end

instance : Inhabited Val := ⟨.none⟩
instance : Inhabited Effect := ⟨⟨0, .none⟩⟩
instance : Inhabited Exc := ⟨⟨0, .base, [], .plain⟩⟩

namespace Exc

def isException (x : Exc) : Bool := x.kind.isException

/-- The value with which a stop ends an iteration: its first argument. -/
def stopValue (x : Exc) : Val := x.args.headD .none

end Exc

namespace Frame

def tag : Frame → Tag
  | .handler _ t | .generator _ t => t

end Frame

namespace Handler

/-- The clause of a handler for an effect. -/
def clause? (h : Handler) (e : Effect) : Option Val :=
  (h.clauses.find? fun c => c.1.uid == e.uid).map Prod.snd

def owns (h : Handler) (e : Effect) : Bool := (h.clause? e).isSome

end Handler

namespace Val

/-- Whether a value is a generator object (coroutines are not). -/
def generator? : Val → Option Gen
  | .gen g => if g.kind = .generator then some g else Option.none
  | _ => Option.none

theorem generator?_none : Val.none.generator? = Option.none := rfl

theorem generator?_str (s : String) : (Val.str s).generator? = Option.none := rfl

/-- What the generator frame that a value is holds; other values hold nothing. -/
def framed? : Val → Option Val
  | .frame (.generator content _) => some content
  | _ => Option.none

def isCallable : Val → Bool
  | .closure .. | .native _ | .effect _ | .cont _ | .handler _ => true
  | _ => false

/-- Whether a value is one of the two suspensions that a handler can answer. -/
def isInvocation : Val → Bool
  | .invocation .. | .resend .. => true
  | _ => false

def typeName : Val → String
  | .none => "NoneType"
  | .bool _ => "bool"
  | .int _ => "int"
  | .str _ => "str"
  | .list _ => "list"
  | .table _ => "dict"
  | .cell _ => "Cell"
  | .closure .. => "function"
  | .native (.report _) => "type"
  | .native (.method ..) => "method"
  | .native _ => "function"
  | .gen g => g.kind.text
  | .cont k => if k.rehandled then "RehandledContinuation" else "Continuation"
  | .machine _ => "Machine"
  | .effect _ => "EffectInstance"
  | .handler _ => "Handler"
  | .exc x => x.kind.text
  | .invocation .. => "EffectInvocation"
  | .resend .. => "ResendInvocation"
  | .escape .. => "AsyncEscape"
  | .resumption .. => "ResumeRequest"
  | .context _ => "CreationContext"
  | .frame (.generator ..) => "GeneratorFrame"
  | .frame (.handler ..) => "HandlerFrame"
  | .report _ (.get _) => "_Get"
  | .report _ (.put ..) => "_Put"
  | .report _ (.done _) => "_Done"
  | .state _ => "State"
  | .prompt _ => "Prompt"
  | .awaiter _ => "AsyncAwait"

/-- The class from which a value has its methods. -/
def className : Val → String
  | .cont _ => "Continuation"
  | v => v.typeName

end Val

/-- The name by which a library function is shown. -/
def Native.name : Native → String
  | .op _ | .service _ => "function"
  | .identity => "_identity"
  | .identityWrap => "_identity_wrap"
  | .combined .. => "combine_handlers.<locals>.combined"
  | .applied .. => "combine_handlers.<locals>.combined.<locals>.<lambda>"
  | .awaiting .. => "_on_await_async.<locals>.<lambda>"
  | .onAwaitAsync => "_on_await_async"
  | .onAwaitBlocking => "_on_await_blocking"
  | .applyBody => "Prompt.__init__.<locals>.<lambda>"
  | .report .get => "_Get"
  | .report .put => "_Put"
  | .report .done => "_Done"
  | .method _ object name => object.className ++ "." ++ name

/-- The name of what has one of its own: functions and generators. -/
def Val.name? : Val → Option String
  | .closure _ name => some name
  | .native f => some f.name
  | .gen g => some g.name
  | _ => Option.none

end OneShot
