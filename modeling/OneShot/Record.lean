import OneShot.Handler
import OneShot.Error
import OneShot.Method

/-!
# Records

Building the records of the engine and exceptions by hand, and reading the
fields of a value.
-/

namespace OneShot

open Change

/-! ## Reading -/

namespace Record

/-- The fields that only some kinds of exceptions have, and that are not set. -/
def unsetFields : Kind → List String
  | .os | .timeout => ["errno", "strerror", "filename", "filename2"]
  | .field => ["name", "obj"]
  | .name => ["name"]
  | _ => []

def exceptionField? (x : Exc) (name : String) : Change (Option Val) :=
  match x.detail, name with
  | _, "args" => some <$> list x.args
  | .doubleResume k, "continuation" => return some k
  | .invalid v, "value" => return some v
  | .uncaught i _, "invocation" => return some i
  | .uncaught _ e, "effect" => return some e
  | .missing _ field, "name" => return some (.str field)
  | .missing object _, "obj" => return some object
  | _, name =>
    if name = "value" ∧ x.kind = .stopIteration then return some x.stopValue
    else if name = "__cause__" ∨ name ∈ unsetFields x.kind then return some .none
    else return none

/-- The name of a function or generator without those of what it is defined in. -/
def shortName (v : Val) : Option Val := v.name?.map fun n => .str ((n.splitOn ".").getLastD n)

/-- The fields of a value by name. -/
def field? (v : Val) (name : String) : Change (Option Val) :=
  match v, name with
  | .effect e, "uid" => return some (.int e.uid)
  | .effect e, "name" => return some e.name
  | .invocation _ i, "effect" => return some i.effect
  | .invocation _ i, "args" => some <$> list i.args.values
  | .invocation _ i, "context" => return some i.context
  | .resend _ r, "effect" => return some r.effect
  | .resend _ r, "args" => some <$> list r.args.values
  | .resend _ r, "continuation" => return some r.cont
  | .resend _ r, "context" => return some r.context
  | .escape _ action, "action" => return some action
  | .resumption _ r, "continuation" => return some r.cont
  | .resumption _ r, "value" => return some r.value
  | .resumption _ r, "error" => return some r.error
  | .context c, "filename" => return some c.file
  | .context c, "line" => return some c.line
  | .context c, "function" => return some c.function
  | .context c, "code" => return some c.code
  | .frame (.generator content _), "generator" => return some content
  | .frame (.handler content _), "handler" => return some content
  | .frame f, "frame_id" => return some f.tag.number
  | .cont k, "cont_id" => return some (.int k.number)
  | .cont k, "frames" => do some <$> list (← ask (·.frames k)).reverse
  | .cont k, "consumed" => return some (.bool (← ask (·.isTaken k)))
  | .cont k, "inner" => ask (·.inner? k)
  | .handler h, "return_handler" => return some h.onReturn
  | .handler h, "clauses" => some <$> list (h.clauses.map fun c => .effect c.1)
  | .machine m, "stack" => do
    match ← ask (·.machines[m]?) with
    | some ⟨.shared v, _⟩ => return some v
    | _ => some <$> list (← ask (·.stack m)).reverse
  | .machine m, "owner" => return some (← ask (·.owner m))
  | .exc x, name => exceptionField? x name
  | .report _ (.get k), "k" => return some k
  | .report _ (.put k _), "k" => return some k
  | .report _ (.put _ v), "value" => return some v
  | .report _ (.done v), "value" => return some v
  | .state t, "get" => return some (.effect t.get)
  | .state t, "put" => return some (.effect t.put)
  | .state t, "_handler" => return some (.handler t.handler)
  | .prompt p, "shift0_effect" => return some (.effect p.shift)
  | .prompt p, "_handler" => return some (.handler p.handler)
  | .awaiter a, "await_effect" => return some (.effect a.effect)
  | .awaiter a, "_async_handler" => return some (.handler a.async)
  | .awaiter a, "_blocking_handler" => return some (.handler a.blocking)
  | v, "__qualname__" => return v.name?.map .str
  | v, "__name__" => return shortName v
  | v, name =>
    if (v.method? name).isSome then
      return some (.native (.method (← make (·.freshId)) v name))
    else return none

def field (v : Val) (name : String) : Change Val := do
  match ← field? v name with
  | some w => pure w
  | none => fail (.noField v name)

/-- A field as the program sees it: of a table it sees the keys. -/
def visibleField : Val → Val → Change Val
  | v, .str name => do
    match ← field v name with
    | .table t => list ((← ask (·.table t)).map Prod.fst)
    | w => pure w
  | _, name => fail (.badFieldName name.typeName)

/-- A frame of a continuation with its number and what it holds. -/
def describeFrame : Val → Change Val
  | .frame (.handler content t) => do
    list [.str "H", t.number, .str (← ask (·.repr content))]
  | v => do
    let number ← field v "frame_id"
    let content ← field v "generator"
    list [.str "G", number, ← field content "__qualname__"]

/-- The frames of a continuation, bottom first. -/
def describeFrames (k : Cont) : Change Val := do
  list (← (← ask (·.frames k)).reverse.mapM describeFrame)

end Record

/-! ## Building -/

/-- The exceptions with a cause of their own are made from it. -/
def Kind.signature? : Kind → Option Signature
  | .doubleResume => some ⟨"DoubleResumeError.__init__", 1, ["continuation"], 0⟩
  | .invalidInvocation => some ⟨"InvalidInvocationError.__init__", 1, ["value"], 1⟩
  | .uncaughtEffect => some ⟨"UncaughtEffectError.__init__", 1, ["invocation"], 0⟩
  | _ => none

def RecordKind.signature : RecordKind → Signature
  | .invocation => ⟨"EffectInvocation.__init__", 1, ["effect"], 2⟩
  | .resend => ⟨"ResendInvocation.__init__", 1, ["effect", "args", "continuation"], 1⟩
  | .escape => ⟨"AsyncEscape.__init__", 1, ["action"], 0⟩
  | .resumption => ⟨"ResumeRequest.__init__", 1, ["continuation"], 2⟩
  | .context => ⟨"CreationContext.__init__", 1, ["filename", "line", "function"], 1⟩
  | .continuation => ⟨"Continuation.__init__", 1, ["frames"], 0⟩
  | .rehandled => ⟨"RehandledContinuation.__init__", 1, ["frames", "inner"], 0⟩
  | .handler => ⟨"Handler.__init__", 1, ["return_handler", "clauses"], 0⟩
  | .machine => ⟨"Machine.__init__", 1, ["frames"], 1⟩
  | .generatorFrame => ⟨"GeneratorFrame.__init__", 1, ["generator"], 1⟩
  | .handlerFrame => ⟨"HandlerFrame.__init__", 1, ["handler"], 1⟩

namespace Record

def exception (k : Kind) (args : List Val) : Change Val :=
  match k.signature?.bind (·.fault? args.length) with
  | some f => fail f
  | none =>
    match k, args with
    | .doubleResume, [v] => return .exc (← make (·.doubleResumeError v))
    | .invalidInvocation, [v] => return .exc (← make (·.invalidInvocationError v .none))
    | .invalidInvocation, [v, hint] => return .exc (← make (·.invalidInvocationError v hint))
    | .uncaughtEffect, [v] => do
      let effect ← field v "effect"
      return .exc (← uncaughtEffectError v effect (← field v "context"))
    | _, _ => return .exc (← make (·.newException k args .plain))

/-- A frame that is not given a number takes the next one. -/
def tag : List Val → Change Tag
  | number :: _ => make (·.numberedTag number)
  | [] => make (·.freshTag)

/-- An invocation, or a resend of one, with the given arguments. -/
def invocation (r : RecordKind) (effect : Val) (args rest : List Val) : Change Val :=
  match r.signature.fault? (rest.length + 2) with
  | some f => fail f
  | none => do
    let args ← make (·.newArguments args)
    match r, rest with
    | .resend, cont :: context =>
      return .resend (← make (·.freshId)) ⟨effect, args, cont, context.headD .none⟩
    | _, context => return .invocation (← make (·.freshId)) ⟨effect, args, context.headD .none⟩

/-- The records that do not go through what they are given. -/
def build (r : RecordKind) (args : List Val) : Change Val :=
  match r.signature.fault? args.length with
  | some f => fail f
  | none =>
    match r, args with
    | .invocation, [effect] => invocation .invocation effect [] []
    | .escape, [action] => return .escape (← make (·.freshId)) action
    | .resumption, cont :: rest =>
      return .resumption (← make (·.freshId)) ⟨cont, rest.headD .none, rest.tail.headD .none⟩
    | .context, file :: line :: function :: rest =>
      return .context ⟨← make (·.freshId), file, line, function, rest.headD .none⟩
    | .machine, frames :: rest =>
      return .machine (← make (·.newMachine (.shared frames) (rest.headD .none)))
    | .generatorFrame, content :: rest => return .frame (.generator content (← tag rest))
    | .handlerFrame, content :: rest => return .frame (.handler content (← tag rest))
    | _, args => fail (.misused (commaSeparated (args.map Val.typeName)))

end Record

end OneShot
