import OneShot.Store
import OneShot.Text.Quoted

/-!
# Display

The text of values.  `str` and `repr` differ on strings and exceptions only.
Texts depend on the store: a continuation shows whether it is taken, and a list
its present elements.

A value may come up again inside itself.  There lists, tables, tuples of
arguments, and those records that show all of their fields are abbreviated; the
other values go on until one of these is met again.
-/

namespace OneShot

/-- How deep values may nest before their text is cut off. -/
def displayDepth : Nat := 10000

def commaSeparated (ts : List String) : String := String.intercalate ", " ts

/-- The text of a tuple: a single element is followed by a comma. -/
def tupleText : List String → String
  | [t] => s!"({t},)"
  | ts => "(" ++ commaSeparated ts ++ ")"

/-- What is being shown already. -/
inductive Shown where
  | list (id : Nat)
  | table (id : Nat)
  | tuple (id : Nat)
  | record (id : Nat)
  deriving DecidableEq, Repr

namespace Store

/-- Whether a value counts as true. -/
def truth (s : Store) : Val → Bool
  | .none => false
  | .bool b => b
  | .int i => i != 0
  | .str t => t != ""
  | .list id => !(s.list id).isEmpty
  | .table id => !(s.table id).isEmpty
  | _ => true

/-- The name in the text of a continuation: of what its topmost generator frame holds. -/
def contName (s : Store) (k : Cont) : String :=
  match (s.frames k).findSome? Val.framed? with
  | some v => v.name?.getD v.typeName
  | none => "?"

/-- The text of a value, as it is (`plain`) or quoted, to a bounded depth. -/
def textN (s : Store) : Nat → List Shown → Bool → Val → String
  | 0, _, _, _ => "..."
  | n + 1, seen, plain, v =>
    let repr := textN s n seen false
    let str := textN s n seen true
    let effect (e : Effect) : String :=
      s!"inst#{e.uid}" ++ if s.truth e.name then "(" ++ str e.name ++ ")" else ""
    let unlessShown (what : Shown) (short : String) (text : (Val → String) → String) : String :=
      if seen.contains what then short else text (textN s n (what :: seen) false)
    let tuple (id : Nat) (vs : List Val) : String :=
      unlessShown (.tuple id) "(...)" fun inside => tupleText (vs.map inside)
    let record (id : Nat) (name : String) (fields : List (String × Val)) : String :=
      unlessShown (.record id) "..." fun inside =>
        name ++ "(" ++ commaSeparated (fields.map fun f => f.1 ++ "=" ++ inside f.2) ++ ")"
    match v with
    | .none => "None"
    | .bool b => if b then "True" else "False"
    | .int i => toString i
    | .str t => if plain then t else Text.quoted t
    | .list id =>
      unlessShown (.list id) "[...]" fun inside =>
        "[" ++ commaSeparated ((s.list id).toList.map inside) ++ "]"
    | .table id =>
      unlessShown (.table id) "\x7b...\x7d" fun inside =>
        "\x7b" ++ commaSeparated ((s.table id).map fun e => inside e.1 ++ ": " ++ inside e.2) ++
          "\x7d"
    | .cell _ => "<cell>"
    | .closure _ name => s!"<function {name}>"
    | .native (.op _) | .native (.service _) => "<function>"
    | .native (.report r) => s!"<class 'handleff.effects.state.{(Native.report r).name}'>"
    | .native (.method id object name) =>
      s!"<bound method {(Native.method id object name).name} of " ++ repr object ++ ">"
    | .native f => s!"<function {f.name}>"
    | .gen g => s!"<{g.kind.text} object {g.name}>"
    | .cont k =>
      let status := if s.isTaken k then "consumed" else "pending"
      "<" ++ v.typeName ++ s!" #{k.number} {s.contName k} {status}>"
    | .machine m => "Machine(" ++ repr (s.owner m) ++ ")"
    | .effect e => effect e
    | .handler h => "Handler(" ++ commaSeparated (h.clauses.map fun c => effect c.1) ++ ")"
    | .exc x =>
      if plain then
        match x.args with
        | [] => ""
        | [a] => if x.kind = .key then repr a else str a
        | as => tuple x.id as
      else
        match x.args with
        | [a] => x.kind.text ++ "(" ++ repr a ++ ")"
        | as => x.kind.text ++ tuple x.id as
    | .invocation _ i =>
      "EffectInvocation(" ++ str i.effect ++ ", args=" ++ tuple i.args.id i.args.values ++ ")"
    | .resend _ r =>
      "ResendInvocation(" ++ str r.effect ++ ", args=" ++ tuple r.args.id r.args.values ++ ")"
    | .escape id action => record id v.typeName [("action", action)]
    | .resumption id r =>
      record id v.typeName [("continuation", r.cont), ("value", r.value), ("error", r.error)]
    | .context c =>
      record c.id v.typeName
        [("filename", c.file), ("line", c.line), ("function", c.function), ("code", c.code)]
    | .frame (.generator c t) =>
      record t.id v.typeName [("generator", c), ("frame_id", t.number)]
    | .frame (.handler c t) => record t.id v.typeName [("handler", c), ("frame_id", t.number)]
    | .report id (.get k) => record id v.typeName [("k", k)]
    | .report id (.put k w) => record id v.typeName [("k", k), ("value", w)]
    | .report id (.done w) => record id v.typeName [("value", w)]
    | .state t => "State(get=" ++ effect t.get ++ ", put=" ++ effect t.put ++ ")"
    | .prompt _ => "<handleff.effects.prompt.Prompt object>"
    | .awaiter _ => "<handleff.effects.async_await.AsyncAwait object>"

def repr (s : Store) (v : Val) : String := s.textN displayDepth [] false v

def str (s : Store) (v : Val) : String := s.textN displayDepth [] true v

/-- The text of an exception. -/
def message (s : Store) (x : Exc) : String := s.str (.exc x)

def datumN (s : Store) : Nat → Val → Datum
  | 0, _ => .text "..."
  | n + 1, v => match v with
    | .none => .null
    | .bool b => .bool b
    | .int i => .int i
    | .str t => .str t
    | .list id => .list ((s.list id).toList.map (datumN s n))
    | v => .text (s.repr v)

/-- A value as it is reported. -/
def datum (s : Store) (v : Val) : Datum := s.datumN displayDepth v

end Store

/-- `file:line in function`. -/
def Context.text (s : Store) (c : Context) : String :=
  s.str c.file ++ ":" ++ s.str c.line ++ " in " ++ s.str c.function

end OneShot
