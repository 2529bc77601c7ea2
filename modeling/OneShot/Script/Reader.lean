import OneShot.Script.Form
import OneShot.Script.Syntax

/-!
# Reading scripts

From forms to programs.  A form is a literal or a list headed by the name of
what it is; library functions are looked up in a table of names.
-/

namespace OneShot.Script

/-- Why a form is not a program. -/
inductive Misread where
  | unknown (head : String)
  | malformed (head : String)
  | tooDeep
  deriving DecidableEq, Repr

namespace Misread

def message : Misread → String
  | .unknown h => "unknown form " ++ h
  | .malformed h => "malformed form " ++ h
  | .tooDeep => "form too deep"

end Misread

abbrev Read (α : Type) := Except Misread α

/-- The library functions that a form of the same name calls. -/
def libraryNames : List (String × Native) := [
  ("+", .op .add), ("-", .op .subtract), ("*", .op .multiply), ("//", .op .floorDivide),
  ("<", .op .less), ("not", .op .negate), ("==", .op .equal), ("is", .op .same),
  ("list", .op .list), ("nth", .op .nth), ("len", .op .length), ("push", .op .push),
  ("cell", .op .cell), ("get", .op .cellGet), ("put", .op .cellPut),
  ("table", .op .table), ("tset", .op .tableSet), ("tdel", .op .tableDelete),
  ("str", .op .str), ("repr", .op .repr), ("type", .op .typeName), ("trace", .op .trace),
  ("attr", .op .field), ("inst", .op .effect), ("new_effect_instance", .op .effect),
  ("handler", .op .handler), ("handlers", .service .handlers), ("combine", .op .combine),
  ("create_state", .op .createState), ("create_prompt", .op .createPrompt),
  ("create_async_await", .op .createAwaiter), ("is_invocation", .op .isInvocation),
  ("format", .op .formatContext), ("frames", .op .frames),
  ("mark_consumed", .op .markConsumed), ("capture", .op .capture), ("env_flag", .op .envFlag),
  ("handle", .service .handle), ("to_generator", .service .toGenerator),
  ("execute", .service .execute), ("run_machine", .service .runMachine),
  ("close_frames", .service .closeFrames), ("kclose", .service .close),
  ("resume", .service .resume), ("throw", .service .throwInto), ("race", .service .race),
  ("next", .service .next), ("send", .service .send), ("gthrow", .service .throwAt),
  ("close", .service .close), ("at", .service .callFrom), ("state_run", .service .runState),
  ("shift0", .service .shift), ("reset", .service .reset), ("await_", .service .awaitEffect),
  ("async_", .service .awaitAsync), ("blocking", .service .awaitBlocking)]

def recordNames : List (String × RecordKind) := [
  ("EffectInvocation", .invocation), ("ResendInvocation", .resend), ("AsyncEscape", .escape),
  ("ResumeRequest", .resumption), ("CreationContext", .context),
  ("Continuation", .continuation), ("RehandledContinuation", .rehandled),
  ("Handler", .handler), ("Machine", .machine), ("GeneratorFrame", .generatorFrame),
  ("HandlerFrame", .handlerFrame)]

def library (f : Native) : Expr := .literal (.native f)

def literal? : Form → Option Val
  | .null => some .none
  | .bool b => some (.bool b)
  | .int i => some (.int i)
  | .str s => some (.str s)
  | .list _ => none

def readName : Form → Read String
  | .str x => .ok x
  | _ => .error (.malformed "name")

def readNames : Form → Read (List String)
  | .list fs => fs.mapM readName
  | _ => .error (.malformed "names")

def readKind : Form → Read Kind
  | .str k =>
    match Kind.ofText? k with
    | some k => .ok k
    | none => .error (.unknown k)
  | _ => .error (.malformed "kind")

def functionKind? : String → Option FunctionKind
  | "fn" => some .plain
  | "gen" => some .generator
  | "afn" => some .coroutine
  | _ => none

/-- The function that makes a record or an exception of a class. -/
def readClass (c : String) : Read Native :=
  match recordNames.lookup c, Kind.ofText? c with
  | some r, _ => .ok (.service (.build r))
  | none, some k => .ok (.op (.exception k))
  | none, none => .error (.unknown c)

mutual

def readExpr : Nat → Form → Read Expr
  | 0, _ => .error .tooDeep
  | n + 1, f =>
    match f with
    | .list (.str head :: args) => readHeaded n head args
    | .list _ => .error (.malformed "list")
    | f =>
      match literal? f with
      | some v => .ok (.literal v)
      | none => .error (.malformed "literal")

def readHeaded : Nat → String → List Form → Read Expr
  | 0, _, _ => .error .tooDeep
  | n + 1, head, args =>
    match head, args with
    | "v", [.str x] => .ok (.name x)
    | "?", [c, a, b] => return .choose (← readExpr n c) (← readExpr n a) (← readExpr n b)
    | "yield", [e] => return .yield (← readExpr n e)
    | "yf", [e] => return .delegate (← readExpr n e)
    | "await", [e] => return .await (← readExpr n e)
    | "asleep", [e] => return .pause (← readExpr n e)
    | "call", f :: args => return .call (← readExpr n f) (← args.mapM (readExpr n))
    | "exc", k :: args =>
      return .call (library (.op (.exception (← readKind k)))) (← args.mapM (readExpr n))
    | "new", .str c :: args => return .call (library (← readClass c)) (← args.mapM (readExpr n))
    | "execute_async", [c] =>
      return .call (library (.service .complete))
        [.call (library (.service .executeAsync)) [← readExpr n c]]
    | "gather", cs =>
      return .call (library (.service .gather))
        (← cs.mapM fun c => return .call (library (.service .executeAsync)) [← readExpr n c])
    | head, args =>
      match functionKind? head, args with
      | some kind, name :: parameters :: body => do
        let body ← body.mapM (readStmt n)
        return .function
          ⟨kind, ← readName name, ← readNames parameters, (Stmt.allAssigned body).eraseDups, body⟩
      | some _, _ => .error (.malformed head)
      | none, args =>
        match libraryNames.lookup head with
        | some f => return .call (library f) (← args.mapM (readExpr n))
        | none => .error (.unknown head)

def readStmt : Nat → Form → Read Stmt
  | 0, _ => .error .tooDeep
  | n + 1, f =>
    match f with
    | .list [.str "let", .str x, e] => return .assign x (← readExpr n e)
    | .list [.str "if", c, yes] => return .branch (← readExpr n c) (← readBlock n yes) []
    | .list [.str "if", c, yes, no] =>
      return .branch (← readExpr n c) (← readBlock n yes) (← readBlock n no)
    | .list [.str "while", c, body] => return .loop (← readExpr n c) (← readBlock n body)
    | .list [.str "for", .str x, e, body] =>
      return .count x (← readExpr n e) (← readBlock n body)
    | .list [.str "try", body, .list clauses] =>
      return .attempt (← readBlock n body) (← clauses.mapM (readClause n)) []
    | .list [.str "try", body, .list clauses, finish] =>
      return .attempt (← readBlock n body) (← clauses.mapM (readClause n)) (← readBlock n finish)
    | .list [.str "return", e] => return .result (← readExpr n e)
    | .list [.str "raise", e] => return .throw (← readExpr n e)
    | f => return .expr (← readExpr n f)

/-- A list of statements, or none at all. -/
def readBlock : Nat → Form → Read (List Stmt)
  | 0, _ => .error .tooDeep
  | n + 1, f =>
    match f with
    | .list fs => fs.mapM (readStmt n)
    | .null => .ok []
    | _ => .error (.malformed "block")

def readClause : Nat → Form → Read Clause
  | 0, _ => .error .tooDeep
  | n + 1, f =>
    match f with
    | .list [kind, name, body] =>
      return ⟨← readKind kind, ← readName name, ← readBlock n body⟩
    | _ => .error (.malformed "clause")

end

/-- Each nesting of forms takes at most three calls. -/
def read (f : Form) : Read Stmt := readStmt (4 * f.depth + 4) f

end OneShot.Script
