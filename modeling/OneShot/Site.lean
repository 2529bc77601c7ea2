import OneShot.Change
import OneShot.Data
import OneShot.Text.Blank

/-!
# Sites

Where an invocation was made, and what the source says there.  Contexts are
recorded only on request, by the settings of a run.
-/

namespace OneShot

/-- The code that calls an effect: the program, or some part of the library. -/
inductive Caller where
  | program
  /-- A machine that applies a clause or a return handler. -/
  | machine
  /-- The conversion of a computation to a generator. -/
  | conversion
  /-- A combined wrap that applies its head. -/
  | combined
  /-- The computation that a combined wrap gives to its head. -/
  | applied
  | promptClause
  /-- A driver that acts on an escape. -/
  | escape
  | shift
  | awaiting
  /-- The capture of a context itself. -/
  | capture
  deriving DecidableEq, Repr, Inhabited

namespace Caller

def file : Caller → String
  | .program => "<script>"
  | _ => "<library>"

def line : Caller → Nat
  | .program => 1
  | .machine => 223
  | .conversion => 18
  | .combined | .applied => 31
  | .promptClause => 25
  | .escape => 98
  | .shift => 28
  | .awaiting => 75
  | .capture => 42

def function : Caller → String
  | .program => "<call>"
  | .machine => "_call"
  | .conversion => "to_generator"
  | .combined => "combined"
  | .applied | .promptClause => "<lambda>"
  | .escape => "execute_async"
  | .shift => "shift0"
  | .awaiting => "await_"
  | .capture => "capture_creation_context"

end Caller

namespace Site

open Change

/-- A line of a known source, counted from one and stripped; none if there is nothing on it. -/
def sourceLine (c : Settings) (file line : Val) : Val :=
  match file, line with
  | .str f, .int n =>
    let found := (c.sources.lookup f).bind fun ls => if n ≤ 0 then none else ls[n.toNat - 1]?
    let text := Text.strip (found.getD "")
    if text = "" then .none else .str text
  | _, _ => .none

def context (file line function : Val) (s : Store) : Store × Val :=
  let (s, id) := s.freshId
  (s, .context ⟨id, file, line, function, sourceLine s.settings file line⟩)

def callerContext (c : Caller) : Store → Store × Val :=
  context (.str c.file) (.int c.line) (.str c.function)

/-- The context of a site, which is given as its file, line and function. -/
def siteContext (site : Val) : Change Val := do
  match site with
  | .list l =>
    match (← ask (·.list l)).toList with
    | [file, line, function] => make (context file line function)
    | _ => return .none
  | _ => return .none

/--
The context of the `skip`-th site from the innermost one, the second by
default; what is not below a site is the capture itself.  The depth must fit
into 32 bits.
-/
def capture (skip sites : Val) : Change Val := do
  let n ← match skip, Data.integer? skip with
    | .none, _ => pure 2
    | _, some n => pure n
    | v, none => fail (.notInteger v.typeName)
  if n < -0x80000000 ∨ 0x80000000 ≤ n then fail .depthTooBig
  match sites with
  | .list l =>
    if n ≤ 0 then make (callerContext .capture)
    else
      match (← ask (·.list l))[n.toNat - 1]? with
      | some site => siteContext site
      | none => return .none
  | v => fail (.notIterable v.typeName)

/-- Whether the text of an environment variable switches something on. -/
def flagText (t : String) : Bool := ["1", "true", "yes"].contains t.toLower

/-- The same for an environment variable that may be unset. -/
def flag : Val → Change Val
  | .none => pure (.bool false)
  | .str t => if t.contains '\x00' then fail .nullByte else pure (.bool (flagText t))
  | v => fail (.notText v.typeName)

end Site

namespace Effect

def invocationAt (s : Store) (e : Effect) (args : List Val) (context : Val) : Store × Val :=
  let (s, args) := s.newArguments args
  let (s, id) := s.freshId
  (s, .invocation id ⟨.effect e, args, context⟩)

/-- An invocation by the given code, whose place is recorded on request. -/
def invocation (s : Store) (e : Effect) (args : List Val) (c : Caller) : Store × Val :=
  let (s, context) := if s.settings.debug then Site.callerContext c s else (s, .none)
  e.invocationAt s args context

end Effect

end OneShot
