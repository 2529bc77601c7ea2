import OneShot.Fault

/-!
# The store

The state that values refer to: mutable data, continuations, machines, the
counters that number new things, and the events that a run has emitted.

A continuation is *taken* at most once: `take` tells whether it was still
there, and nothing ever gives it back.

Stacks and captured slices are lists of values, topmost first.  What the
library puts there are frames; the program may put anything there.
-/

namespace OneShot

/-- The three sources of log records. -/
inductive Source where
  | handler
  | continuation
  | driver
  deriving DecidableEq, Repr, Inhabited

/-- A value as it is reported: plain data as itself, anything else by its text. -/
inductive Datum where
  | null
  | bool (b : Bool)
  | int (i : Int)
  | str (s : String)
  | list (ds : List Datum)
  | text (s : String)
  deriving Inhabited

inductive Event where
  | trace (ds : List Datum)
  | log (source : Source) (text : String)
  deriving Inhabited

/-- What a run listens to and whether invocations record where they were made. -/
structure Settings where
  engineLog : Bool
  driverLog : Bool
  debug : Bool
  sources : List (String × List String)
  deriving Inhabited

def Settings.hears (c : Settings) : Source → Bool
  | .handler | .continuation => c.engineLog
  | .driver => c.driverLog

/-- A captured slice of a machine's stack, and the continuation of what was resent. -/
structure ContRecord where
  frames : List Val
  inner : Option Val
  taken : Bool
  deriving Inhabited

/-- A stack of the machine's own, or one that it shares with the program: a list, top last. -/
inductive Stack where
  | own (frames : List Val)
  | shared (v : Val)
  deriving Inhabited

/-- A machine's stack, and the value shown as its owner. -/
structure MachineRecord where
  stack : Stack
  owner : Val
  deriving Inhabited

structure Store where
  settings : Settings
  lists : Array (Array Val)
  tables : Array (List (Val × Val))
  cells : Array Val
  conts : Array ContRecord
  machines : Array MachineRecord
  nextEffect : Nat
  nextFrame : Nat
  nextId : Nat
  /-- Whether the running code is run by an event loop. -/
  looping : Bool
  events : List Event

namespace Store

/-- Effects are numbered from zero and frames from one. -/
def initial (c : Settings) : Store where
  settings := c
  lists := #[]
  tables := #[]
  cells := #[]
  conts := #[]
  machines := #[]
  nextEffect := 0
  nextFrame := 1
  nextId := 0
  looping := false
  events := []

def emit (s : Store) (e : Event) : Store := { s with events := e :: s.events }

/-- Emits a log record if somebody listens to its source. -/
def note (s : Store) (source : Source) (text : Unit → String) : Store :=
  if s.settings.hears source then s.emit (.log source (text ())) else s

def freshId (s : Store) : Store × Nat := ({ s with nextId := s.nextId + 1 }, s.nextId)

/-- What a new frame is known by. -/
def freshTag (s : Store) : Store × Tag :=
  ({ s with nextId := s.nextId + 1, nextFrame := s.nextFrame + 1 }, ⟨s.nextId, .int s.nextFrame⟩)

/-- The same for a frame that is given its number. -/
def numberedTag (s : Store) (number : Val) : Store × Tag :=
  ({ s with nextId := s.nextId + 1 }, ⟨s.nextId, number⟩)

def newArguments (s : Store) (vs : List Val) : Store × Arguments :=
  ({ s with nextId := s.nextId + 1 }, ⟨s.nextId, vs⟩)

def freshEffect (s : Store) (name : Val) : Store × Effect :=
  ({ s with nextEffect := s.nextEffect + 1 }, ⟨s.nextEffect, name⟩)

def newList (s : Store) (vs : Array Val) : Store × Val :=
  let id := s.lists.size
  ({ s with lists := s.lists.push vs }, .list id)

def newTable (s : Store) (es : List (Val × Val)) : Store × Val :=
  let id := s.tables.size
  ({ s with tables := s.tables.push es }, .table id)

def newCell (s : Store) (v : Val) : Store × Val :=
  let id := s.cells.size
  ({ s with cells := s.cells.push v }, .cell id)

def list (s : Store) (id : Nat) : Array Val := s.lists.getD id #[]

def table (s : Store) (id : Nat) : List (Val × Val) := s.tables.getD id []

def cell (s : Store) (id : Nat) : Val := s.cells.getD id .none

def newException (s : Store) (kind : Kind) (args : List Val) (detail : Detail) : Store × Exc :=
  ({ s with nextId := s.nextId + 1 }, ⟨s.nextId, kind, args, detail⟩)

/-- The exception for a fault. -/
def fault (s : Store) (f : Fault) : Store × Exc :=
  s.newException f.kind [.str f.message] f.detail

/-! ## Continuations -/

def frames (s : Store) (k : Cont) : List Val := ((s.conts[k.index]?).map (·.frames)).getD []

def inner? (s : Store) (k : Cont) : Option Val := (s.conts[k.index]?).bind (·.inner)

def isTaken (s : Store) (k : Cont) : Bool := ((s.conts[k.index]?).map (·.taken)).getD true

/-- Makes a continuation of a slice; with `inner`, one that continues a resent invocation. -/
def newCont (s : Store) (frames : List Val) (inner : Option Val) : Store × Cont :=
  let index := s.conts.size
  ({ s with conts := s.conts.push ⟨frames, inner, false⟩ }, ⟨index, inner.isSome⟩)

def setFrames (s : Store) (k : Cont) (frames : List Val) : Store :=
  { s with conts := s.conts.modify k.index fun r => { r with frames } }

/-- Takes a continuation and tells whether it was still there to be taken. -/
def take (s : Store) (k : Cont) : Store × Bool :=
  if s.isTaken k then (s, false)
  else ({ s with conts := s.conts.modify k.index fun r => { r with taken := true } }, true)

/-! ## Machines -/

/-- What is on the stack of a machine.  What is shared and no list holds nothing. -/
def stack (s : Store) (m : Nat) : List Val :=
  match s.machines[m]? with
  | some ⟨.own frames, _⟩ => frames
  | some ⟨.shared (.list l), _⟩ => (s.list l).toList.reverse
  | _ => []

def owner (s : Store) (m : Nat) : Val := ((s.machines[m]?).map (·.owner)).getD .none

def newMachine (s : Store) (stack : Stack) (owner : Val) : Store × Nat :=
  let id := s.machines.size
  ({ s with machines := s.machines.push ⟨stack, owner⟩ }, id)

def setStack (s : Store) (m : Nat) (frames : List Val) : Store :=
  match s.machines[m]? with
  | some ⟨.shared (.list l), _⟩ =>
    { s with lists := s.lists.modify l fun _ => frames.reverse.toArray }
  | some ⟨.shared _, _⟩ => s
  | _ => { s with machines := s.machines.modify m fun r => { r with stack := .own frames } }

/-! ## Laws -/

@[simp] theorem isTaken_newCont (s : Store) (frames : List Val) (inner : Option Val) :
    (s.newCont frames inner).1.isTaken (s.newCont frames inner).2 = false := by
  simp [newCont, isTaken]

@[simp] theorem frames_newCont (s : Store) (frames : List Val) (inner : Option Val) :
    (s.newCont frames inner).1.frames (s.newCont frames inner).2 = frames := by
  simp [newCont, Store.frames]

theorem take_of_isTaken {s : Store} {k : Cont} (h : s.isTaken k = true) :
    s.take k = (s, false) := by
  simp [take, h]

@[simp] theorem take_snd (s : Store) (k : Cont) : (s.take k).2 = !s.isTaken k := by
  unfold take; split <;> simp_all

@[simp] theorem isTaken_take (s : Store) (k : Cont) : (s.take k).1.isTaken k = true := by
  unfold take
  split
  · assumption
  · simp only [isTaken, Array.getElem?_modify, if_pos]
    cases s.conts[k.index]? <;> rfl

@[simp] theorem frames_take (s : Store) (k j : Cont) : (s.take k).1.frames j = s.frames j := by
  unfold take
  split
  · rfl
  · simp only [frames, Array.getElem?_modify]
    split
    · cases s.conts[j.index]? <;> rfl
    · rfl

theorem stack_setStack {s : Store} {m : Nat} {old : List Val} {owner : Val}
    (h : s.machines[m]? = some ⟨.own old, owner⟩) (frames : List Val) :
    (s.setStack m frames).stack m = frames := by
  simp [setStack, Store.stack, h, Array.getElem?_modify]

theorem stack_setStack_of_shared {s : Store} {m l : Nat} {owner : Val}
    (h : s.machines[m]? = some ⟨.shared (.list l), owner⟩) (hl : l < s.lists.size)
    (frames : List Val) : (s.setStack m frames).stack m = frames := by
  simp [setStack, Store.stack, h, Store.list, hl, Array.getElem_modify]

end Store

end OneShot
