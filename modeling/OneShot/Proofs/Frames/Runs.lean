import OneShot.Proofs.Frames.Moves

/-!
# Runs

A run from an empty world, with all configurations that it came through.  What a
program does with the library is read off them: which generators it has the
library put into frames, which ones are advanced by anything but a machine,
which machines it runs, and which requests for a resumption it makes and has
answered.
-/

namespace OneShot

variable {G : Guest}

/-! ## Events -/

/-- The generator that a process puts into a frame of its own. -/
def Process.framed? : Process → Reply → Option Gen
  | .machine _ .calling, .value v | .machine _ .calling, .yielded v => v.generator?
  | .applied _ _, .value (.gen g) => some g
  | .execute .converting, .value (.gen g) => some g
  | .executeAsync .converting, .value (.gen g) => some g
  | _, _ => none

/-- The process that waits for a reply in an activation. -/
def Activation.process? : Activation G → Option Process
  | .calling (.library p) | .running _ (.library p) => some p
  | _ => none

namespace Config

/-- The generator that the next step puts into a frame. -/
def framed? (c : Config G) : Option Gen :=
  match c.stack, c.signal with
  | a :: _, .reply r => a.process?.bind fun p => p.framed? r
  | _, _ => none

/-- The machine that makes the next step. -/
def stepped? (c : Config G) : Option Nat :=
  match c.stack, c.signal with
  | a :: _, .reply _ => a.machine?.map Prod.fst
  | _, _ => none

/-- The generator that the next step sends or throws something into, other than for a machine. -/
def advanced? (c : Config G) : Option Gen :=
  match c.signal with
  | .advance g _ => if (c.stack.head?.bind Activation.machine?).isSome then none else some g
  | _ => none

/-- The machine that is run next, and the number of the generator that runs it. -/
def ran? (c : Config G) : Option (Nat × Nat) :=
  c.signal.ran?.map fun m => (m, c.world.gens.size)

/-- The error that a resumption delivers. -/
def thrown? (c : Config G) : Option Val :=
  c.received?.bind fun
    | .resumption _ ⟨.cont _, _, error⟩ => some error
    | _ => none

end Config

/-- The configurations that a run came through, the last one first. -/
abbrev Trace (G : Guest) := List (Config G)

namespace Trace

def framed (trace : Trace G) : List Nat := trace.filterMap fun c => c.framed?.map (·.id)

def advanced (trace : Trace G) : List Nat := trace.filterMap fun c => c.advanced?.map (·.id)

def stepped (trace : Trace G) : List Nat := trace.filterMap (·.stepped?)

def ran (trace : Trace G) : List (Nat × Nat) := trace.filterMap (·.ran?)

/-- The requests that no machine has answered yet. -/
def outstanding : Trace G → List (Nat × Cont)
  | [] => []
  | c :: trace =>
      match c.pushed? with
      | some q => (outstanding trace).erase q
      | none => c.requested?.toList ++ outstanding trace

end Trace

/-- What the program does next builds nothing by hand that the engine keeps, and runs no machine again. -/
structure Genuine (trace : Trace G) (c : Config G) : Prop where
  unbuilt : c.signal.builds = false
  ran : ∀ m i, c.ran? = some (m, i) →
    m < c.world.store.machines.size ∧ ∀ j, (m, j) ∉ trace.ran

/-- What the program does next hands no generator over again, and has each request answered once. -/
structure Handed (trace : Trace G) (c : Config G) : Prop extends Genuine trace c where
  framed : ∀ g, c.framed? = some g → g.id ∉ trace.framed
  pushed : ∀ q, c.pushed? = some q → q ∈ trace.outstanding

/--
What the program does next is in order: it builds nothing by hand that the engine
keeps, hands a generator over once and leaves advancing it to machines, and has each
request answered once.
-/
structure Orderly (trace : Trace G) (c : Config G) : Prop extends Genuine trace c where
  framed : ∀ g, c.framed? = some g →
    g.id < c.world.gens.size ∧ g.id ∉ trace.framed ∧ g.id ∉ trace.advanced
  advanced : ∀ g, c.advanced? = some g → g.id ∉ trace.framed
  pushed : ∀ q, c.pushed? = some q → q ∈ trace.outstanding

theorem Orderly.handed {trace : Trace G} {c : Config G} (orderly : Orderly trace c) :
    Handed trace c :=
  ⟨orderly.toGenuine, fun g framed => (orderly.framed g framed).2.1, orderly.pushed⟩

/-- What the program does next is allowed: it also throws only exceptions into continuations. -/
structure Lawful (trace : Trace G) (c : Config G) : Prop extends Orderly trace c where
  thrown : ∀ v, c.thrown? = some v → v = .none ∨ ∃ x, v = .exc x

/-- Nothing has been made yet. -/
structure Config.Fresh (c : Config G) : Prop where
  stack : c.stack = []
  gens : c.world.gens = #[]
  conts : c.world.store.conts = #[]
  machines : c.world.store.machines = #[]

/-- A program has come to `c` on a run that obeys a rule at each step. -/
inductive RunOf (rule : Trace G → Config G → Prop) : Trace G → Config G → Prop
  | start {c : Config G} (fresh : c.Fresh) : RunOf rule [] c
  | step {trace : Trace G} {c d : Config G} (before : RunOf rule trace c) (lawful : rule trace c)
      (stepped : c.step = .ok d) : RunOf rule (c :: trace) d

/-- A lawful run. -/
abbrev Run : Trace G → Config G → Prop := RunOf Lawful

theorem RunOf.mono {rule rule' : Trace G → Config G → Prop} {trace : Trace G} {c : Config G} (run : RunOf rule trace c)
    (imp : ∀ trace c, rule trace c → rule' trace c) : RunOf rule' trace c := by
  induction run with
  | start fresh => exact .start fresh
  | step before obeys stepped ih => exact .step ih (imp _ _ obeys) stepped

/-- A run has come through all that is in its trace. -/
theorem RunOf.through {rule : Trace G → Config G → Prop} {later trace : Trace G} {c d : Config G}
    (run : RunOf rule (later ++ c :: trace) d) : RunOf rule trace c ∧ rule trace c := by
  induction later generalizing d with
  | nil =>
      cases run with
      | step before obeys stepped => exact ⟨before, obeys⟩
  | cons b later ih =>
      cases run with
      | step before obeys stepped => exact ih before

/-! ## Ownership -/

/-- A frame as such, or a generator that a frame holds. -/
inductive Key where
  | frame (id : Nat)
  | gen (id : Nat)
  deriving DecidableEq, Repr

/-- What a value has that may occur only once. -/
def Val.keys : Val → List Key
  | .frame (.generator (.gen g) t) => [.frame t.id, .gen g.id]
  | .frame f => [.frame f.tag.id]
  | _ => []

/-- The frames of a continuation that is not taken yet. -/
def Store.pending (s : Store) (i : Nat) : List Val :=
  match s.conts[i]? with
  | some ⟨frames, _, false⟩ => frames
  | _ => []

/--
All frames that there are: on the stacks of machines, in continuations that are
not taken, and in those that are taken by a request that was not answered yet.
-/
def Store.owned (s : Store) (requests : List (Nat × Cont)) : List Val :=
  (List.range s.machines.size).flatMap s.stack ++ (List.range s.conts.size).flatMap s.pending ++
    requests.flatMap fun q => s.frames q.2

/-- What is owned are frames of the library, and each of them and its generator is so once. -/
structure Linear (trace : Trace G) (c : Config G) : Prop where
  proper : ∀ v ∈ c.world.store.owned trace.outstanding, v.Proper
  once : ((c.world.store.owned trace.outstanding).flatMap Val.keys).Nodup

/-! ## Ways to leave a stack -/

/-- A generator is being closed, and it is no machine that closes it. -/
def ClosedByHand (stack : List (Activation G)) (g : Gen) : Prop :=
  ∃ above h below, stack = above ++ .closing h :: below ∧ h.id = g.id ∧
    ∀ a ∈ below.head?, a.machine? = none

/-- Why a frame that was on the stack of a machine before a step is not there after it. -/
inductive Leaves (c d : Config G) (m : Nat) : Val → Prop
  /-- A new continuation has it. -/
  | captured {v : Val} (k : Cont) (fresh : k.index = c.world.store.conts.size)
      (pending : d.world.store.isTaken k = false) (mem : v ∈ d.world.store.frames k) :
      Leaves c d m v
  /-- An outcome that goes down the stack of the machine has passed the handler. -/
  | passed {h : Handler} {t : Tag} {above below : List Val} (made : c.stepped? = some m)
      (stack : c.world.store.stack m = above ++ .frame (.handler (.handler h) t) :: below)
      (left : d.world.store.stack m <:+ below) : Leaves c d m (.frame (.handler (.handler h) t))
  /-- Its generator has returned or raised. -/
  | finished {g : Gen} (t : Tag) (status : c.world.status g = .finished) :
      Leaves c d m (.frame (.generator (.gen g) t))
  /-- Its generator has yielded something invalid, and is closed next. -/
  | closing {g i : Gen} {op : Val} {below : List (Activation G)} (t : Tag)
      (stack : d.stack = .running i (.library (.machine m (.discarding op))) :: below)
      (signal : d.signal = .close g) : Leaves c d m (.frame (.generator (.gen g) t))
  /-- Its generator is being closed by hand, so that it could not be advanced. -/
  | interrupted {g : Gen} (t : Tag) (status : c.world.status g = .running)
      (closed : ClosedByHand c.stack g) : Leaves c d m (.frame (.generator (.gen g) t))

end OneShot
