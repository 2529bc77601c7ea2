import OneShot.Invoke

/-!
# The kernel

The kernel runs code of a guest language together with the library's routines.
It keeps the suspended generators and a stack of activations; each step
delivers one signal to the topmost activation or acts on it.

A generator is advanced by sending or throwing; while it delegates to another
one, both go to that one.  Closing raises an exit at the suspension point, after
closing what is delegated to.  A stop that leaves the body of a generator turns
into an error, for completion is not to be confused with it.

The guest language is a parameter.  Of the world it sees only what it is told:
its code asks for everything by calling library functions.
-/

namespace OneShot

/-- What the call of a guest function comes to. -/
inductive Entry (β : Type) where
  | run (b : β)
  | spawn (kind : GenKind) (b : β)
  | fault (f : Fault)

/-- A language in which computations are written. -/
structure Guest where
  Memory : Type
  Body : Type
  enter : Memory → Nat → List Val → Memory × Entry Body
  step : Memory → Body → Reply → Memory × Turn Body

inductive Routine (G : Guest) where
  | guest (b : G.Body)
  | library (p : Process)

inductive Status (G : Guest) where
  | fresh (r : Routine G)
  | suspended (r : Routine G) (how : Suspension)
  | delegating (r : Routine G) (d : Gen)
  | running
  | finished

structure World (G : Guest) where
  store : Store
  gens : Array (Status G)
  memory : G.Memory

inductive Activation (G : Guest) where
  /-- A plain function. -/
  | calling (r : Routine G)
  /-- The body of a generator. -/
  | running (g : Gen) (r : Routine G)
  /-- The body of a generator that has `d` run in its place. -/
  | relaying (g : Gen) (r : Routine G) (d : Gen)
  /-- Waits for what the generator that is being closed makes of the exit. -/
  | closing (g : Gen)
  /-- Waits for the closing of what `g` delegates to, before raising `x` in it. -/
  | exiting (g : Gen) (r : Routine G) (x : Exc)

inductive Signal where
  | reply (r : Reply)
  | call (f : Val) (args : List Val) (caller : Caller)
  | advance (g : Gen) (i : Input)
  | close (g : Gen)

structure Config (G : Guest) where
  world : World G
  stack : List (Activation G)
  signal : Signal

variable {G : Guest}

namespace World

def status (w : World G) (g : Gen) : Status G := w.gens.getD g.id .finished

def setStatus (w : World G) (g : Gen) (t : Status G) : World G :=
  { w with gens := w.gens.modify g.id fun _ => t }

/-- A new generator, not started yet. -/
def spawn (w : World G) (kind : GenKind) (name : String) (r : Routine G) : World G × Gen :=
  let id := w.gens.size
  ({ w with gens := w.gens.push (.fresh r) }, ⟨id, kind, name⟩)

@[simp] theorem status_setStatus {w : World G} {g : Gen} (h : g.id < w.gens.size)
    (t : Status G) : (w.setStatus g t).status g = t := by
  simp [status, setStatus, Array.getElem_modify, h]

theorem status_setStatus_of_ne {w : World G} {g h : Gen} (ne : h.id ≠ g.id) (t : Status G) :
    (w.setStatus g t).status h = w.status h := by
  simp [status, setStatus, Array.getD_eq_getD_getElem?, Array.getElem?_modify, Ne.symm ne]

@[simp] theorem status_spawn (w : World G) (kind : GenKind) (name : String) (r : Routine G) :
    (w.spawn kind name r).1.status (w.spawn kind name r).2 = .fresh r := by
  simp [spawn, status]

def fault (w : World G) (f : Fault) : World G × Exc :=
  let (store, x) := w.store.fault f
  ({ w with store }, x)

end World

namespace Routine

def step (w : World G) : Routine G → Reply → World G × Turn (Routine G)
  | .guest b, r =>
    let (memory, t) := G.step w.memory b r
    ({ w with memory }, t.map .guest)
  | .library p, r =>
    let (store, t) := p.step w.store r
    ({ w with store }, t.map .library)

def caller : Routine G → Caller
  | .guest _ => .program
  | .library p => p.caller

end Routine

namespace Config

def reply (w : World G) (stack : List (Activation G)) (r : Reply) : Config G :=
  ⟨w, stack, .reply r⟩

/-- Replies with the exception for a fault. -/
def refuse (w : World G) (stack : List (Activation G)) (f : Fault) : Config G :=
  let (w, x) := w.fault f
  ⟨w, stack, .reply (.raised x)⟩

/-- The end of the body of a generator by an exception. -/
def leave (w : World G) (stack : List (Activation G)) (g : Gen) (x : Exc) : Config G :=
  let w := w.setStatus g .finished
  if x.kind = .stopIteration then refuse w stack (.escapedStop g.kind)
  else reply w stack (.raised x)

/-- Lets the coroutine `d` run in the place of `g`, unless somebody awaits it already. -/
def await (w : World G) (stack : List (Activation G)) (g : Gen) (r : Routine G) (v : Val) :
    Config G :=
  match v with
  | .gen d =>
    if d.kind = .coroutine then
      match w.status d with
      | .suspended .. | .delegating .. => refuse w (.running g r :: stack) .awaitedTwice
      | _ => ⟨w, .relaying g r d :: stack, .advance d (.send .none)⟩
    else refuse w (.running g r :: stack) (.notAwaitable v.typeName)
  | v => refuse w (.running g r :: stack) (.notAwaitable v.typeName)

/-- Acts on a turn of the body of a generator. -/
def turnOf (w : World G) (stack : List (Activation G)) (g : Gen) : Turn (Routine G) → Config G
  | .more r => reply w (.running g r :: stack) (.value .none)
  | .ask (.call f args) r => ⟨w, .running g r :: stack, .call f args r.caller⟩
  | .ask (.advance h i) r => ⟨w, .running g r :: stack, .advance h i⟩
  | .ask (.close h) r => ⟨w, .running g r :: stack, .close h⟩
  | .ask (.yield v how) r => reply (w.setStatus g (.suspended r how)) stack (.yielded v)
  | .ask (.delegate v) r =>
    match v.generator? with
    | some d => ⟨w, .relaying g r d :: stack, .advance d (.send .none)⟩
    | none => refuse w (.running g r :: stack) .notDelegate
  | .ask (.await v) r => await w stack g r v
  | .done v => reply (w.setStatus g .finished) stack (.value v)
  | .raise x => leave w stack g x
  | .fault f =>
    let (w, x) := w.fault f
    leave w stack g x

/-- Acts on a turn of a plain function, which cannot suspend. -/
def turnOfCall (w : World G) (stack : List (Activation G)) : Turn (Routine G) → Config G
  | .more r => reply w (.calling r :: stack) (.value .none)
  | .ask (.call f args) r => ⟨w, .calling r :: stack, .call f args r.caller⟩
  | .ask (.advance h i) r => ⟨w, .calling r :: stack, .advance h i⟩
  | .ask (.close h) r => ⟨w, .calling r :: stack, .close h⟩
  | .ask _ r => refuse w (.calling r :: stack) .notSuspendable
  | .done v => reply w stack (.value v)
  | .raise x => reply w stack (.raised x)
  | .fault f => refuse w stack f

def call (w : World G) (stack : List (Activation G)) (f : Val) (args : List Val)
    (caller : Caller) : Config G :=
  match f with
  | .closure id name =>
    let (memory, e) := G.enter w.memory id args
    let w := { w with memory }
    match e with
    | .run b => reply w (.calling (.guest b) :: stack) (.value .none)
    | .spawn kind b =>
      let (w, g) := w.spawn kind name (.guest b)
      reply w stack (.value (.gen g))
    | .fault f => refuse w stack f
  | f =>
    let (store, t) := invoke w.store f args caller
    let w := { w with store }
    match t with
    | .done v => reply w stack (.value v)
    | .raise x => reply w stack (.raised x)
    | .fault f => refuse w stack f
    | .enter p => reply w (.calling (.library p) :: stack) (.value .none)
    | .spawn kind name p =>
      let (w, g) := w.spawn kind name (.library p)
      reply w stack (.value (.gen g))
    | .call f args caller => ⟨w, stack, .call f args caller⟩

/--
What is raised at the suspension point of a generator when a value is thrown
into it; nothing if the throw is refused.
-/
def thrownInto (w : World G) (how : Suspension) : Val → World G × Option Exc
  | .exc x =>
    if how = .pause ∧ x.kind = .stopIteration then
      let (w, y) := w.fault (.escapedStop .generator)
      (w, some y)
    else (w, some x)
  | v =>
    if how = .direct then (w, none)
    else
      let (w, y) := w.fault (.notThrowable v.typeName)
      (w, some y)

/-- Sends or throws into a generator. -/
def advance (w : World G) (stack : List (Activation G)) (g : Gen) (i : Input) : Config G :=
  match w.status g, i with
  | .running, .send _ | .running, .throw (.exc _) => refuse w stack (.executing g.kind)
  | .running, .throw v => refuse w stack (.notThrowable v.typeName)
  | .finished, .send _ =>
    if g.kind = .coroutine then refuse w stack .reawaited else reply w stack (.value .none)
  | .finished, .throw (.exc x) =>
    if g.kind = .coroutine then refuse w stack .reawaited else reply w stack (.raised x)
  | .finished, .throw v | .fresh _, .throw v =>
    match v with
    | .exc x => leave w stack g x
    | v => refuse w stack (.notThrowable v.typeName)
  | .fresh r, .send .none =>
    reply (w.setStatus g .running) (.running g r :: stack) (.value .none)
  | .fresh _, .send _ => refuse w stack (.unstartedSend g.kind)
  | .suspended r _, .send v =>
    reply (w.setStatus g .running) (.running g r :: stack) (.value v)
  | .suspended r how, .throw v =>
    match thrownInto w how v with
    | (w, some x) => reply (w.setStatus g .running) (.running g r :: stack) (.raised x)
    | (w, none) => refuse w stack (.notThrowable v.typeName)
  | .delegating r d, .send v =>
    ⟨w.setStatus g .running, .relaying g r d :: stack, .advance d (.send v)⟩
  | .delegating r d, .throw v =>
    let w := w.setStatus g .running
    match v with
    | .exc x =>
      if x.kind.isA .generatorExit then ⟨w, .exiting g r x :: stack, .close d⟩
      else ⟨w, .relaying g r d :: stack, .advance d (.throw v)⟩
    | v => ⟨w, .relaying g r d :: stack, .advance d (.throw v)⟩

def close (w : World G) (stack : List (Activation G)) (g : Gen) : Config G :=
  match w.status g with
  | .running => refuse w stack (.executing g.kind)
  | .finished => reply w stack (.value .none)
  | .fresh _ => reply (w.setStatus g .finished) stack (.value .none)
  | .suspended r _ =>
    let (store, x) := w.store.newException .generatorExit [] .plain
    reply ({ w with store }.setStatus g .running) (.running g r :: .closing g :: stack) (.raised x)
  | .delegating r d =>
    let (store, x) := w.store.newException .generatorExit [] .plain
    ⟨{ w with store }.setStatus g .running, .exiting g r x :: .closing g :: stack, .close d⟩

/-- Delivers a reply to the topmost activation. -/
def deliver (w : World G) (a : Activation G) (stack : List (Activation G)) (r : Reply) :
    Config G :=
  match a, r with
  | .calling p, r =>
    let (w, t) := p.step w r
    turnOfCall w stack t
  | .running g p, r =>
    let (w, t) := p.step w r
    turnOf w stack g t
  | .relaying g p d, .yielded v =>
    reply (w.setStatus g (.delegating p d)) stack (.yielded v)
  | .relaying g p _, r => reply w (.running g p :: stack) r.ended
  | .closing g, .yielded _ => refuse w stack (.ignoredExit g.kind)
  | .closing _, .value _ => reply w stack (.value .none)
  | .closing _, .raised x =>
    if x.kind.isA .generatorExit || x.kind.isA .stopIteration then reply w stack (.value .none)
    else reply w stack (.raised x)
  | .exiting g p _, .raised y => reply w (.running g p :: stack) (.raised y)
  | .exiting g p x, _ => reply w (.running g p :: stack) (.raised x)

/-- One step; a reply that nobody waits for is the end. -/
def step (c : Config G) : Except (World G × Reply) (Config G) :=
  match c with
  | ⟨w, stack, .call f args caller⟩ => .ok (call w stack f args caller)
  | ⟨w, stack, .advance g i⟩ => .ok (advance w stack g i)
  | ⟨w, stack, .close g⟩ => .ok (close w stack g)
  | ⟨w, a :: stack, .reply r⟩ => .ok (deliver w a stack r)
  | ⟨w, [], .reply r⟩ => .error (w, r)

/-- Runs a configuration for at most `fuel` steps. -/
def run : (fuel : Nat) → Config G → Option (World G × Reply)
  | 0, _ => none
  | fuel + 1, c =>
    match step c with
    | .error r => some r
    | .ok c => run fuel c

theorem run_mono {m n : Nat} (h : m ≤ n) {c : Config G} {r : World G × Reply}
    (hr : run m c = some r) : run n c = some r := by
  induction m generalizing n c with
  | zero => simp [run] at hr
  | succ m ih =>
    obtain ⟨n, rfl⟩ : ∃ k, n = k + 1 := ⟨n - 1, by omega⟩
    simp only [run] at hr ⊢
    split at hr
    · exact hr
    · exact ih (by omega) hr

end Config

end OneShot
