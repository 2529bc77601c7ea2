import OneShot.Proofs.Frames.Activity
import OneShot.Proofs.Frames.Soundness
import OneShot.Proofs.Steps
import OneShot.Proofs.Split.Alike

/-!
# Two runs side by side

In the first run the stack of a machine is split: a machine with what is above is run by
a generator on top of what another machine has.  In the second run one machine has all.
While the upper machine has not resent anything, its turns are those of the machine that
has all.  Afterwards it only relays, and its generator is a frame like others: on the
stack of a machine, in a slice that is pending or that somebody asked for, or on its way.
-/

namespace OneShot.Split

open List (Forall₂)
open Machine (Phase)

variable {c : Code}

/--
Where a stack is split.  The machine `inner` with what is above is run by `relay`, on top
of what the machine `outer` has, which is run by `nested`; in the other run `flat` runs
the machine `whole`.
-/
structure Seam where
  relay : Gen
  inner : Nat
  nested : Gen
  outer : Nat
  flat : Gen
  whole : Nat

/-- Where the relay may be found. -/
inductive Place where
  /-- There is none, or nobody will find it again. -/
  | absent
  /-- The upper machine has not resent anything. -/
  | live
  /-- It is about to be closed, or was closed. -/
  | lost
  | stack (m : Nat)
  | slice (k : Nat)
  /-- In the slice that the generator of this number asks for. -/
  | asked (i : Nat)
  /-- In the slice of the request that is answered next. -/
  | flight
  deriving DecidableEq

/-- The relay waits for what it is to pass on. -/
def Place.Holds : Place → Prop
  | .stack _ | .slice _ | .asked _ | .flight => True
  | _ => False

/-- Two runs: which names correspond, and which generators run which machines. -/
structure Joint where
  /-- Nothing is split. -/
  lone : Prop
  seam : Seam
  place : Place
  names : Names
  runs : Nat → Option Nat
  runs' : Nat → Option Nat
  store : Store
  store' : Store

namespace Joint

/-- The stack of a machine, and that of one of the other run, which has `tail` below. -/
def Stands (J : Joint) (m m' : Nat) (tail : List Val) : Prop :=
  ∃ fs, J.store'.stack m' = fs ++ tail ∧ Spread J.names J.seam.relay (J.place = .stack m) (J.store.stack m) fs

/-- Likewise, with a generator on top. -/
def Tops (J : Joint) (m m' : Nat) (tail : List Val) : Prop :=
  ∃ fs, J.store'.stack m' = fs ++ tail ∧ Topped J.names J.seam.relay (J.place = .stack m) (J.store.stack m) fs

/-- What two continuations have captured. -/
def Slices (J : Joint) (here : Prop) (k l : Cont) : Prop :=
  Topped J.names J.seam.relay here (J.store.frames k) (J.store'.frames l)

end Joint

variable {J K : Joint}

/-! ## Routines -/

/-- Two machines that wait, with `tail` below the stack of the second one. -/
inductive Resident (J : Joint) (m m' : Nat) (tail : List Val) : Phase → Phase → Prop
  | start (stands : J.Stands m m' tail) : Resident J m m' tail .start .start
  | calling (stands : J.Stands m m' tail) : Resident J m m' tail .calling .calling
  | advancing {g h : Gen} (pair : J.names.gens g h) (tops : J.Tops m m' tail) :
      Resident J m m' tail (.advancing (.gen g)) (.advancing (.gen h))
  | escaped (tops : J.Tops m m' tail) : Resident J m m' tail .escaped .escaped
  | discarding {v w : Val} (op : Alike J.names v w) (stands : J.Stands m m' tail) :
      Resident J m m' tail (.discarding v) (.discarding w)

/-- Routines that run no machine and request nothing. -/
inductive PlainAlike (J : Joint) : Routine (guest c) → Routine (guest c) → Prop
  | code (s : c.State) : PlainAlike J (.guest (.code s)) (.guest (.code s))
  | looking (s : c.State) (v : Item) : PlainAlike J (.guest (.looking s v)) (.guest (.looking s v))
  | discarding (s : c.State) {k l : Cont} (pair : J.names.conts k l) (slices : J.Slices (J.place = .lost) k l) :
      PlainAlike J (.guest (.discarding s k)) (.guest (.discarding s l))
  | calling {v w : Val} (alike : Alike J.names v w) : PlainAlike J (.library (.calling v)) (.library (.calling w))
  | converting : PlainAlike J (.library .converting) (.library .converting)
  | applying (l : Layer) (t u : Tag) {v w : Val} (alike : Alike J.names v w) :
      PlainAlike J (.library (.applying l.handler t v)) (.library (.applying l.handler u w))
  | applied (l : Layer) (t u : Tag) :
      PlainAlike J (.library (.applied l.handler t)) (.library (.applied l.handler u))
  | passing : PlainAlike J (.library .passing) (.library .passing)
  | closing {vs ws : List Val} (contents : Contents J.names J.seam.relay (J.place = .lost) vs ws) :
      PlainAlike J (.library (.closing vs)) (.library (.closing ws))

abbrev machine (m : Nat) (p : Phase) : Routine (guest c) := .library (.machine m p)

/-- Routines in two generators. -/
inductive RoutineAlike (J : Joint) (i i' : Nat) : Routine (guest c) → Routine (guest c) → Prop
  | plain {p q : Routine (guest c)} (alike : PlainAlike J p q) : RoutineAlike J i i' p q
  | asking (a b : Nat) {k l : Cont} {v w e f : Val} (pair : J.names.conts k l) (value : Alike J.names v w)
      (error : Alike J.names e f) (slices : J.Slices (J.place = .asked i) k l) :
      RoutineAlike J i i' (.library (.asking (.yield (.resumption a ⟨.cont k, v, e⟩) .direct)))
        (.library (.asking (.yield (.resumption b ⟨.cont l, w, f⟩) .direct)))
  | machine {m m' : Nat} {p q : Phase} (runs : J.runs m = some i) (runs' : J.runs' m' = some i')
      (resident : Resident J m m' [] p q) : RoutineAlike J i i' (machine m p) (machine m' q)
  | resent {m m' : Nat} (runs : J.runs m = some i) (runs' : J.runs' m' = some i')
      (empty : J.store.stack m = []) (empty' : J.store'.stack m' = []) :
      RoutineAlike J i i' (machine m .resent) (machine m' .resent)
  | closing {m m' : Nat} {vs ws : List Val} {x y : Exc} (runs : J.runs m = some i) (runs' : J.runs' m' = some i')
      (contents : Contents J.names J.seam.relay (J.place = .lost) vs ws)
      (error : Alike J.names (.exc x) (.exc y)) :
      RoutineAlike J i i' (machine m (.closing vs x)) (machine m' (.closing ws y))

/-! ## Stacks -/

/-- Whether an activation may be told of a suspension. -/
def Hears : Activation (guest c) → Prop
  | .calling (.guest _) | .running _ (.guest _) | .relaying .. | .closing _ => True
  | .running _ (.library (.machine _ (.advancing _))) => True
  | _ => False

def Heard (stack : List (Activation (guest c))) : Prop := ∀ a ∈ stack.head?, Hears a

theorem Heard.of_head {a : Activation (guest c)} {stack : List (Activation (guest c))} (hears : Hears a) : Heard (a :: stack) := by
  rintro b ⟨⟩
  exact hears

inductive ActivationAlike (J : Joint) : Activation (guest c) → Activation (guest c) → Prop
  | calling {p q : Routine (guest c)} (alike : PlainAlike J p q) : ActivationAlike J (.calling p) (.calling q)
  | running {g h : Gen} {p q : Routine (guest c)} (pair : J.names.gens g h) (alike : RoutineAlike J g.id h.id p q) :
      ActivationAlike J (.running g p) (.running h q)
  | relaying {g h d e : Gen} (s : c.State) (pair : J.names.gens g h) (below : J.names.gens d e) :
      ActivationAlike J (.relaying g (.guest (.code s)) d) (.relaying h (.guest (.code s)) e)
  | closing {g h : Gen} (pair : J.names.gens g h) : ActivationAlike J (.closing g) (.closing h)
  | exiting {g h : Gen} (s : c.State) {x y : Exc} (pair : J.names.gens g h) (error : Alike J.names (.exc x) (.exc y)) :
      ActivationAlike J (.exiting g (.guest (.code s)) x) (.exiting h (.guest (.code s)) y)

/-- The upper machine has not resent anything, and what the lower one has is that of the other run as well. -/
structure Splits (J : Joint) (tail : List Val) : Prop where
  live : J.place = .live
  inner : J.runs J.seam.inner = some J.seam.relay.id
  outer : J.runs J.seam.outer = some J.seam.nested.id
  whole : J.runs' J.seam.whole = some J.seam.flat.id
  pair : J.names.gens J.seam.nested J.seam.flat
  below : ∃ t fs, J.store.stack J.seam.outer = genFrame J.seam.relay t :: fs ∧ Forall₂ (FrameAlike J.names) fs tail

/-- The upper machine waits as the one with all does. -/
def Spans (J : Joint) (p q : Phase) : Prop :=
  ∃ tail, Splits J tail ∧ Resident J J.seam.inner J.seam.whole tail p q

/-- The upper machine closes what it has, and the lower one is to go on with it. -/
structure Sweeps (J : Joint) (p q r : Phase) : Prop where
  live : J.place = .live
  inner : J.runs J.seam.inner = some J.seam.relay.id
  outer : J.runs J.seam.outer = some J.seam.nested.id
  whole : J.runs' J.seam.whole = some J.seam.flat.id
  pair : J.names.gens J.seam.nested J.seam.flat
  rest : ∃ vs ws vs' ws' x y z, p = .closing vs z ∧ q = .closing vs' x ∧ r = .closing (ws ++ ws') y ∧
    z.kind = .generatorExit ∧ Contents J.names J.seam.relay False vs ws ∧ Contents J.names J.seam.relay False vs' ws' ∧
    Alike J.names (.exc x) (.exc y)

/-- What the two machines of the first run have on the stack of the kernel. -/
abbrev splitBy (S : Seam) (p : Phase) (stack : List (Activation (guest c))) : List (Activation (guest c)) :=
  .running S.relay (machine S.inner p) :: .running S.nested (machine S.outer (.advancing (.gen S.relay))) :: stack

/-- Likewise, while they close what they have. -/
abbrev sweptBy (S : Seam) (p q : Phase) (stack : List (Activation (guest c))) : List (Activation (guest c)) :=
  .running S.relay (machine S.inner p) :: .closing S.relay :: .running S.nested (machine S.outer q) :: stack

inductive Stacks (J : Joint) : List (Activation (guest c)) → List (Activation (guest c)) → Prop
  | nil : Stacks J [] []
  | cons {a b : Activation (guest c)} {S T : List (Activation (guest c))} (top : ActivationAlike J a b)
      (heard : a.active?.isSome → Heard S) (rest : Stacks J S T) : Stacks J (a :: S) (b :: T)
  | split {p q : Phase} {S T : List (Activation (guest c))} (spans : Spans J p q) (asks : p ≠ .start ∧ p ≠ .escaped) (heard : Heard S) (rest : Stacks J S T) :
      Stacks J (splitBy J.seam p S) (.running J.seam.flat (machine J.seam.whole q) :: T)
  | swept {p q r : Phase} {S T : List (Activation (guest c))} {g h : Gen} (pair : J.names.gens g h) (sweeps : Sweeps J p q r)
      (heard : Heard S) (rest : Stacks J S T) :
      Stacks J (.closing g :: sweptBy J.seam p q S) (.closing h :: .running J.seam.flat (machine J.seam.whole r) :: T)

/-! ## Worlds -/

/-- Two generators, of which the first one may be what runs the lower machine, with the status of the relay. -/
inductive StatusAlike (J : Joint) (relay : Status (guest c)) (g h : Gen) : Status (guest c) → Status (guest c) → Prop
  | fresh {p q : Routine (guest c)} (alike : RoutineAlike J g.id h.id p q) : StatusAlike J relay g h (.fresh p) (.fresh q)
  | suspended {p q : Routine (guest c)} (how : Suspension) (alike : RoutineAlike J g.id h.id p q) :
      StatusAlike J relay g h (.suspended p how) (.suspended q how)
  | delegating (s : c.State) {d e : Gen} (pair : J.names.gens d e) :
      StatusAlike J relay g h (.delegating (.guest (.code s)) d) (.delegating (.guest (.code s)) e)
  | running : StatusAlike J relay g h .running .running
  | finished : StatusAlike J relay g h .finished .finished
  | splitFresh (nested : g = J.seam.nested) (flat : h = J.seam.flat) (spans : Spans J .start .start)
      (fresh : relay = .fresh (machine J.seam.inner .start)) :
      StatusAlike J relay g h (.fresh (machine J.seam.outer .start)) (.fresh (machine J.seam.whole .start))
  | splitEscaped (nested : g = J.seam.nested) (flat : h = J.seam.flat) (spans : Spans J .escaped .escaped)
      (escaped : relay = .suspended (machine J.seam.inner .escaped) .direct) :
      StatusAlike J relay g h (.suspended (machine J.seam.outer .escaped) .direct)
        (.suspended (machine J.seam.whole .escaped) .direct)

/-- Statuses of generators, neither of which stands for a part of the other one. -/
inductive StatusAlike.Plain (J : Joint) (g h : Gen) : Status (guest c) → Status (guest c) → Prop
  | fresh {p q : Routine (guest c)} (alike : RoutineAlike J g.id h.id p q) : Plain J g h (.fresh p) (.fresh q)
  | suspended {p q : Routine (guest c)} (how : Suspension) (alike : RoutineAlike J g.id h.id p q) :
      Plain J g h (.suspended p how) (.suspended q how)
  | delegating (s : c.State) {d e : Gen} (pair : J.names.gens d e) :
      Plain J g h (.delegating (.guest (.code s)) d) (.delegating (.guest (.code s)) e)
  | running : Plain J g h .running .running
  | finished : Plain J g h .finished .finished

theorem StatusAlike.Plain.alike {J : Joint} {relay s t : Status (guest c)} {g h : Gen} (plain : StatusAlike.Plain J g h s t) :
    StatusAlike J relay g h s t := by
  cases plain with
  | fresh alike => exact .fresh alike
  | suspended how alike => exact .suspended how alike
  | delegating s pair => exact .delegating s pair
  | running => exact .running
  | finished => exact .finished

/-- While the lower machine is at work, no status tells of both machines. -/
theorem StatusAlike.plain {J : Joint} {relay s t : Status (guest c)} {g h : Gen} (alike : StatusAlike J relay g h s t)
    (busy : J.place = .live → g = J.seam.nested → s = .running) : StatusAlike.Plain J g h s t := by
  cases alike with
  | fresh alike => exact .fresh alike
  | suspended how alike => exact .suspended how alike
  | delegating s pair => exact .delegating s pair
  | running => exact .running
  | finished => exact .finished
  | splitFresh nested flat spans fresh =>
      obtain ⟨tail, splits, -⟩ := spans
      cases busy splits.live nested
  | splitEscaped nested flat spans escaped =>
      obtain ⟨tail, splits, -⟩ := spans
      cases busy splits.live nested

/-- The relay waits for what it is to pass on. -/
structure Relays (J : Joint) (relay : Status (guest c)) : Prop where
  waits : relay = .suspended (machine J.seam.inner .resent) .inner
  inner : J.runs J.seam.inner = some J.seam.relay.id
  empty : J.store.stack J.seam.inner = []

/-- Names are one for one. -/
structure Names.Once (N : Names) : Prop where
  gens : ∀ {g h d e}, N.gens g h → N.gens d e → g.id = d.id ∨ h.id = e.id → g = d ∧ h = e
  conts : ∀ {k l i j}, N.conts k l → N.conts i j → k.index = i.index ∨ l.index = j.index → k = i ∧ l = j

/-- They are those of what there is. -/
structure Names.Fits (N : Names) (w w' : World (guest c)) : Prop extends N.Once where
  gen : ∀ {g h}, N.gens g h → g.id < w.gens.size ∧ h.id < w'.gens.size ∧ g.kind = .generator ∧ h.kind = .generator
  cont : ∀ {k l}, N.conts k l → k.index < w.store.conts.size ∧ l.index < w'.store.conts.size

/-- Two memories of code. -/
structure MemoAlike (N : Names) (m m' : Memo c) : Prop where
  data : m.data = m'.data
  known : Forall₂ (Alike N) m.known m'.known
  log : m.log = m'.log

structure Worlds (J : Joint) (w w' : World (guest c)) : Prop where
  store : w.store = J.store
  store' : w'.store = J.store'
  lone : J.lone → J.place = .absent
  own : w.store.Own
  own' : w'.store.Own
  settings : w.store.settings = w'.store.settings
  memory : MemoAlike J.names w.memory w'.memory
  fits : J.names.Fits w w'
  runs : ∀ m i, J.runs m = some i → m < w.store.machines.size
  runs' : ∀ m i, J.runs' m = some i → m < w'.store.machines.size
  gens : ∀ g h, J.names.gens g h → StatusAlike J (w.status J.seam.relay) g h (w.status g) (w'.status h)
  conts : ∀ k l, J.names.conts k l → w.store.isTaken k = w'.store.isTaken l ∧
    (w.store.isTaken k = false → J.Slices (J.place = .slice k.index) k l)
  relay : J.place ≠ .absent → J.seam.relay.id < w.gens.size ∧ J.seam.relay.kind = .generator ∧
    ∀ g h, J.names.gens g h → g.id ≠ J.seam.relay.id
  holds : J.place.Holds → Relays J (w.status J.seam.relay)
  lost : J.place = .lost → Relays J (w.status J.seam.relay) ∨ w.status J.seam.relay = .finished

/-! ## Signals -/

inductive InputAlike (N : Names) : Input → Input → Prop
  | send {v w : Val} (alike : Alike N v w) : InputAlike N (.send v) (.send w)
  | throw {v w : Val} (alike : Alike N v w) : InputAlike N (.throw v) (.throw w)

inductive ReplyAlike (J : Joint) : Reply → Reply → Prop
  | value {v w : Val} (alike : Alike J.names v w) : ReplyAlike J (.value v) (.value w)
  | raised {x y : Exc} (alike : Alike J.names (.exc x) (.exc y)) : ReplyAlike J (.raised x) (.raised y)
  | yielded {v w : Val} (alike : Alike J.names v w) : ReplyAlike J (.yielded v) (.yielded w)
  | request (a b : Nat) {k l : Cont} {v w e f : Val} (pair : J.names.conts k l) (value : Alike J.names v w)
      (error : Alike J.names e f) (slices : J.Slices (J.place = .flight) k l) :
      ReplyAlike J (.yielded (.resumption a ⟨.cont k, v, e⟩)) (.yielded (.resumption b ⟨.cont l, w, f⟩))
  | resent (a b e : Nat) {as bs : Arguments} {k l : Cont} {v w : Val} (args : Forall₂ (Alike J.names) as.values bs.values)
      (pair : J.names.conts k l) (pending : J.store.isTaken k = false) (place : Memo.placeOf v = Memo.placeOf w) :
      ReplyAlike J (.yielded (.resend a ⟨.effect (effect e), as, .cont k, v⟩))
        (.yielded (.resend b ⟨.effect (effect e), bs, .cont l, w⟩))

inductive SignalAlike (J : Joint) (stack : List (Activation (guest c))) : Signal → Signal → Prop
  | reply {r r' : Reply} (alike : ReplyAlike J r r') (heard : ∀ v, r = .yielded v → Heard stack) :
      SignalAlike J stack (.reply r) (.reply r')
  | call {f g : Val} {vs ws : List Val} (caller : Caller) (alike : Alike J.names f g) (args : Forall₂ (Alike J.names) vs ws) :
      SignalAlike J stack (.call f vs caller) (.call g ws caller)
  | convert {v w : Val} (caller : Caller) (alike : Alike J.names v w) :
      SignalAlike J stack (.call (.native (.service .toGenerator)) [v] caller)
        (.call (.native (.service .toGenerator)) [w] caller)
  | throwInto {k l : Cont} {v w : Val} (caller : Caller) (pair : J.names.conts k l) (alike : Alike J.names v w) :
      SignalAlike J stack (.call (.native (.service .throwInto)) [.cont k, v] caller)
        (.call (.native (.service .throwInto)) [.cont l, w] caller)
  | consume {k l : Cont} (caller : Caller) (pair : J.names.conts k l) :
      SignalAlike J stack (.call (.native (.op .markConsumed)) [.cont k] caller)
        (.call (.native (.op .markConsumed)) [.cont l] caller)
  | check {k l : Cont} (caller : Caller) (pair : J.names.conts k l) :
      SignalAlike J stack (.call (.native (.op .field)) [.cont k, .str "consumed"] caller)
        (.call (.native (.op .field)) [.cont l, .str "consumed"] caller)
  | dismiss {k l : Cont} (caller : Caller) (pair : J.names.conts k l) (slices : J.Slices (J.place = .lost) k l) :
      SignalAlike J stack (.call (.native (.service .close)) [.cont k] caller)
        (.call (.native (.service .close)) [.cont l] caller)
  | runMachine {m m' : Nat} (caller : Caller) (inside : m < J.store.machines.size) (inside' : m' < J.store'.machines.size)
      (idle : J.runs m = none) (idle' : J.runs' m' = none) (stands : J.Stands m m' []) :
      SignalAlike J stack (.call (.native (.service .runMachine)) [.machine m] caller)
        (.call (.native (.service .runMachine)) [.machine m'] caller)
  | advance {g h : Gen} {i j : Input} (pair : J.names.gens g h) (alike : InputAlike J.names i j) (heard : Heard stack) :
      SignalAlike J stack (.advance g i) (.advance h j)
  | close {g h : Gen} (pair : J.names.gens g h) : SignalAlike J stack (.close g) (.close h)

/-- Two plain functions, or two generators that correspond. -/
inductive SeatAlike (N : Names) : Option Gen → Option Gen → Prop
  | function : SeatAlike N none none
  | generator {g h : Gen} (pair : N.gens g h) : SeatAlike N (some g) (some h)

theorem SeatAlike.mono {N M : Names} {seat seat' : Option Gen} (seats : SeatAlike N seat seat') (le : N ≤ M) :
    SeatAlike M seat seat' := by
  cases seats with
  | function => exact .function
  | generator pair => exact .generator (Names.gens_mono le pair)

/-- The configurations of two runs correspond. -/
inductive Corresponds : Prop → Config (guest c) → Config (guest c) → Prop
  | joint (J : Joint) {w w' : World (guest c)} {S T : List (Activation (guest c))} {a b : Signal} (worlds : Worlds J w w')
      (layout : Stacks J S T) (signals : SignalAlike J S a b) : Corresponds J.lone ⟨w, S, a⟩ ⟨w', T, b⟩
  | swept (J : Joint) {w w' : World (guest c)} {S T : List (Activation (guest c))} {p q r : Phase} {g h : Gen}
      (worlds : Worlds J w w') (sweeps : Sweeps J p q r) (heard : Heard S) (rest : Stacks J S T) (pair : J.names.gens g h) :
      Corresponds J.lone ⟨w, sweptBy J.seam p q S, .close g⟩
        ⟨w', .running J.seam.flat (machine J.seam.whole r) :: T, .close h⟩
  /-- Code marks a continuation as consumed, to close what it has captured. -/
  | discards (J : Joint) {w w' : World (guest c)} {S T : List (Activation (guest c))} {seat seat' : Option Gen} (s : c.State)
      {k l : Cont} (caller : Caller) (worlds : Worlds J w w') (seats : SeatAlike J.names seat seat')
      (heard : seat.isSome → Heard S) (rest : Stacks J S T) (pair : J.names.conts k l) :
      Corresponds J.lone ⟨w, .body seat (.guest (.discarding s k)) :: S, .call (.native (.op .markConsumed)) [.cont k] caller⟩
        ⟨w', .body seat' (.guest (.discarding s l)) :: T, .call (.native (.op .markConsumed)) [.cont l] caller⟩
  /-- Code could not mark a continuation as consumed. -/
  | refused (J : Joint) {w w' : World (guest c)} {S T : List (Activation (guest c))} {seat seat' : Option Gen} (s : c.State)
      {k l : Cont} {x y : Exc} (worlds : Worlds J w w') (seats : SeatAlike J.names seat seat')
      (heard : seat.isSome → Heard S) (rest : Stacks J S T) (alike : Alike J.names (.exc x) (.exc y)) :
      Corresponds J.lone ⟨w, .body seat (.guest (.discarding s k)) :: S, .reply (.raised x)⟩
        ⟨w', .body seat' (.guest (.discarding s l)) :: T, .reply (.raised y)⟩

end OneShot.Split
