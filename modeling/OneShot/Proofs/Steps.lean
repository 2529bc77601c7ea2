import OneShot.Proofs.Settling
import OneShot.Proofs.Deep.Outward

/-!
# Steps between points of a run

What the turns of bodies and the calls of values come to, as points of a run.
-/

namespace OneShot

open Config (Leads)
open Deep (Failure Result)

variable {G : Guest} {A : List (Activation G)} {mem mem' : G.Memory} {F : Facts G} {C : Config G}
  {g d : Gen} {a : Deep.Answer} {r : Reply} {f : Val} {args : List Val} {caller : Caller}

namespace Deep

def Answer.turn {σ : Type} : Answer → Turn σ
  | .value v => .done v
  | .failed x => .raise x.exc

theorem Result.turn_eq {σ : Type} (r : Result) : r.turn = (r.answer.turn : Turn σ) := by
  cases r <;> rfl

theorem Answer.map_turn {σ τ : Type} (a : Answer) (f : σ → τ) : a.turn.map f = a.turn := by
  cases a <;> rfl

end Deep

/-! ## Turns -/

/-- The configuration after a turn of a plain function, or of the body of a generator. -/
def Config.turned (w : World G) (A : List (Activation G)) :
    Option Gen → Turn (Routine G) → Config G
  | none => turnOfCall w A
  | some g => turnOf w A g

/-- A plain function that runs, or the body of a generator. -/
def Activation.body : Option Gen → Routine G → Activation G
  | none => .calling
  | some g => .running g

/-- A turn of a body was taken. -/
def Turning (seat : Option Gen) (A : List (Activation G)) (t : Turn (Routine G)) (mem : G.Memory)
    (F : Facts G) (C : Config G) : Prop :=
  ∃ w : World G, C = Config.turned w A seat t ∧ w.memory = mem ∧ w.Bears F

variable {seat : Option Gen} {p : Routine G}

theorem Config.step_body (w : World G) (A : List (Activation G)) (seat : Option Gen)
    (p : Routine G) (r : Reply) :
    Config.step ⟨w, .body seat p :: A, .reply r⟩ =
      .ok (Config.turned (p.step w r).1 A seat (p.step w r).2) := by
  cases seat <;> rfl

theorem At.guest {b : G.Body} {t : Turn G.Body} (seat : Option Gen)
    (h : At (.body seat (.guest b) :: A) (.reply r) mem F C) (stepped : G.step mem b r = (mem', t)) : Leads 1 C (Turning seat A (t.map .guest) mem' F) := by
  obtain ⟨w, rfl, rfl, bears⟩ := h
  refine .step (Config.step_body w A seat _ r) (.here ⟨{ w with memory := mem' }, ?_, rfl, bears.memory mem'⟩)
  simp only [Routine.step, stepped]

/-- A store under the settings of which is known. -/
def Suits (F : Facts G) (s : Store) : Prop := ∀ S, .settings S ∈ F → s.settings = S

theorem World.Bears.suits {w : World G} (bears : w.Bears F) : Suits F w.store :=
  fun _ known => bears.holds _ known

/-- A turn of a routine of the library that leaves machines and continuations alone. -/
theorem At.turnsUnder {q : Process} (seat : Option Gen)
    (h : At (.body seat (.library q) :: A) (.reply r) mem F C)
    (engine : ∀ s, (q.step s r).1.engine = s.engine) :
    Leads 1 C fun D => ∃ s, Suits F s ∧ Turning seat A ((q.step s r).2.map .library) mem F D := by
  obtain ⟨w, rfl, rfl, bears⟩ := h
  exact .step (Config.step_body w A seat _ r) (.here ⟨w.store, bears.suits,
    { w with store := (q.step w.store r).1 }, rfl, rfl, bears.store _ (engine w.store)⟩)

theorem At.turns {q : Process} (seat : Option Gen)
    (h : At (.body seat (.library q) :: A) (.reply r) mem F C)
    (engine : ∀ s, (q.step s r).1.engine = s.engine) :
    Leads 1 C fun D => ∃ s, Turning seat A ((q.step s r).2.map .library) mem F D :=
  (h.turnsUnder seat engine).mono fun _ turned => turned.imp fun _ => And.right

theorem At.library {q : Process} {t : Turn Process} (seat : Option Gen)
    (h : At (.body seat (.library q) :: A) (.reply r) mem F C)
    (stepped : ∀ s, (q.step s r).1.engine = s.engine ∧ (q.step s r).2 = t) :
    Leads 1 C (Turning seat A (t.map .library) mem F) := by
  refine (At.turns seat h fun s => (stepped s).1).mono ?_
  rintro D ⟨s, turned⟩
  exact (stepped s).2 ▸ turned

namespace Turning

theorem of_eq {t : Turn (Routine G)} {E : Facts G} (h : Turning seat A t mem F C) (same : F = E) :
    Turning seat A t mem E C := same ▸ h

theorem more (h : Turning seat A (.more p) mem F C) :
    At (.body seat p :: A) (.reply (.value .none)) mem F C := by
  obtain ⟨w, rfl, memory, bears⟩ := h
  cases seat <;> exact ⟨w, rfl, memory, bears⟩

theorem call (h : Turning seat A (.ask (.call f args) p) mem F C) :
    At (.body seat p :: A) (.call f args p.caller) mem F C := by
  obtain ⟨w, rfl, memory, bears⟩ := h
  cases seat <;> exact ⟨w, rfl, memory, bears⟩

theorem advance {i : Input} (h : Turning seat A (.ask (.advance d i) p) mem F C) :
    At (.body seat p :: A) (.advance d i) mem F C := by
  obtain ⟨w, rfl, memory, bears⟩ := h
  cases seat <;> exact ⟨w, rfl, memory, bears⟩

theorem yield {v : Val} {how : Suspension}
    (h : Turning (some g) A (.ask (.yield v how) p) mem ({.gen g.id .running} + F) C) :
    At A (.reply (.yielded v)) mem ({.gen g.id (.suspended p how)} + F) C := by
  obtain ⟨w, rfl, memory, bears⟩ := h
  exact ⟨_, rfl, memory, bears.setStatus _⟩

theorem delegate (kind : d.kind = .generator)
    (h : Turning (some g) A (.ask (.delegate (.gen d)) p) mem F C) :
    At (.relaying g p d :: A) (.advance d (.send .none)) mem F C := by
  obtain ⟨w, rfl, memory, bears⟩ := h
  refine ⟨w, ?_, memory, bears⟩
  have found : (Val.gen d).generator? = some d := if_pos kind
  simp only [Config.turned, Config.turnOf, found]

/-- The body of a generator ends. -/
theorem ends (h : Turning (some g) A a.turn mem ({.gen g.id .running} + F) C) :
    At A (.reply a.reply) mem F C := by
  obtain ⟨w, rfl, memory, bears⟩ := h
  refine ⟨w.setStatus g .finished, ?_, memory, (bears.setStatus .finished).right⟩
  cases a with
  | value v => rfl
  | failed x => exact if_neg x.noStop

/-- A plain function ends. -/
theorem returns (h : Turning none A a.turn mem F C) : At A (.reply a.reply) mem F C := by
  obtain ⟨w, rfl, memory, bears⟩ := h
  cases a <;> exact ⟨w, rfl, memory, bears⟩

end Turning

/-- A routine of the library that ends with what it gets. -/
theorem At.libraryEnds {q : Process}
    (h : At (.running g (.library q) :: A) (.reply r) mem ({.gen g.id .running} + F) C)
    (stepped : ∀ s, (q.step s r).1.engine = s.engine ∧ (q.step s r).2 = a.turn) :
    Leads 1 C (At A (.reply a.reply) mem F) := by
  refine (At.library (some g) h stepped).mono fun D turned => ?_
  rw [Deep.Answer.map_turn] at turned
  exact turned.ends

theorem At.libraryReturns {q : Process} (h : At (.calling (.library q) :: A) (.reply r) mem F C)
    (stepped : ∀ s, (q.step s r).1.engine = s.engine ∧ (q.step s r).2 = a.turn) :
    Leads 1 C (At A (.reply a.reply) mem F) := by
  refine (At.library none h stepped).mono fun D turned => ?_
  rw [Deep.Answer.map_turn] at turned
  exact turned.returns

/-! ## Calls -/

/-- The configuration after a call of something else than a function of the program. -/
def Config.started (w : World G) (A : List (Activation G)) : Start → Config G
  | .done v => reply w A (.value v)
  | .raise x => reply w A (.raised x)
  | .fault f => refuse w A f
  | .enter p => reply w (.calling (.library p) :: A) (.value .none)
  | .spawn kind name p =>
      reply (w.spawn kind name (.library p)).1 A
        (.value (.gen (w.spawn kind name (.library p)).2))
  | .call f args caller => ⟨w, A, .call f args caller⟩

theorem Config.call_of_invoke (w : World G) (A : List (Activation G)) (args : List Val)
    (caller : Caller) (other : ∀ id name, f ≠ .closure id name) :
    Config.call w A f args caller =
      started { w with store := (invoke w.store f args caller).1 } A
        (invoke w.store f args caller).2 := by
  unfold Config.call
  split
  · exact absurd rfl (other _ _)
  · obtain ⟨s, t⟩ := invoke w.store f args caller
    cases t <;> rfl

/-- Something else than a function of the program was called. -/
def Invoked (A : List (Activation G)) (t : Start) (mem : G.Memory) (F : Facts G) (C : Config G) :
    Prop :=
  ∃ w : World G, C = Config.started w A t ∧ w.memory = mem ∧ w.Bears F

/-- A call that leaves machines and continuations alone. -/
theorem At.invokesUnder (h : At A (.call f args caller) mem F C)
    (other : ∀ id name, f ≠ .closure id name)
    (engine : ∀ s, (invoke s f args caller).1.engine = s.engine) :
    Leads 1 C fun D => ∃ s, Suits F s ∧ Invoked A (invoke s f args caller).2 mem F D := by
  obtain ⟨w, rfl, rfl, bears⟩ := h
  refine .step ((Config.step_call' w A f args caller).trans
    (congrArg Except.ok (Config.call_of_invoke w A args caller other))) (.here ⟨w.store, bears.suits, ?_⟩)
  exact ⟨{ w with store := (invoke w.store f args caller).1 }, rfl, rfl,
    bears.store _ (engine w.store)⟩

theorem At.invokes (h : At A (.call f args caller) mem F C)
    (other : ∀ id name, f ≠ .closure id name)
    (engine : ∀ s, (invoke s f args caller).1.engine = s.engine) :
    Leads 1 C fun D => ∃ s, Invoked A (invoke s f args caller).2 mem F D :=
  (h.invokesUnder other engine).mono fun _ invoked => invoked.imp fun _ => And.right

namespace Invoked

variable {v : Val} {q : Process}

theorem done (h : Invoked A (.done v) mem F C) : At A (.reply (.value v)) mem F C := h

theorem enter (h : Invoked A (.enter q) mem F C) :
    At (.calling (.library q) :: A) (.reply (.value .none)) mem F C := h

theorem call (h : Invoked A (.call f args caller) mem F C) :
    At A (.call f args caller) mem F C := h

theorem spawn {kind : GenKind} {name : String} (h : Invoked A (.spawn kind name q) mem F C) :
    ∃ d : Gen, d.kind = kind ∧
      At A (.reply (.value (.gen d))) mem ({.gen d.id (.fresh (.library q))} + F) C := by
  obtain ⟨w, rfl, memory, bears⟩ := h
  exact ⟨_, rfl, _, rfl, memory, bears.spawn kind name (.library q)⟩

end Invoked

/-- A call of the library that comes to a fixed start. -/
theorem At.starts {t : Start} (h : At A (.call f args caller) mem F C)
    (other : ∀ id name, f ≠ .closure id name)
    (invoked : ∀ s, (invoke s f args caller).1.engine = s.engine ∧ (invoke s f args caller).2 = t) :
    Leads 1 C (Invoked A t mem F) := by
  refine (h.invokes other fun s => (invoked s).1).mono ?_
  rintro D ⟨s, started⟩
  exact (invoked s).2 ▸ started

/-- A function of the program is entered. -/
theorem At.enters {id : Nat} {name : String} {b : G.Body}
    (h : At A (.call (.closure id name) args caller) mem F C)
    (entered : G.enter mem id args = (mem', .run b)) :
    Leads 1 C (At (.calling (.guest b) :: A) (.reply (.value .none)) mem' F) := by
  obtain ⟨w, rfl, rfl, bears⟩ := h
  refine .step (Config.step_call' w A _ args caller) (.here ⟨{ w with memory := mem' }, ?_, rfl,
    bears.memory mem'⟩)
  simp only [Config.call, entered, Config.reply]

/-- A function of the program makes a generator. -/
theorem At.spawns {id : Nat} {name : String} {kind : GenKind} {b : G.Body}
    (h : At A (.call (.closure id name) args caller) mem F C)
    (entered : G.enter mem id args = (mem', .spawn kind b)) :
    Leads 1 C fun D => ∃ d : Gen, d.kind = kind ∧
      At A (.reply (.value (.gen d))) mem' ({.gen d.id (.fresh (.guest b))} + F) D := by
  obtain ⟨w, rfl, rfl, bears⟩ := h
  refine .step (Config.step_call' w A _ args caller) (.here ⟨_, rfl, _, ?_, rfl,
    (bears.memory mem').spawn kind name (.guest b)⟩)
  simp only [Config.call, entered, Config.reply]

/-! ## Requests -/

/-- The generator that asks to have a continuation resumed with an answer. -/
def request (id : Nat) (k : Cont) (a : Deep.Answer) : Process :=
  .asking (.yield (.resumption id ⟨.cont k, a.sent, a.thrown⟩) .direct)

section

variable {k : Cont} {frames : List Val}

theorem At.requests (made : (Signal.call f args caller).request? = some ⟨k, a.sent, a.thrown⟩)
    (h : At A (.call f args caller) mem ({.cont k.index frames false} + F) C) :
    Leads 1 C fun D => ∃ (d : Gen) (id : Nat), d.kind = .generator ∧
      At A (.reply (.value (.gen d))) mem ({.gen d.id (.fresh (.library (request id k a)))} +
        ({.cont k.index frames true} + F)) D := by
  obtain ⟨w, rfl, rfl, bears⟩ := h
  obtain ⟨other, text, invoked⟩ := Signal.invoke_of_request made w.store
  obtain ⟨s, id, spawned, engine⟩ := Deep.request_of_pending bears.isTaken a.sent a.thrown text
  have taken := bears.take
  have left : World.Bears { w with store := s } ({.cont k.index frames true} + F) :=
    taken.store s engine
  refine .step ((Config.step_call' w A f args caller).trans (congrArg Except.ok
    (Config.call_of_spawn w A other (invoked.trans spawned)))) (.here ?_)
  exact ⟨_, id, rfl, _, rfl, rfl, left.spawn .generator "_request" (.library (request id k a))⟩

/-- The call of a continuation that was resumed already. -/
theorem At.refused (made : (Signal.call f args caller).request? = some ⟨k, a.sent, a.thrown⟩)
    (h : At A (.call f args caller) mem ({.cont k.index frames true} + F) C) :
    Leads 1 C fun D => ∃ x, At A (.reply (.raised x)) mem ({.cont k.index frames true} + F) D := by
  obtain ⟨w, rfl, rfl, bears⟩ := h
  obtain ⟨other, text, invoked⟩ := Signal.invoke_of_request made w.store
  have raised := Cont.request_of_isTaken bears.isTaken a.sent a.thrown text
  refine .step ((Config.step_call' w A f args caller).trans (congrArg Except.ok
    (Config.call_of_raise w A other (invoked.trans raised)))) (.here ?_)
  exact ⟨_, _, rfl, rfl, bears.store _ (Store.engine_doubleResumeError _ _)⟩

/-- A machine puts the frames of what is to be resumed on its stack. -/
theorem At.pushes {m id : Nat} {c : Val} {vals : List Val} {taken : Bool}
    (h : At (Machine.activation g m (.advancing c) :: A)
      (.reply (.yielded (.resumption id ⟨.cont k, a.sent, a.thrown⟩))) mem
      ({.machine m vals} + ({.cont k.index frames taken} + F)) C) :
    Leads 1 C (Settling g m A a.outcome mem
      ({.machine m (frames ++ vals)} + ({.cont k.index frames taken} + F))) := by
  obtain ⟨w, rfl, rfl, bears⟩ := h
  refine .step (Machine.step_activation w g m _ A _)
    (.here ⟨{ w with store := w.store.setStack m (frames ++ vals) }, ?_, rfl, bears.setStack _⟩)
  have lookup : w.store.frames k = frames := bears.right.frames
  simp only [Machine.step, Machine.receive, lookup, bears.stack]
  cases a <;> rfl

end

end OneShot
