import OneShot.Proofs.Points
import OneShot.Proofs.Frames.Turns

/-!
# Machines at points of a run

What a machine comes to when something is delivered to its stack, as points of
a run: its stack is a fact, and so is that its generator is running.
-/

namespace OneShot

open Config (Leads)
open Deep (Failure Result)

variable {G : Guest} {A : List (Activation G)} {mem : G.Memory} {F : Facts G} {C : Config G}

/-- A generator as it runs a machine. -/
def Machine.activation (g : Gen) (m : Nat) (p : Machine.Phase) : Activation G :=
  .running g (.library (.machine m p))

/-- The configuration after a turn of a machine. -/
def Machine.turned (w : World G) (g : Gen) (m : Nat) (A : List (Activation G))
    (r : Store × Turn Machine.Phase) : Config G :=
  Config.turnOf { w with store := r.1 } A g ((r.2.map (Process.machine m)).map Routine.library)

theorem Machine.step_activation (w : World G) (g : Gen) (m : Nat) (p : Machine.Phase)
    (A : List (Activation G)) (r : Reply) :
    Config.step ⟨w, Machine.activation g m p :: A, .reply r⟩ =
      .ok (Machine.turned w g m A (Machine.step w.store m p r)) := rfl

theorem Config.memory_leave (w : World G) (A : List (Activation G)) (g : Gen) (x : Exc) :
    (Config.leave w A g x).world.memory = w.memory := by
  simp only [Config.leave]
  split <;> rfl

/-- A turn leaves alone what the guest remembers. -/
theorem Config.memory_turnOf (w : World G) (A : List (Activation G)) (g : Gen) (t : Turn (Routine G)) :
    (Config.turnOf w A g t).world.memory = w.memory := by
  cases t with
  | raise x => exact Config.memory_leave w A g x
  | fault f => exact Config.memory_leave _ A g _
  | ask a r =>
      cases a with
      | await v =>
          simp only [Config.turnOf, Config.await]
          repeat' split
          all_goals rfl
      | delegate v =>
          simp only [Config.turnOf]
          split <;> rfl
      | _ => rfl
  | _ => rfl

/-- An outcome was delivered to the stack of a machine. -/
def Settling (g : Gen) (m : Nat) (A : List (Activation G)) (o : Outcome) (mem : G.Memory)
    (F : Facts G) (C : Config G) : Prop :=
  ∃ w : World G, C = Machine.turned w g m A (Machine.settle w.store m o) ∧ w.memory = mem ∧ w.Bears F

variable {g d : Gen} {m : Nat} {v : Val} {vals : List Val} {a : Deep.Answer} {c : Val}

theorem Settling.of_eq {o : Outcome} {E : Facts G} (h : Settling g m A o mem F C) (same : F = E) :
    Settling g m A o mem E C := same ▸ h

theorem Settling.memory {o : Outcome} (h : Settling g m A o mem F C) : C.world.memory = mem := by
  obtain ⟨w, rfl, rfl, -⟩ := h
  exact Config.memory_turnOf _ _ _ _

/-- What a machine has advanced has ended. -/
theorem At.popped (h : At (Machine.activation g m (.advancing c) :: A) (.reply a.reply) mem
      ({.machine m (v :: vals)} + F) C) :
    Leads 1 C (Settling g m A a.outcome mem ({.machine m vals} + F)) := by
  obtain ⟨w, rfl, memory, bears⟩ := h
  refine .step (Machine.step_activation w g m _ A _) (.here ⟨{ w with store := w.store.setStack m vals }, ?_,
    memory, bears.setStack vals⟩)
  cases a with
  | value v =>
      simp only [Deep.Answer.reply, Machine.step, Machine.finished, Machine.popThen, bears.stack]
      rfl
  | failed x =>
      simp only [Deep.Answer.reply, Machine.step, if_neg x.noStop, Machine.broken, if_pos x.isException,
        Machine.popThen, bears.stack, Machine.fail]
      rfl

/-- What a machine has called has given a result. -/
theorem At.called {r : Result} (h : At (Machine.activation g m .calling :: A)
      (.reply r.answer.reply) mem F C) :
    Leads 1 C (Settling g m A r.answer.outcome mem F) := by
  obtain ⟨w, rfl, memory, bears⟩ := h
  refine .step (Machine.step_activation w g m _ A _) (.here ⟨w, ?_, memory, bears⟩)
  cases r with
  | value v plain =>
      simp only [Result.answer, Deep.Answer.reply, Machine.step, plain]
      rfl
  | failed x =>
      simp only [Result.answer, Deep.Answer.reply, Machine.step, Machine.fail, if_pos x.isException]
      rfl

theorem At.resent (h : At (Machine.activation g m .resent :: A) (.reply a.reply) mem F C) :
    Leads 1 C (Settling g m A a.outcome mem F) := by
  obtain ⟨w, rfl, memory, bears⟩ := h
  refine .step (Machine.step_activation w g m _ A _) (.here ⟨w, ?_, memory, bears⟩)
  cases a with
  | value v => rfl
  | failed x =>
      simp only [Deep.Answer.reply, Machine.step, Machine.fail, if_pos x.isException]
      rfl

theorem At.escaped (h : At (Machine.activation g m .escaped :: A) (.reply a.reply) mem F C) :
    Leads 1 C (Settling g m A a.outcome mem F) := by
  obtain ⟨w, rfl, memory, bears⟩ := h
  refine .step (Machine.step_activation w g m _ A _) (.here ⟨w, ?_, memory, bears⟩)
  cases a with
  | value v => rfl
  | failed x =>
      simp only [Deep.Answer.reply, Machine.step, x.no_generatorExit, Machine.fail, if_pos x.isException]
      rfl

/-- A machine puts a generator that a call gave on its stack, and starts it. -/
theorem At.pushed (kind : d.kind = .generator) (h : At (Machine.activation g m .calling :: A)
      (.reply (.value (.gen d))) mem ({.machine m vals} + F) C) :
    Leads 1 C fun D => ∃ t, At (Machine.activation g m (.advancing (.gen d)) :: A)
      (.advance d (.send .none)) mem ({.machine m (.frame (.generator (.gen d) t) :: vals)} + F) D := by
  obtain ⟨w, rfl, memory, bears⟩ := h
  have tagged := bears.store w.store.freshTag.1 rfl
  let t := w.store.freshTag.2
  let store := w.store.freshTag.1.setStack m (.frame (.generator (.gen d) t) :: vals)
  have framed : World.Bears { w with store } _ := tagged.setStack (.frame (.generator (.gen d) t) :: vals)
  refine .step (Machine.step_activation w g m _ A _)
    (.here ⟨t, { w with store }, ?_, memory, framed⟩)
  have made : (Val.gen d).generator? = some d := if_pos kind
  obtain ⟨owner, there⟩ := framed.here
  have same : store.setStack m _ = store := Store.setStack_self there
  have below : w.store.freshTag.1.stack m = vals := tagged.stack
  have whole : store.stack m = .frame (.generator (.gen d) t) :: vals := framed.stack
  have stepped : Machine.step w.store m .calling (.value (.gen d)) = Machine.settle store m (.ok .none) := by
    simp only [Machine.step, made, store, below]
    rfl
  rw [stepped, Machine.settle, whole]
  simp only [Machine.deliver, same]
  rfl

/-- A machine without a stack ends with what is delivered to it. -/
theorem Settling.nil (h : Settling g m A a.outcome mem ({.gen g.id .running} + ({.machine m []} + F)) C) :
    At A (.reply a.reply) mem F C := by
  obtain ⟨w, rfl, memory, bears⟩ := h
  have popped : w.Bears ({.machine m []} + ({.gen g.id .running} + F)) := by
    rwa [add_left_comm]
  obtain ⟨owner, there⟩ := popped.here
  refine ⟨w.setStatus g .finished, ?_, memory, (bears.setStatus .finished).right.right⟩
  have settled (o : Outcome) : Machine.settle w.store m o = (w.store, o.finish) := by
    simp only [Machine.settle, Store.stack_of_own there, Machine.deliver, Store.setStack_self there]
  rw [settled]
  cases a with
  | value v => rfl
  | failed x =>
      simp only [Machine.turned, Deep.Answer.outcome, Outcome.finish, Turn.raiseValue, Turn.map,
        Config.turnOf, Config.leave, if_neg x.noStop]
      rfl

/-- A machine advances the generator on top of its stack. -/
theorem Settling.gen {t : Tag} (h : Settling g m A a.outcome mem
      ({.machine m (.frame (.generator (.gen d) t) :: vals)} + F) C) :
    At (Machine.activation g m (.advancing (.gen d)) :: A) (.advance d a.input) mem
      ({.machine m (.frame (.generator (.gen d) t) :: vals)} + F) C := by
  obtain ⟨w, rfl, memory, bears⟩ := h
  refine ⟨w, ?_, memory, bears⟩
  obtain ⟨owner, there⟩ := bears.here
  have same := Store.setStack_self there
  cases a <;> simp only [Machine.settle, Store.stack_of_own there, Deep.Answer.outcome, Machine.deliver,
    same] <;> rfl

/-- A value that passes a handler goes to its return handler. -/
theorem Settling.returns {h : Handler} {t : Tag} (settling : Settling g m A (.ok v) mem
      ({.machine m (.frame (.handler (.handler h) t) :: vals)} + F) C) :
    At (Machine.activation g m .calling :: A) (.call h.onReturn [v] .machine) mem
      ({.machine m vals} + F) C := by
  obtain ⟨w, rfl, memory, bears⟩ := settling
  refine ⟨{ w with store := w.store.setStack m vals }, ?_, memory, bears.setStack vals⟩
  simp only [Machine.settle, bears.stack]
  rfl

/-- A failure passes a handler. -/
theorem Settling.passes {h : Handler} {t : Tag} (proper : ∀ v ∈ vals, v.Proper)
    (settling : Settling g m A (.failed v) mem
      ({.machine m (.frame (.handler (.handler h) t) :: vals)} + F) C) :
    Settling g m A (.failed v) mem ({.machine m vals} + F) C := by
  obtain ⟨w, rfl, memory, bears⟩ := settling
  refine ⟨{ w with store := w.store.setStack m vals }, ?_, memory, bears.setStack vals⟩
  obtain ⟨left, turn, delivered, -⟩ := Machine.deliver_proper proper (.failed v)
  obtain ⟨owner, there⟩ := bears.here
  have passed (s : Store) : Machine.deliver s (.failed v) (.frame (.handler (.handler h) t) :: vals) =
      (s, left, turn) := delivered s
  have popped := (bears.setStack vals).stack
  have twice := Store.setStack_setStack there vals left
  simp only [Machine.settle, bears.stack, popped, passed, delivered, twice]
  rfl

/-! ## Library routines that go on with any outcome -/

/-- A generator of the library that hands on what it gets. -/
theorem At.passing (h : At (.running g (.library .passing) :: A) (.reply a.reply) mem
      ({.gen g.id .running} + F) C) : Leads 1 C (At A (.reply a.reply) mem F) := by
  refine h.step fun w memory bears =>
    ⟨w.setStatus g .finished, ?_, memory, (bears.setStatus .finished).right⟩
  cases a with
  | value v => rfl
  | failed x => exact congrArg Except.ok (if_neg x.noStop)

/-- The clause of an awaiter that has resumed its continuation. -/
theorem At.clauseEnds (h : At (.running g (.library (.awaitClause .delegating)) :: A)
      (.reply a.reply) mem ({.gen g.id .running} + F) C) : Leads 1 C (At A (.reply a.reply) mem F) := by
  refine h.step fun w memory bears =>
    ⟨w.setStatus g .finished, ?_, memory, (bears.setStatus .finished).right⟩
  cases a with
  | value v => rfl
  | failed x => exact congrArg Except.ok (if_neg x.noStop)

end OneShot
