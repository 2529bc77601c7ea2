import OneShot.Proofs.Deep.Nest
import OneShot.Proofs.Reaching

/-!
# Travelling outcomes

An outcome that is delivered to the stack of a machine travels to the next scope:
relays and spent requests hand it on, and a machine whose stack is empty ends
with it.
-/

namespace OneShot.Deep

open Config (Leads Reaches)

variable {c : Code} {layers : List Layer} {s₀ : c.Plain}

/-! ## Turns of a machine -/

/-- The configuration after a turn of a machine. -/
def turned (w : World (guest c layers s₀)) (gm : Gen) (m : Nat)
    (acts : List (Activation (guest c layers s₀))) (r : Store × Turn Machine.Phase) :
    Config (guest c layers s₀) :=
  Config.turnOf { w with store := r.1 } acts gm ((r.2.map (Process.machine m)).map Routine.library)

/-- The configuration after an outcome was delivered to a machine. -/
def settled (w : World (guest c layers s₀)) (gm : Gen) (m : Nat)
    (acts : List (Activation (guest c layers s₀))) (o : Outcome) :
    Config (guest c layers s₀) :=
  turned w gm m acts (Machine.settle w.store m o)

theorem step_machine (w : World (guest c layers s₀)) (gm : Gen) (m : Nat) (p : Machine.Phase)
    (acts : List (Activation (guest c layers s₀))) (r : Reply) :
    Config.step ⟨w, .running gm (.library (.machine m p)) :: acts, .reply r⟩ =
      .ok (turned w gm m acts (Machine.step w.store m p r)) := rfl

theorem step_advance (w : World (guest c layers s₀)) (acts : List (Activation (guest c layers s₀)))
    (g : Gen) (i : Input) :
    Config.step ⟨w, acts, .advance g i⟩ = .ok (Config.advance w acts g i) := by
  cases acts <;> rfl

section Settling

variable {s : Store} {m : Nat} {owner : Val} {vals : List Val} {g : Gen} {t : Tag}

theorem settle_nil (h : s.machines[m]? = some ⟨.own [], owner⟩) (o : Outcome) :
    Machine.settle s m o = (s, o.finish) := by
  simp only [Machine.settle, Store.stack_of_own h, Machine.deliver, Store.setStack_self h]

theorem settle_gen (h : s.machines[m]? = some ⟨.own (genFrame g t :: vals), owner⟩)
    (o : Outcome) :
    Machine.settle s m o = (s, .ask (.advance g o.input) (.advancing (.gen g))) := by
  have same := Store.setStack_self h
  simp only [genFrame] at same
  cases o <;> simp only [Machine.settle, Store.stack_of_own h, genFrame, Machine.deliver, same]

theorem settle_layer {l : Layer}
    (h : s.machines[m]? = some ⟨.own (layerFrame l t :: vals), owner⟩) (v : Val) :
    Machine.settle s m (.ok v) =
      (s.setStack m vals, .ask (.call l.handler.onReturn [v]) .calling) := by
  simp only [Machine.settle, Store.stack_of_own h]
  rfl

end Settling

/-- What is delivered to the frames of scopes does not change the store. -/
theorem Frames.deliver {w : World (guest c layers s₀)} {vals : List Val} {fs : List (Scope c)}
    {foot : List Loc} (h : Frames w vals fs foot) (o : Outcome) :
    ∃ left turn, ∀ s, Machine.deliver s o vals = (s, left, turn) := by
  induction h with
  | nil => exact ⟨_, _, fun s => rfl⟩
  | handle rest ih =>
      cases o with
      | ok v => exact ⟨_, _, fun s => rfl⟩
      | failed v => exact ih
  | bind clause request rest ih => cases o <;> exact ⟨_, _, fun s => rfl⟩
  | pass request rest ih => cases o <;> exact ⟨_, _, fun s => rfl⟩
  | relay resent spent rest ih => cases o <;> exact ⟨_, _, fun s => rfl⟩

/-- A failure passes a handler. -/
theorem settle_failed {w : World (guest c layers s₀)} {m : Nat} {owner : Val} {l : Layer}
    {t : Tag} {vals : List Val} {fs : List (Scope c)} {foot : List Loc}
    (h : w.store.machines[m]? = some ⟨.own (layerFrame l t :: vals), owner⟩)
    (frames : Frames w vals fs foot) (v : Val) :
    Machine.settle w.store m (.failed v) =
      Machine.settle (w.store.setStack m vals) m (.failed v) := by
  obtain ⟨left, turn, delivered⟩ := frames.deliver (.failed v)
  have popped := Store.machines_setStack h vals
  have passed : Machine.deliver w.store (.failed v) (layerFrame l t :: vals) =
      (w.store, left, turn) := delivered w.store
  have twice := Store.setStack_setStack h vals left
  simp only [Machine.settle, Store.stack_of_own h, Store.stack_of_own popped, passed, delivered,
    twice]

/-- What a machine does when the generator on top of its stack ends. -/
theorem step_of_ended {w : World (guest c layers s₀)} {m : Nat} {owner : Val} {g : Gen}
    {t : Tag} {vals : List Val}
    (h : w.store.machines[m]? = some ⟨.own (genFrame g t :: vals), owner⟩) (gm : Gen)
    (acts : List (Activation (guest c layers s₀))) (a : Answer) :
    Config.step ⟨w, .running gm (advancing m g) :: acts, .reply a.reply⟩ =
      .ok (settled { w with store := w.store.setStack m vals } gm m acts a.outcome) := by
  refine (step_machine w gm m _ acts _).trans ?_
  cases a with
  | value v =>
      simp only [Answer.reply, Machine.step, Machine.finished, Machine.popThen,
        Store.stack_of_own h]
      rfl
  | failed x =>
      simp only [Answer.reply, Machine.step, if_neg x.noStop, Machine.broken, if_pos x.isException,
        Machine.popThen, Store.stack_of_own h, Machine.fail]
      rfl

/-- A suspended generator goes on with an answer. -/
theorem advance_suspended {w : World (guest c layers s₀)} {g : Gen}
    {r : Routine (guest c layers s₀)} {how : Suspension}
    (h : w.gens[g.id]? = some (.suspended r how)) (acts : List (Activation (guest c layers s₀)))
    (a : Answer) :
    Config.advance w acts g a.outcome.input =
      ⟨w.setStatus g .running, .running g r :: acts, .reply a.reply⟩ := by
  have status := World.status_of h
  cases a with
  | value v =>
      simp only [Answer.outcome, Outcome.input, Config.advance, status]
      rfl
  | failed x =>
      have thrown : Config.thrownInto w how (.exc x.exc) = (w, some x.exc) := by
        simp [Config.thrownInto, x.noStop]
      simp only [Answer.outcome, Outcome.input, Config.advance, status, thrown]
      rfl

/-! ## To the next scope -/

/-- An outcome has come to the innermost scope, or to the driver. -/
inductive Heading (a : Answer) : List (Scope c) → Config (guest c layers s₀) → Prop
  | ended (w : World (guest c layers s₀)) (g : Gen) :
      Heading a [] ⟨w, [executing g], .reply a.reply⟩
  | handle {w : World (guest c layers s₀)} {gm : Gen} {m : Nat} {l : Layer} {t : Tag}
      {acts : List (Activation (guest c layers s₀))} {fs : List (Scope c)} {foot : List Loc}
      (stage : Stage w gm m [layerFrame l t] acts fs foot) (apart : foot.Nodup) :
      Heading a (.handle l :: fs) (settled w gm m acts a.outcome)
  | bind {w : World (guest c layers s₀)} {g d gm : Gen} {m : Nat} {s : c.Plain} {t : Tag}
      {acts : List (Activation (guest c layers s₀))} {fs : List (Scope c)} {foot : List Loc}
      (clause : w.gens[g.id]? = some (.delegating (code (.plain s)) d))
      (request : w.gens[d.id]? = some (.suspended passing .direct))
      (stage : Stage w gm m [genFrame g t] acts fs foot)
      (apart : (.gen g.id :: .gen d.id :: foot).Nodup) :
      Heading a (.bind s :: fs) (settled w gm m acts a.outcome)

/-- A machine whose generator on top has ended goes on with what is below. -/
theorem Stage.pop {w : World (guest c layers s₀)} {gm g : Gen} {m : Nat} {t : Tag}
    {acts : List (Activation (guest c layers s₀))} {fs : List (Scope c)} {foot : List Loc}
    (h : Stage w gm m [genFrame g t] acts fs foot) (apart : foot.Nodup) (a : Answer) :
    ∃ w', Stage w' gm m [] acts fs foot ∧
      Config.step ⟨w, .running gm (advancing m g) :: acts, .reply a.reply⟩ =
        .ok (settled w' gm m acts a.outcome) := by
  cases h with
  | @mk vals owner fs fs' foot foot' acts running stack frames nest =>
      have changes := World.Changes.setStack (w := w) stack vals
      simp only [List.nodup_cons, List.nodup_append, List.mem_cons, List.mem_append,
        not_or] at apart
      refine ⟨{ w with store := w.store.setStack m vals },
        .mk running (Store.machines_setStack stack vals) ?_ ?_, step_of_ended stack gm acts a⟩
      · exact frames.keep changes (by simpa using apart.2.1.1)
      · exact nest.keep changes (by simpa using apart.2.1.2)

theorem settled_nil {w : World (guest c layers s₀)} {gm : Gen} {m : Nat} {owner : Val}
    (stack : w.store.machines[m]? = some ⟨.own [], owner⟩)
    (acts : List (Activation (guest c layers s₀))) (a : Answer) :
    settled w gm m acts a.outcome =
      ⟨w.setStatus gm .finished, acts, .reply a.reply⟩ := by
  rw [settled, settle_nil stack]
  cases a with
  | value v => rfl
  | failed x =>
      simp only [turned, Answer.outcome, Outcome.finish, Turn.raiseValue, Turn.map, Config.turnOf,
        Config.leave, if_neg x.noStop]
      rfl

theorem settled_gen {w : World (guest c layers s₀)} {gm g : Gen} {m : Nat} {t : Tag}
    {vals : List Val} {owner : Val}
    (stack : w.store.machines[m]? = some ⟨.own (genFrame g t :: vals), owner⟩)
    (acts : List (Activation (guest c layers s₀))) (o : Outcome) :
    settled w gm m acts o =
      ⟨w, .running gm (advancing m g) :: acts, .advance g o.input⟩ := by
  rw [settled, settle_gen stack]
  rfl

/-- The end of a request that hands an answer on. -/
theorem step_passing (w : World (guest c layers s₀)) (g : Gen)
    (acts : List (Activation (guest c layers s₀))) (a : Answer) :
    Config.step ⟨w, .running g passing :: acts, .reply a.reply⟩ =
      .ok ⟨w.setStatus g .finished, acts, .reply a.reply⟩ := by
  cases a with
  | value v => rfl
  | failed x =>
      refine congrArg Except.ok ?_
      exact if_neg x.noStop

/-- The end of a relay that hands an answer on. -/
theorem step_relay {w : World (guest c layers s₀)} {m : Nat} {owner : Val}
    (spent : w.store.machines[m]? = some ⟨.own [], owner⟩) (g : Gen)
    (acts : List (Activation (guest c layers s₀))) (a : Answer) :
    Config.step ⟨w, .running g (relay m) :: acts, .reply a.reply⟩ =
      .ok ⟨w.setStatus g .finished, acts, .reply a.reply⟩ := by
  rw [← settled_nil spent acts a]
  refine (step_machine w g m _ acts _).trans ?_
  cases a with
  | value v => rfl
  | failed x =>
      simp only [Answer.reply, Machine.step, Machine.fail, if_pos x.isException]
      rfl

/-- A generator on top of a stack that hands an answer on. -/
theorem Stage.through {w : World (guest c layers s₀)} {gm g : Gen} {m : Nat} {t : Tag}
    {acts : List (Activation (guest c layers s₀))} {fs : List (Scope c)} {foot : List Loc}
    (h : Stage w gm m [genFrame g t] acts fs foot) (apart : foot.Nodup)
    (out : Loc.gen g.id ∉ foot) {r : Routine (guest c layers s₀)} {how : Suspension}
    (suspended : w.gens[g.id]? = some (.suspended r how)) {a : Answer}
    (ends : ∀ acts, Config.step ⟨w.setStatus g .running, .running g r :: acts, .reply a.reply⟩ =
      .ok ⟨(w.setStatus g .running).setStatus g .finished, acts, .reply a.reply⟩) :
    ∃ w', Stage w' gm m [] acts fs foot ∧
      Leads 1 (settled w gm m acts a.outcome) (· = settled w' gm m acts a.outcome) := by
  have changes : w.Changes ((w.setStatus g .running).setStatus g .finished) [.gen g.id] :=
    ((World.Changes.setStatus w g .running).trans (World.Changes.setStatus _ g .finished)).mono
      (by simp)
  have stage := h.keep changes (by simpa using out)
  obtain ⟨w', stage', popped⟩ := stage.pop apart a
  refine ⟨w', stage', ?_⟩
  cases h with
  | mk running stack frames nest =>
      rw [settled_gen stack]
      refine Leads.weaken (n := 3) ?_ (by omega)
      refine .step (step_advance _ _ _ _) ?_
      rw [advance_suspended suspended]
      exact .step (ends _) (.step popped (.here rfl))

/-- An outcome comes to the next scope. -/
theorem heading (a : Answer) (n : Nat) {w : World (guest c layers s₀)} {gm : Gen} {m : Nat}
    {acts : List (Activation (guest c layers s₀))} {fs : List (Scope c)} {foot : List Loc}
    (less : foot.length ≤ n) (stage : Stage w gm m [] acts fs foot) (apart : foot.Nodup) :
    Leads 0 (settled w gm m acts a.outcome) (Heading a fs) := by
  induction n generalizing w gm m acts fs foot with
  | zero =>
      cases stage with
      | mk running stack frames nest => simp at less
  | succ n ih =>
      cases stage with
      | mk running stack frames nest =>
          cases frames with
          | nil =>
              rw [settled_nil stack]
              cases nest with
              | top g => exact .here (.ended _ _)
              | @inner _ gm' m' t' vals' owner' gs gs' spot spot' acts running' stack' frames' nest' =>
                  have outer : Stage w gm' m' [genFrame gm t'] acts (gs ++ gs')
                      (.gen gm'.id :: .machine m' :: (spot ++ spot')) :=
                    .mk running' stack' frames' nest'
                  have outer := outer.keep (World.Changes.setStatus w gm .finished)
                    (by grind [List.Disjoint])
                  obtain ⟨w', stage', popped⟩ := outer.pop (by grind) a
                  have rest := ih (by simp at less ⊢; omega) stage' (by grind)
                  exact (Leads.step popped rest).weaken (Nat.zero_le _)
          | handle rest => exact .here (.handle (.mk running stack rest nest) apart)
          | bind clause request rest =>
              exact .here (.bind clause request (.mk running stack rest nest) (by grind))
          | @pass g t _ _ _ request rest =>
              have inner : Stage w gm m [genFrame g t] _ _ _ := .mk running stack rest nest
              obtain ⟨w', stage', passed⟩ := inner.through (by grind) (by grind) request
                fun acts => step_passing _ _ acts a
              have rest := ih (by simp at less ⊢; omega) stage' (by grind)
              exact (passed.bind fun d same => same ▸ rest).weaken (Nat.zero_le _)
          | @relay g _ _ t _ _ _ resent spent rest =>
              have inner : Stage w gm m [genFrame g t] _ _ _ := .mk running stack rest nest
              obtain ⟨w', stage', passed⟩ := inner.through (by grind) (by grind) resent
                fun acts => step_relay (w := w.setStatus g .running) spent g acts a
              have rest := ih (by simp at less ⊢; omega) stage' (by grind)
              exact (passed.bind fun d same => same ▸ rest).weaken (Nat.zero_le _)

end OneShot.Deep
