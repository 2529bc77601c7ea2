import OneShot.Proofs.Deep.Outward

/-!
# How a run ends

The driver returns or raises what comes to it.  When an effect comes to it that
nobody owns, it closes everything that was captured on the way, and raises the
error for the effect.
-/

namespace OneShot.Deep

open Config (Leads Reaches)

variable {c : Code} {layers : List Layer} {s₀ : c.Plain}

/-- The reply that a run ends with. -/
inductive Ends : Head c → Reply → Prop
  | done (r : Result) : Ends (.done r) r.answer.reply
  | uncaught {e : Effect} {args : List Val} {k : Answer → Prog c} {x : Exc} {op : Val}
      (kind : x.kind = .uncaughtEffect) (detail : x.detail = .uncaught op (.effect e)) :
      Ends (.perform e args k) (.raised x)

/-- A configuration whose run ends with a reply. -/
def Stops (hd : Head c) (C : Config (guest c layers s₀)) : Prop :=
  ∃ w r, C = ⟨w, [], .reply r⟩ ∧ Ends hd r

theorem leads_ended {a : Answer} {C : Config (guest c layers s₀)} (h : Heading a [] C) :
    Leads 0 C fun D => ∃ w, D = ⟨w, [], .reply a.reply⟩ := by
  cases h with
  | ended w g =>
      refine Leads.weaken (n := 1) ?_ (Nat.zero_le _)
      cases a with
      | value v => exact .step rfl (.here ⟨_, rfl⟩)
      | failed x => exact .step rfl (.here ⟨_, rfl⟩)

/-! ## Closing -/

/-- Some generators have ended, and that is all. -/
def Finishes (w w' : World (guest c layers s₀)) : Prop :=
  ∀ i : Nat, w'.gens[i]? = w.gens[i]? ∨ w'.gens[i]? = some .finished

theorem Finishes.refl (w : World (guest c layers s₀)) : Finishes w w := fun _ => .inl rfl

theorem Closable.finishes {w w' : World (guest c layers s₀)} {v : Val} (h : Closable w v)
    (finishes : Finishes w w') : Closable w' v := by
  cases h with
  | @code g q how h =>
      rcases finishes g.id with same | done
      · exact .code (same.trans h)
      · exact .finished done
  | @passing g how h =>
      rcases finishes g.id with same | done
      · exact .passing (same.trans h)
      · exact .finished done
  | @relay g m how h =>
      rcases finishes g.id with same | done
      · exact .relay (same.trans h)
      · exact .finished done
  | @bind g d q h other request =>
      rcases finishes g.id with same | done
      · refine .bind (same.trans h) other ?_
        rcases finishes d.id with same' | done'
        · rwa [same']
        · exact .inr done'
      · exact .finished done
  | @finished g h =>
      rcases finishes g.id with same | done
      · exact .finished (same.trans h)
      · exact .finished done

/-- A generator is closed quietly. -/
def Closed (w : World (guest c layers s₀)) (acts : List (Activation (guest c layers s₀)))
    (C : Config (guest c layers s₀)) : Prop :=
  ∃ w', C = ⟨w', acts, .reply (.value .none)⟩ ∧ Finishes w w'

section Closing

variable {w : World (guest c layers s₀)} {g : Gen}
  {acts : List (Activation (guest c layers s₀))} {x : Exc}

theorem finishes_setStatus {w w' : World (guest c layers s₀)} (g : Gen)
    (finishes : ∀ i : Nat, i ≠ g.id → w'.gens[i]? = w.gens[i]? ∨ w'.gens[i]? = some .finished)
    (has : g.id < w'.gens.size) : Finishes w (w'.setStatus g .finished) := by
  intro i
  by_cases same : i = g.id
  · subst same
    exact .inr (World.getElem?_setStatus has _)
  · have kept : (w'.setStatus g .finished).gens[i]? = w'.gens[i]? := by
      simp [World.setStatus, Array.getElem?_modify, Ne.symm same]
    rw [kept]
    exact finishes i same

/-- A routine that lets an exit through. -/
def Yielding (r : Routine (guest c layers s₀)) : Prop :=
  ∀ (w : World (guest c layers s₀)) (g : Gen) (acts : List (Activation (guest c layers s₀)))
    (x : Exc), x.kind = .generatorExit →
    Config.step ⟨w, .running g r :: acts, .reply (.raised x)⟩ =
      .ok ⟨w.setStatus g .finished, acts, .reply (.raised x)⟩

theorem leave_exit (w : World (guest c layers s₀)) (acts : List (Activation (guest c layers s₀)))
    (g : Gen) {x : Exc} (exit : x.kind = .generatorExit) :
    Config.leave w acts g x = ⟨w.setStatus g .finished, acts, .reply (.raised x)⟩ := by
  simp [Config.leave, Config.reply, exit]

theorem yielding_code (q : State c) : Yielding (code q : Routine (guest c layers s₀)) := by
  intro w g acts x exit
  have none_of : Answer.ofReply? (.raised x) = none := by
    have no_exception : x.isException = false := by simp [Exc.isException, exit]; rfl
    simp [Answer.ofReply?, no_exception]
  have stepped : (Body.waiting q).step (.raised x) = .raise x := by
    simp only [Body.step, none_of]
  change Except.ok (Config.turnOf w acts g (((Body.waiting q).step (.raised x)).map .guest)) = _
  rw [stepped]
  exact congrArg Except.ok (leave_exit w acts g exit)

theorem yielding_passing : Yielding (passing : Routine (guest c layers s₀)) := by
  intro w g acts x exit
  exact congrArg Except.ok (leave_exit w acts g exit)

theorem yielding_relay (m : Nat) : Yielding (relay m : Routine (guest c layers s₀)) := by
  intro w g acts x exit
  refine (step_machine w g m _ acts _).trans (congrArg Except.ok ?_)
  have no_exception : x.isException = false := by simp [Exc.isException, exit]; rfl
  simp only [Machine.step, Machine.fail, no_exception]
  exact leave_exit w acts g exit

/-- An exit that was raised in a generator that is being closed. -/
theorem leads_exit {r : Routine (guest c layers s₀)} (yielding : Yielding r)
    (exit : x.kind = .generatorExit) :
    Reaches 2 ⟨w, .running g r :: .closing g :: acts, .reply (.raised x)⟩
      ⟨w.setStatus g .finished, acts, .reply (.value .none)⟩ := by
  refine .step (yielding w g _ x exit) (.one (congrArg Except.ok ?_))
  simp [Config.deliver, Config.reply, exit]

theorem leads_close_suspended {r : Routine (guest c layers s₀)} {how : Suspension}
    (suspended : w.gens[g.id]? = some (.suspended r how)) (yielding : Yielding r)
    (acts : List (Activation (guest c layers s₀))) :
    Leads 0 ⟨w, acts, .close g⟩ (Closed w acts) := by
  let w₁ := World.setStatus { w with store := (w.store.newException .generatorExit [] .plain).1 }
    g .running
  have raised : Config.step ⟨w, acts, .close g⟩ = .ok ⟨w₁, .running g r :: .closing g :: acts,
      .reply (.raised (w.store.newException .generatorExit [] .plain).2)⟩ := by
    have stepped : Config.step ⟨w, acts, .close g⟩ = .ok (Config.close w acts g) := by
      cases acts <;> rfl
    rw [stepped]
    simp only [Config.close, World.status_of suspended]
    rfl
  have finishes : Finishes w (w₁.setStatus g .finished) := by
    refine finishes_setStatus g (fun i other => .inl ?_) ?_
    · simp [w₁, World.setStatus, Array.getElem?_modify, Ne.symm other]
    · simpa [w₁, World.setStatus, World.Has] using World.has_gen suspended
  refine Leads.weaken (n := 1) (.step raised ?_) (Nat.zero_le _)
  exact ((Leads.reached (leads_exit yielding rfl) (.here ⟨_, rfl, finishes⟩)).weaken (Nat.zero_le _))

theorem leads_close_finished (done : w.gens[g.id]? = some .finished)
    (acts : List (Activation (guest c layers s₀))) :
    Leads 0 ⟨w, acts, .close g⟩ (Closed w acts) := by
  have closed : Config.step ⟨w, acts, .close g⟩ = .ok ⟨w, acts, .reply (.value .none)⟩ := by
    have stepped : Config.step ⟨w, acts, .close g⟩ = .ok (Config.close w acts g) := by
      cases acts <;> rfl
    rw [stepped]
    simp only [Config.close, World.status_of done]
    rfl
  exact (Leads.step closed (.here ⟨w, rfl, .refl w⟩)).weaken (Nat.zero_le _)

theorem leads_close_delegating {d : Gen} {q : State c}
    (delegating : w.gens[g.id]? = some (.delegating (code q) d)) (other : d.id ≠ g.id)
    (request : w.gens[d.id]? = some (.suspended passing .direct) ∨
      w.gens[d.id]? = some .finished) (acts : List (Activation (guest c layers s₀))) :
    Leads 0 ⟨w, acts, .close g⟩ (Closed w acts) := by
  let x := (w.store.newException .generatorExit [] .plain).2
  let w₁ := World.setStatus { w with store := (w.store.newException .generatorExit [] .plain).1 }
    g .running
  have kept : ∀ i : Nat, i ≠ g.id → w₁.gens[i]? = w.gens[i]? := by
    intro i other
    simp [w₁, World.setStatus, Array.getElem?_modify, Ne.symm other]
  have raised : Config.step ⟨w, acts, .close g⟩ = .ok ⟨w₁, .exiting g (code q) x :: .closing g ::
      acts, .close d⟩ := by
    have stepped : Config.step ⟨w, acts, .close g⟩ = .ok (Config.close w acts g) := by
      cases acts <;> rfl
    rw [stepped]
    simp only [Config.close, World.status_of delegating]
    rfl
  have inner : Leads 0 ⟨w₁, .exiting g (code q) x :: .closing g :: acts, .close d⟩
      (Closed w₁ (.exiting g (code q) x :: .closing g :: acts)) := by
    rcases request with request | request
    · exact leads_close_suspended ((kept d.id other).trans request) yielding_passing _
    · exact leads_close_finished ((kept d.id other).trans request) _
  refine Leads.weaken (n := 1) (.step raised ?_) (Nat.zero_le _)
  refine (inner.bind (n := 0) fun C closed => ?_)
  obtain ⟨w₂, rfl, finishes⟩ := closed
  have exited : Config.step ⟨w₂, .exiting g (code q) x :: .closing g :: acts,
        .reply (.value .none)⟩ =
      .ok ⟨w₂, .running g (code q) :: .closing g :: acts, .reply (.raised x)⟩ := rfl
  have all : Finishes w (w₂.setStatus g .finished) := by
    refine finishes_setStatus g (fun i other => ?_) ?_
    · rcases finishes i with same | done
      · exact .inl (same.trans (kept i other))
      · exact .inr done
    · have has : w₁.gens[g.id]? = some .running :=
        World.getElem?_setStatus (World.has_gen delegating) _
      rcases finishes g.id with same | done
      · exact World.has_gen (same.trans has)
      · exact World.has_gen done
  have closed : Closed w acts ⟨w₂.setStatus g .finished, acts, .reply (.value .none)⟩ :=
    ⟨_, rfl, all⟩
  exact (Leads.step exited (Leads.reached (leads_exit (yielding_code q) rfl)
    (.here closed))).weaken (Nat.zero_le _)

theorem leads_close {v : Val} (closable : Closable w v)
    (acts : List (Activation (guest c layers s₀))) :
    ∃ g, Ask.closing v = .close g ∧ Leads 0 ⟨w, acts, .close g⟩ (Closed w acts) := by
  cases closable with
  | @code g q how h => exact ⟨g, rfl, leads_close_suspended h (yielding_code q) acts⟩
  | @passing g how h => exact ⟨g, rfl, leads_close_suspended h yielding_passing acts⟩
  | @relay g m how h => exact ⟨g, rfl, leads_close_suspended h (yielding_relay m) acts⟩
  | @bind g d q h other request => exact ⟨g, rfl, leads_close_delegating h other request acts⟩
  | @finished g h => exact ⟨g, rfl, leads_close_finished h acts⟩

end Closing

/-! ## Abandoning -/

/-- The driver as it closes what is left. -/
def abandoning (op : Val) (rest : List Val) : Activation (guest c layers s₀) :=
  .calling (.library (.execute (.abandoning op rest)))

/-- The configuration after a turn of the driver. -/
def driven (w : World (guest c layers s₀)) (r : Store × Turn Execute.Phase) :
    Config (guest c layers s₀) :=
  Config.turnOfCall { w with store := r.1 } [] ((r.2.map Process.execute).map Routine.library)

theorem step_abandoning (w : World (guest c layers s₀)) (op : Val) (rest : List Val) :
    Config.step ⟨w, [abandoning op rest], .reply (.value .none)⟩ =
      .ok (driven w (Driver.abandon (.abandoning op) w.store op rest)) := rfl

theorem step_yielded (w : World (guest c layers s₀)) (g : Gen) (op : Val) :
    Config.step ⟨w, [executing g], .reply (.yielded op)⟩ =
      .ok (driven w (Driver.abandon (.abandoning op) w.store op
        (Driver.abandoned w.store g op))) := rfl

theorem uncaught_of_place {context : Val} (place : Place context) (s : Store) (op : Val)
    (e : Effect) :
    ∃ s' x, Driver.uncaught s op (.effect e) context = (s', x) ∧ x.kind = .uncaughtEffect ∧
      x.detail = .uncaught op (.effect e) := by
  cases place with
  | unknown => exact ⟨_, _, rfl, rfl, rfl⟩
  | known x => exact ⟨_, _, rfl, rfl, rfl⟩

/-- The driver closes what was captured, then raises the error for the effect. -/
theorem leads_abandoned {context : Val} (place : Place context) (id : Nat) (e : Effect)
    (a : Arguments) (k : Cont) {args : List Val} {K : Answer → Prog c} (contents : List Val)
    {w : World (guest c layers s₀)} (closable : ∀ v ∈ contents, Closable w v) :
    Leads 0 (driven w (Driver.abandon
        (.abandoning (.resend id ⟨.effect e, a, .cont k, context⟩)) w.store
        (.resend id ⟨.effect e, a, .cont k, context⟩) contents))
      (Stops (.perform e args K)) := by
  induction contents generalizing w with
  | nil =>
      obtain ⟨s, x, made, kind, detail⟩ := uncaught_of_place place w.store
        (.resend id ⟨.effect e, a, .cont k, context⟩) e
      have raised : Driver.abandon (.abandoning (.resend id ⟨.effect e, a, .cont k, context⟩))
          w.store (.resend id ⟨.effect e, a, .cont k, context⟩) [] =
            (s, Turn.raise (σ := Execute.Phase) x) := by
        simp only [Driver.abandon, Driver.escapedError, made]
      rw [raised]
      exact .here ⟨_, _, rfl, .uncaught kind detail⟩
  | cons v rest ih =>
      obtain ⟨g, close, closes⟩ := leads_close (closable v List.mem_cons_self)
        [abandoning (.resend id ⟨.effect e, a, .cont k, context⟩) rest]
      have asked : driven w (Driver.abandon
          (.abandoning (.resend id ⟨.effect e, a, .cont k, context⟩)) w.store
          (.resend id ⟨.effect e, a, .cont k, context⟩) (v :: rest)) =
            ⟨w, [abandoning (.resend id ⟨.effect e, a, .cont k, context⟩) rest], .close g⟩ := by
        simp only [driven, Driver.abandon, close, Turn.map, Config.turnOfCall]
        rfl
      rw [asked]
      refine closes.bind (n := 0) fun C closed => ?_
      obtain ⟨w', rfl, finishes⟩ := closed
      have left : ∀ v ∈ rest, Closable w' v := fun v mem =>
        (closable v (List.mem_cons_of_mem _ mem)).finishes finishes
      exact (Leads.step (step_abandoning _ _ _) (ih left)).weaken (Nat.zero_le _)

/-- What nobody owns ends the run. -/
theorem leads_escaped {e : Effect} {args args' : List Val} {context : Val}
    {K K' : Answer → Prog c} {fs : List (Scope c)} {C : Config (guest c layers s₀)}
    (h : Dispatched e args context K fs C) (place : Place context) (unowned : Unowned e fs) :
    Leads 0 C (Stops (.perform e args' K')) := by
  cases h with
  | @answered gs gs' l j C split none_owns clause focus =>
      have owner : l.clause? e = none := unowned l (split ▸ by simp)
      rw [owner] at clause
      contradiction
  | escaped none_owns closable =>
      refine Leads.weaken (n := 1) (.step (step_yielded _ _ _) ?_) (Nat.zero_le _)
      exact leads_abandoned place _ e _ _ _ closable

end OneShot.Deep
