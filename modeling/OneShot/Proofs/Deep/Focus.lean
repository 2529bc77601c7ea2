import OneShot.Proofs.Deep.Travel

/-!
# The focus of a run

`Focus p fs C` tells that the kernel is about to run the program `p` inside of
the scopes `fs`: either its innermost computation is on top, or its result is
delivered to a machine.
-/

namespace OneShot.Deep

open Config (Leads Reaches)

variable {c : Code} {layers : List Layer} {s₀ : c.Plain}

inductive Focus : Prog c → List (Scope c) → Config (guest c layers s₀) → Prop
  | code {p : Prog c} {w : World (guest c layers s₀)} {g gm : Gen} {q : State c}
      {K : Answer → Prog c} {m : Nat} {t : Tag} {acts : List (Activation (guest c layers s₀))}
      {fs : List (Scope c)} {foot foot' : List Loc} (a : Answer) (same : p = K a)
      (running : w.gens[g.id]? = some .running) (standing : Standing w q K foot)
      (stage : Stage w gm m [genFrame g t] acts fs foot')
      (apart : (.gen g.id :: (foot ++ foot')).Nodup) :
      Focus p fs ⟨w, .running g (code q) :: .running gm (advancing m g) :: acts, .reply a.reply⟩
  | done {w : World (guest c layers s₀)} {gm : Gen} {m : Nat}
      {acts : List (Activation (guest c layers s₀))} {fs : List (Scope c)} {foot : List Loc}
      (r : Result) (stage : Stage w gm m [] acts fs foot) (apart : foot.Nodup) :
      Focus (.done r) fs (settled w gm m acts r.answer.outcome)
  | handle {l : Layer} {p : Prog c} {fs : List (Scope c)} {C : Config (guest c layers s₀)}
      (inside : Focus p (.handle l :: fs) C) : Focus (.handle l p) fs C
  | bind {s : c.Plain} {p : Prog c} {fs : List (Scope c)} {C : Config (guest c layers s₀)}
      (inside : Focus p (.bind s :: fs) C) : Focus (.bind p s) fs C

theorem Focus.plug {p : Prog c} {fs gs : List (Scope c)} {C : Config (guest c layers s₀)}
    (h : Focus p (fs ++ gs) C) : Focus (plug p fs) gs C := by
  induction fs generalizing p with
  | nil => exact h
  | cons f fs ih =>
      cases f with
      | handle l => exact ih (.handle h)
      | bind s => exact ih (.bind h)

/-! ## Results -/

theorem step_result {w : World (guest c layers s₀)} {g : Gen} {q : State c} {a : Answer}
    {r : Result} (acted : Body.act q a = r.turn)
    (acts : List (Activation (guest c layers s₀))) :
    Config.step ⟨w, .running g (code q) :: acts, .reply a.reply⟩ =
      .ok ⟨w.setStatus g .finished, acts, .reply r.answer.reply⟩ := by
  have stepped : (Body.waiting q).step a.reply = r.turn := by
    simp only [Body.step, Answer.ofReply?_reply]
    exact acted
  change Except.ok (Config.turnOf w acts g (((Body.waiting q).step a.reply).map .guest)) = _
  rw [stepped]
  cases r with
  | value v h => rfl
  | failed x =>
      refine congrArg Except.ok ?_
      exact if_neg x.noStop

/-- A computation that ends gives its result to the machine. -/
theorem leads_result {w : World (guest c layers s₀)} {g gm : Gen} {q : State c} {m : Nat}
    {t : Tag} {acts : List (Activation (guest c layers s₀))} {fs : List (Scope c)}
    {foot : List Loc} {a : Answer} {r : Result} (acted : Body.act q a = r.turn)
    (stage : Stage w gm m [genFrame g t] acts fs foot)
    (apart : (.gen g.id :: foot).Nodup) :
    Leads 1 ⟨w, .running g (code q) :: .running gm (advancing m g) :: acts, .reply a.reply⟩
      (Focus (.done r) fs) := by
  have stage := stage.keep (World.Changes.setStatus w g .finished) (by grind [List.Disjoint])
  obtain ⟨w', stage', popped⟩ := stage.pop (by grind) r.answer
  have delivered : Focus (.done r) fs (settled w' gm m acts r.answer.outcome) :=
    .done r stage' (by grind)
  exact (Leads.step (step_result acted _) (.step popped (.here delivered))).weaken (by omega)

/-- A failure passes a handler. -/
theorem Stage.passed {w : World (guest c layers s₀)} {gm : Gen} {m : Nat} {l : Layer} {t : Tag}
    {acts : List (Activation (guest c layers s₀))} {fs : List (Scope c)} {foot : List Loc}
    (h : Stage w gm m [layerFrame l t] acts fs foot) (apart : foot.Nodup) (x : Failure) :
    Focus (.done (.failed x)) fs (settled w gm m acts (Answer.failed x).outcome) := by
  cases h with
  | @mk vals owner fs fs' foot foot' acts running stack frames nest =>
      have changes := World.Changes.setStack (w := w) stack vals
      have stage : Stage { w with store := w.store.setStack m vals } gm m [] acts (fs ++ fs')
          (.gen gm.id :: .machine m :: (foot ++ foot')) :=
        .mk running (Store.machines_setStack stack vals)
          (frames.keep changes (by grind [List.Disjoint]))
          (nest.keep changes (by grind [List.Disjoint]))
      have passed := settle_failed stack frames (.exc x.exc)
      have same : settled w gm m acts (Answer.failed x).outcome =
          settled { w with store := w.store.setStack m vals } gm m acts
            (Answer.failed x).outcome := by
        simp only [settled, Answer.outcome, passed]
        rfl
      rw [same]
      exact .done (.failed x) stage apart

theorem Failure.no_exit (x : Failure) : x.exc.kind.isA .generatorExit = false := by
  obtain ⟨⟨id, kind, args, detail⟩, exception, -⟩ := x
  simp only [Exc.isException] at exception
  cases kind <;> first | rfl | contradiction

/-- A clause that has resumed its continuation goes on with the outcome. -/
theorem Stage.resumed {w : World (guest c layers s₀)} {g d gm : Gen} {m : Nat} {s : c.Plain}
    {t : Tag} {acts : List (Activation (guest c layers s₀))} {fs : List (Scope c)}
    {foot : List Loc} (h : Stage w gm m [genFrame g t] acts fs foot)
    (clause : w.gens[g.id]? = some (.delegating (code (.plain s)) d))
    (request : w.gens[d.id]? = some (.suspended passing .direct))
    (apart : (.gen g.id :: .gen d.id :: foot).Nodup) (a : Answer) :
    Leads 1 (settled w gm m acts a.outcome) (Focus (.plain s a) fs) := by
  have ne : d.id ≠ g.id := by grind
  let w₁ := w.setStatus g .running
  have request₁ : w₁.gens[d.id]? = some (.suspended passing .direct) :=
    gen_kept (World.Changes.setStatus w g .running) request (by simpa using ne)
  let w₂ := (w₁.setStatus d .running).setStatus d .finished
  have changes : w₁.Changes w₂ [.gen d.id] :=
    ((World.Changes.setStatus w₁ d .running).trans (World.Changes.setStatus _ d .finished)).mono
      (by simp)
  have running : w₂.gens[g.id]? = some .running :=
    gen_kept changes (World.getElem?_setStatus (World.has_gen clause) _)
      (by simpa using ne.symm)
  have stage : Stage w₂ gm m [genFrame g t] acts fs foot :=
    h.keep ((World.Changes.setStatus w g .running).trans changes) (by grind [List.Disjoint])
  have delegated : Config.advance w (.running gm (advancing m g) :: acts) g a.outcome.input =
      ⟨w₁, .relaying g (code (.plain s)) d :: .running gm (advancing m g) :: acts,
        .advance d a.outcome.input⟩ := by
    have status := World.status_of clause
    cases a with
    | value v =>
        simp only [Answer.outcome, Outcome.input, Config.advance, status]
        rfl
    | failed x =>
        simp only [Answer.outcome, Outcome.input, Config.advance, status, x.no_exit]
        rfl
  have ended : Config.step ⟨w₂, .relaying g (code (.plain s)) d ::
        .running gm (advancing m g) :: acts, .reply a.reply⟩ =
      .ok ⟨w₂, .running g (code (.plain s)) :: .running gm (advancing m g) :: acts,
        .reply a.reply⟩ := by
    cases a with
    | value v => rfl
    | failed x =>
        have ended : (Answer.failed x).reply.ended = (Answer.failed x).reply := if_neg x.noStop
        exact congrArg (fun r => Except.ok (Config.reply w₂ _ r)) ended
  have focus : Focus (.plain s a) fs ⟨w₂, .running g (code (.plain s)) ::
      .running gm (advancing m g) :: acts, .reply a.reply⟩ :=
    .code a rfl running (.plain s) stage (by grind)
  cases h with
  | mk running' stack frames nest =>
      rw [settled_gen stack]
      refine Leads.weaken (n := 4) ?_ (by omega)
      refine .step ((step_advance _ _ _ _).trans (congrArg Except.ok delegated)) ?_
      refine .step ((step_advance _ _ _ _).trans
        (congrArg Except.ok (advance_suspended request₁ _ a))) ?_
      exact .step (step_passing _ _ _ a) (.step ended (.here focus))

end OneShot.Deep
