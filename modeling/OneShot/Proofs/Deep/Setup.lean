import OneShot.Proofs.Deep.Evaluation

/-!
# The start of a run

Each level of a program applies its handler to the next level, which makes a
machine for it, from the inside out.  The driver then starts the outermost
machine, and each starts the one below it.
-/

namespace OneShot.Deep

open Config (Leads Reaches)

variable {c : Code} {layers : List Layer} {s₀ : c.Plain}

/-- A computation under layers of handlers, outermost first. -/
def program (layers : List Layer) (s : c.Plain) : Prog c :=
  layers.foldr .handle (.plain s (.value .none))

/-- Machines that have not been started, and the computation in the innermost. -/
inductive Built (w : World (guest c layers s₀)) : Gen → List Layer → List Loc → Prop
  | computation {g : Gen} (kind : g.kind = .generator)
      (fresh : w.gens[g.id]? = some (.fresh (code (.plain s₀)))) : Built w g [] [.gen g.id]
  | layer {g gm : Gen} {m : Nat} {l : Layer} {t u : Tag} {owner : Val} {ls : List Layer}
      {foot : List Loc} (kind : gm.kind = .generator)
      (fresh : w.gens[gm.id]? = some (.fresh (.library (.machine m .start))))
      (stack : w.store.machines[m]? = some ⟨.own [genFrame g u, layerFrame l t], owner⟩)
      (rest : Built w g ls foot) : Built w gm (l :: ls) (.gen gm.id :: .machine m :: foot)

section Keeping

variable {w w' : World (guest c layers s₀)} {g : Gen} {ls : List Layer} {foot : List Loc}

theorem Built.kind (h : Built w g ls foot) : g.kind = .generator := by
  cases h <;> assumption

theorem Built.has (h : Built w g ls foot) : ∀ l ∈ foot, w.Has l := by
  induction h with
  | computation kind fresh => simpa using World.has_gen fresh
  | layer kind fresh stack rest ih =>
      simp only [List.forall_mem_cons]
      exact ⟨World.has_gen fresh, World.has_machine stack, ih⟩

theorem Built.keep {places : List Loc} (h : Built w g ls foot) (changes : w.Changes w' places)
    (out : foot.Disjoint places) : Built w' g ls foot := by
  induction h with
  | computation kind fresh =>
      exact .computation kind (gen_kept changes fresh (by simpa using out))
  | layer kind fresh stack rest ih =>
      simp only [List.disjoint_cons_left] at out
      exact .layer kind (gen_kept changes fresh out.1) (machine_kept changes stack out.2.1)
        (ih out.2.2)

end Keeping

/-! ## Starting machines -/

theorem advance_fresh {w : World (guest c layers s₀)} {g : Gen} {r : Routine (guest c layers s₀)}
    (fresh : w.gens[g.id]? = some (.fresh r)) (acts : List (Activation (guest c layers s₀))) :
    Config.step ⟨w, acts, .advance g (.send .none)⟩ =
      .ok ⟨w.setStatus g .running, .running g r :: acts, .reply (.value .none)⟩ := by
  refine (step_advance w acts g _).trans (congrArg Except.ok ?_)
  simp only [Config.advance, World.status_of fresh]
  rfl

/-- A machine that is started delivers nothing to its stack. -/
theorem step_start {w : World (guest c layers s₀)} {m : Nat} {vals : List Val} {owner : Val}
    (stack : w.store.machines[m]? = some ⟨.own vals, owner⟩) (gm : Gen)
    (acts : List (Activation (guest c layers s₀))) :
    Config.step ⟨w, .running gm (.library (.machine m .start)) :: acts, .reply (.value .none)⟩ =
      .ok (settled w gm m acts (.ok .none)) := by
  refine (step_machine w gm m _ acts _).trans (congrArg Except.ok ?_)
  simp only [Machine.step, Machine.start, stack]
  rfl

/-- Each machine starts the one below it, down to the computation. -/
theorem Built.started {w : World (guest c layers s₀)} {g gm : Gen} {m : Nat} {t : Tag}
    {ls : List Layer} {acts : List (Activation (guest c layers s₀))} {fs : List (Scope c)}
    {foot foot' : List Loc} (h : Built w g ls foot) (stage : Stage w gm m [genFrame g t] acts fs foot')
    (apart : (foot ++ foot').Nodup) :
    Leads 0 ⟨w, .running gm (advancing m g) :: acts, .advance g (.send .none)⟩
      (Focus (program ls s₀) fs) := by
  induction ls generalizing w g gm m t acts fs foot foot' with
  | nil =>
      cases h with
      | computation kind fresh =>
          have changes := World.Changes.setStatus w g .running
          have focus : Focus (.plain s₀ (.value .none)) fs ⟨w.setStatus g .running,
              .running g (code (.plain s₀)) :: .running gm (advancing m g) :: acts,
              .reply (Answer.value .none).reply⟩ :=
            .code (.value .none) rfl (World.getElem?_setStatus (World.has_gen fresh) _)
              (.plain s₀) (stage.keep changes (by grind [List.Disjoint])) (by simpa using apart)
          exact (Leads.step (advance_fresh fresh _) (.here focus)).weaken (Nat.zero_le _)
  | cons l ls ih =>
      cases h with
      | @layer g' g m' l t' u owner ls foot kind fresh stack rest =>
          have changes := World.Changes.setStatus w g .running
          have alone : ∀ x ∈ Loc.machine m' :: (foot ++ foot'), x ≠ .gen g.id := by
            intro x mem same
            subst same
            simp only [List.cons_append, List.nodup_cons] at apart
            exact apart.1 mem
          simp only [List.forall_mem_cons, List.forall_mem_append] at alone
          have running : (w.setStatus g .running).gens[g.id]? = some .running :=
            World.getElem?_setStatus (World.has_gen fresh) _
          have stack' : (w.setStatus g .running).store.machines[m']? =
              some ⟨.own ([genFrame g' u] ++ [layerFrame l t']), owner⟩ := stack
          have inside : Built (w.setStatus g .running) g' ls foot :=
            rest.keep changes fun x mem place => alone.2.1 x mem (List.mem_singleton.1 place)
          have outside := stage.keep changes
            fun x mem place => alone.2.2 x mem (List.mem_singleton.1 place)
          cases outside with
          | @mk vals owner' gs gs' spot spot' acts running' stack'' frames nest =>
              have waiting : Nest (w.setStatus g .running) g
                  (.running gm (advancing m g) :: acts) (gs ++ gs')
                  (.gen gm.id :: .machine m :: (spot ++ spot')) :=
                .inner running' stack'' frames nest
              have stage' : Stage (w.setStatus g .running) g m' [genFrame g' u]
                  (.running gm (advancing m g) :: acts) ([.handle l] ++ (gs ++ gs'))
                  (.gen g.id :: .machine m' :: ([] ++
                    (.gen gm.id :: .machine m :: (spot ++ spot')))) :=
                .mk running stack' (.handle .nil) waiting
              have apart' : (foot ++ (Loc.gen g.id :: .machine m' ::
                  ([] ++ (.gen gm.id :: .machine m :: (spot ++ spot'))))).Nodup := by
                refine World.nodup_of_count apart fun x => ?_
                simp only [List.count_cons, List.count_append, List.count_nil]
                omega
              have focus := ih inside stage' apart'
              refine Leads.weaken (n := 2) ?_ (Nat.zero_le _)
              refine .step (advance_fresh fresh _) (.step (step_start stack' g _) ?_)
              refine (settled_gen stack' _ _).symm ▸ ?_
              exact focus.mono fun C inner => .handle inner

/-! ## Making machines -/

def converting : Activation (guest c layers s₀) := .calling (.library .converting)

/-- Waits for the machine of a handled level. -/
def wrapped : Activation (guest c layers s₀) := .calling (.guest .passing)

def applied (l : Layer) (t : Tag) : Activation (guest c layers s₀) :=
  .calling (.library (.applied l.handler t))

section Making

variable {w : World (guest c layers s₀)} {acts : List (Activation (guest c layers s₀))}

theorem reaches_convert (w : World (guest c layers s₀))
    (acts : List (Activation (guest c layers s₀))) (id : Nat) (name : String) (caller : Caller) :
    Reaches 2 ⟨w, acts, .call (.native (.service .toGenerator)) [.closure id name] caller⟩
      ⟨w, converting :: acts, .call (.closure id name) [] .conversion⟩ :=
  .step rfl (.one rfl)

/-- A level applies its handler to the next one, which is converted first. -/
theorem reaches_level {l : Layer} {i : Nat} (level : layers[i]? = some l)
    (w : World (guest c layers s₀)) (acts : List (Activation (guest c layers s₀)))
    (caller : Caller) :
    ∃ w' t, w.Changes w' [] ∧
      Reaches 6 ⟨w, acts, .call (.closure (3 * i) "computation") [] caller⟩
        ⟨w', converting :: applied l t :: wrapped :: acts,
          .call (.closure (3 * (i + 1)) "computation") [] .conversion⟩ := by
  let w₁ : World (guest c layers s₀) := { w with store := w.store.freshTag.1 }
  have changes : w.Changes w₁ [] := World.Changes.of_store w₁.store rfl
  have called := step_closure w acts (3 * i) "computation" [] caller
  rw [enter_level layers s₀ i, level] at called
  have wrapping : Config.step ⟨w, .calling (.guest (.wrapping l (i + 1))) :: acts,
        .reply (.value .none)⟩ =
      .ok ⟨w, wrapped :: acts,
        .call (.handler l.handler) [.closure (3 * (i + 1)) "computation"] .program⟩ := rfl
  have applying : Config.step ⟨w, wrapped :: acts,
        .call (.handler l.handler) [.closure (3 * (i + 1)) "computation"] .program⟩ =
      .ok ⟨w₁, .calling (.library (.applying l.handler w.store.freshTag.2
        (.closure (3 * (i + 1)) "computation"))) :: wrapped :: acts, .reply (.value .none)⟩ := rfl
  have asked : Config.step ⟨w₁, .calling (.library (.applying l.handler w.store.freshTag.2
        (.closure (3 * (i + 1)) "computation"))) :: wrapped :: acts, .reply (.value .none)⟩ =
      .ok ⟨w₁, applied l w.store.freshTag.2 :: wrapped :: acts,
        .call (.native (.service .toGenerator)) [.closure (3 * (i + 1)) "computation"]
          .program⟩ := rfl
  refine ⟨w₁, w.store.freshTag.2, changes, ?_⟩
  exact .step called (.step wrapping (.step applying (.step asked (reaches_convert _ _ _ _ _))))

theorem step_converting {g : Gen} (kind : g.kind = .generator) (w : World (guest c layers s₀))
    (acts : List (Activation (guest c layers s₀))) :
    Config.step ⟨w, converting :: acts, .reply (.value (.gen g))⟩ =
      .ok ⟨w, acts, .reply (.value (.gen g))⟩ := by
  have plain : (Val.gen g).generator? = some g := if_pos kind
  have stepped : Process.converting.step w.store (.value (.gen g)) = (w.store, .done (.gen g)) := by
    simp only [Process.step, plain]
  change Except.ok (Config.turnOfCall { w with store := (Process.converting.step w.store
    (.value (.gen g))).1 } acts ((Process.converting.step w.store (.value (.gen g))).2.map _)) = _
  rw [stepped]
  rfl

/-- The generator of a level is what its machine runs. -/
theorem reaches_machine {g : Gen} (kind : g.kind = .generator) (l : Layer) (t : Tag)
    (w : World (guest c layers s₀)) (acts : List (Activation (guest c layers s₀))) :
    ∃ w' gm m u owner, gm.kind = .generator ∧ w.Changes w' [] ∧
      w'.gens[gm.id]? = some (.fresh (.library (.machine m .start))) ∧
      w'.store.machines[m]? = some ⟨.own [genFrame g u, layerFrame l t], owner⟩ ∧
      ¬ w.Has (.gen gm.id) ∧ ¬ w.Has (.machine m) ∧
      Reaches 5 ⟨w, converting :: applied l t :: wrapped :: acts, .reply (.value (.gen g))⟩
        ⟨w', acts, .reply (.value (.gen gm))⟩ := by
  let u := w.store.freshTag.2
  let w₁ : World (guest c layers s₀) := { w with store := w.store.freshTag.1 }
  let w₂ : World (guest c layers s₀) := { w₁ with
    store := (w₁.store.newMachine (.own [genFrame g u, layerFrame l t]) (.handler l.handler)).1 }
  let m := w.store.machines.size
  let w₃ := (w₂.spawn .generator "Machine.run" (.library (.machine m .start))).1
  let gm := (w₂.spawn .generator "Machine.run" (.library (.machine m .start))).2
  have changes : w.Changes w₃ [] :=
    ((World.Changes.of_store w₁.store rfl).trans
      ((World.Changes.newMachine w₁ _ _).trans (World.Changes.spawn w₂ _ _ _))).mono (by simp)
  have stack : w₃.store.machines[m]? = some ⟨.own [genFrame g u, layerFrame l t],
      .handler l.handler⟩ := by
    simp [w₃, w₂, w₁, m, World.spawn, Store.newMachine, Store.freshTag]
  have made : Config.step ⟨w, applied l t :: wrapped :: acts, .reply (.value (.gen g))⟩ =
      .ok ⟨w₂, .calling (.library .passing) :: wrapped :: acts,
        .call (.native (.service .runMachine)) [.machine m] .program⟩ := rfl
  have spawned : Config.step ⟨w₂, .calling (.library .passing) :: wrapped :: acts,
        .call (.native (.service .runMachine)) [.machine m] .program⟩ =
      .ok ⟨w₃, .calling (.library .passing) :: wrapped :: acts, .reply (.value (.gen gm))⟩ := rfl
  have passed : Config.step ⟨w₃, .calling (.library .passing) :: wrapped :: acts,
        .reply (.value (.gen gm))⟩ =
      .ok ⟨w₃, wrapped :: acts, .reply (.value (.gen gm))⟩ := rfl
  refine ⟨w₃, gm, m, u, _, rfl, changes, World.getElem?_spawn w₂ _ _ _, stack,
    Nat.lt_irrefl _, Nat.lt_irrefl _, ?_⟩
  exact .step (step_converting kind _ _) (.step made (.step spawned (.step passed (.one rfl))))

end Making

/-- The machines of the levels from one on. -/
theorem leads_built (ls : List Layer) {i : Nat} (levels : layers.drop i = ls)
    (w : World (guest c layers s₀)) (acts : List (Activation (guest c layers s₀)))
    (caller : Caller) :
    Leads 0 ⟨w, acts, .call (.closure (3 * i) "computation") [] caller⟩ fun C =>
      ∃ w' g foot, C = ⟨w', acts, .reply (.value (.gen g))⟩ ∧ Built w' g ls foot ∧ foot.Nodup := by
  induction ls generalizing i w acts caller with
  | nil =>
      have last : layers[i]? = none := by
        rw [← List.head?_drop, levels]
        rfl
      have called := step_closure w acts (3 * i) "computation" [] caller
      rw [enter_level layers s₀ i, last] at called
      have built : Built (w.spawn .generator "computation" (code (.plain s₀))).1
          (w.spawn .generator "computation" (code (.plain s₀))).2 []
          [.gen (w.spawn .generator "computation" (code (.plain s₀))).2.id] :=
        .computation rfl (World.getElem?_spawn w _ _ _)
      exact (Leads.step called (.here ⟨_, _, _, rfl, built, by simp⟩)).weaken (Nat.zero_le _)
  | cons l ls ih =>
      have level : layers[i]? = some l := by
        rw [← List.head?_drop, levels]
        rfl
      have rest : layers.drop (i + 1) = ls := by
        rw [← List.tail_drop, levels]
        rfl
      obtain ⟨w₁, t, -, down⟩ := reaches_level level w acts caller
      have inner := ih rest w₁ (converting :: applied l t :: wrapped :: acts) .conversion
      refine (Leads.reached down (inner.bind (n := 0) fun C came => ?_)).weaken (Nat.zero_le _)
      obtain ⟨w₂, g, foot, rfl, built, apart⟩ := came
      obtain ⟨w₃, gm, m, u, owner, kind, changes, fresh, stack, newGen, newMachine, up⟩ :=
        reaches_machine built.kind l t w₂ acts
      have built' : Built w₃ gm (l :: ls) (.gen gm.id :: .machine m :: foot) :=
        .layer kind fresh stack (built.keep changes (by simp))
      have apart' : (Loc.gen gm.id :: .machine m :: foot).Nodup := by
        simp only [List.nodup_cons, List.mem_cons, not_or]
        exact ⟨⟨by simp, fun mem => newGen (built.has _ mem)⟩,
          fun mem => newMachine (built.has _ mem), apart⟩
      exact (Leads.reached up (.here ⟨w₃, gm, _, rfl, built', apart'⟩)).weaken (Nat.zero_le _)

/-! ## The driver -/

def driver (p : Execute.Phase) : Activation (guest c layers s₀) := .calling (.library (.execute p))

/-- The driver makes a machine for what the outermost level gave, and starts it. -/
theorem reaches_launched {w : World (guest c layers s₀)} {g : Gen} {ls : List Layer}
    {foot : List Loc} (built : Built w g ls foot) (apart : foot.Nodup) :
    ∃ w' gm m t spot, Built w' g ls foot ∧ Stage w' gm m [genFrame g t] [executing gm] [] spot ∧
      (foot ++ spot).Nodup ∧
      Reaches 6 ⟨w, [converting, driver .converting], .reply (.value (.gen g))⟩
        ⟨w', [.running gm (advancing m g), executing gm], .advance g (.send .none)⟩ := by
  let t := w.store.freshTag.2
  let w₁ : World (guest c layers s₀) := { w with store := w.store.freshTag.1 }
  let w₂ : World (guest c layers s₀) :=
    { w₁ with store := (w₁.store.newMachine (.own [genFrame g t]) .none).1 }
  let m := w.store.machines.size
  let w₃ := (w₂.spawn .generator "Machine.run" (.library (.machine m .start))).1
  let gm := (w₂.spawn .generator "Machine.run" (.library (.machine m .start))).2
  let w₄ := w₃.setStatus gm .running
  have changes : w.Changes w₃ [] :=
    ((World.Changes.of_store w₁.store rfl).trans
      ((World.Changes.newMachine w₁ _ _).trans (World.Changes.spawn w₂ _ _ _))).mono (by simp)
  have stack : w₄.store.machines[m]? = some ⟨.own ([genFrame g t] ++ []), .none⟩ := by
    simp [w₄, w₃, w₂, w₁, m, World.setStatus, World.spawn, Store.newMachine, Store.freshTag]
  have fresh : w₃.gens[gm.id]? = some (.fresh (.library (.machine m .start))) :=
    World.getElem?_spawn w₂ _ _ _
  have running : w₄.gens[gm.id]? = some .running :=
    World.getElem?_setStatus (World.has_gen fresh) _
  have newGen : ∀ x ∈ foot, x ≠ .gen gm.id := by
    rintro x mem rfl
    exact Nat.lt_irrefl w.gens.size (built.has _ mem)
  have newMachine : ∀ x ∈ foot, x ≠ .machine m := by
    rintro x mem rfl
    exact Nat.lt_irrefl w.store.machines.size (built.has _ mem)
  have built₄ : Built w₄ g ls foot :=
    (built.keep changes (by simp)).keep (World.Changes.setStatus w₃ gm .running)
      fun x mem place => newGen x mem (List.mem_singleton.1 place)
  have stage : Stage w₄ gm m [genFrame g t] [executing gm] ([] ++ [])
      (.gen gm.id :: .machine m :: ([] ++ [])) := .mk running stack .nil (.top gm)
  have alone : (foot ++ (Loc.gen gm.id :: .machine m :: ([] ++ []))).Nodup := by
    simp only [List.nodup_append, List.append_nil]
    refine ⟨apart, by simp, fun x mem y place => ?_⟩
    simp only [List.mem_cons, List.not_mem_nil, or_false] at place
    rcases place with rfl | rfl
    · exact newGen x mem
    · exact newMachine x mem
  have launched : Config.step ⟨w, [driver .converting], .reply (.value (.gen g))⟩ =
      .ok ⟨w₂, [driver .launching],
        .call (.native (.service .runMachine)) [.machine m] .program⟩ := rfl
  have spawned : Config.step ⟨w₂, [driver .launching],
        .call (.native (.service .runMachine)) [.machine m] .program⟩ =
      .ok ⟨w₃, [driver .launching], .reply (.value (.gen gm))⟩ := rfl
  have advanced : Config.step ⟨w₃, [driver .launching], .reply (.value (.gen gm))⟩ =
      .ok ⟨w₃, [executing gm], .advance gm (.send .none)⟩ := rfl
  refine ⟨w₄, gm, m, t, _, built₄, stage, alone, ?_⟩
  refine .step (step_converting built.kind _ _) (.step launched (.step spawned (.step advanced ?_)))
  refine .step (advance_fresh fresh _) (.one ((step_start stack gm _).trans ?_))
  exact congrArg Except.ok (settled_gen stack _ _)

/-- From its start the kernel comes to the program. -/
theorem leads_program (c : Code) (layers : List Layer) (s : c.Plain) (settings : Settings) :
    Leads 0 (start c layers s settings) (Focus (program layers s) []) := by
  let w : World (guest c layers s) := ⟨Store.initial settings, #[], ()⟩
  have entered : Config.step (start c layers s settings) =
      .ok ⟨w, [driver (.start (.closure 0 "computation"))], .reply (.value .none)⟩ := rfl
  have asked : Config.step ⟨w, [driver (.start (.closure 0 "computation"))],
        .reply (.value .none)⟩ =
      .ok ⟨w, [driver .converting], .call (.native (.service .toGenerator))
        [.closure 0 "computation"] .program⟩ := rfl
  have down := reaches_convert w [driver .converting] 0 "computation" .program
  have levels := leads_built layers (i := 0) (List.drop_zero (l := layers)) w
    [converting, driver .converting] .conversion
  refine Leads.weaken (n := 4) (.step entered (.step asked (Leads.reached (n := 0) down ?_)))
    (Nat.zero_le _)
  refine levels.bind (n := 0) fun C came => ?_
  obtain ⟨w', g, foot, rfl, built, apart⟩ := came
  obtain ⟨w₄, gm, m, t, spot, built₄, stage, alone, launched⟩ := reaches_launched built apart
  exact (Leads.reached launched (built₄.started stage alone)).weaken (Nat.zero_le _)

end OneShot.Deep
