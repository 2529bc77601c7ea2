import OneShot.Proofs.Deep.Dispatch

/-!
# Effects on their way outward

The search for the owner of an effect through all machines of a nest: one by one
they capture their stacks, on top of which come those captured before.
-/

namespace OneShot.Deep

open Config (Leads Reaches)

variable {c : Code} {layers : List Layer} {s₀ : c.Plain}

/-- What ends when it is closed: something suspended that does not answer an exit. -/
inductive Closable (w : World (guest c layers s₀)) : Val → Prop
  | code {g : Gen} {q : State c} {how : Suspension}
      (h : w.gens[g.id]? = some (.suspended (code q) how)) : Closable w (.gen g)
  | passing {g : Gen} {how : Suspension} (h : w.gens[g.id]? = some (.suspended passing how)) :
      Closable w (.gen g)
  | relay {g : Gen} {m : Nat} {how : Suspension}
      (h : w.gens[g.id]? = some (.suspended (relay m) how)) : Closable w (.gen g)
  | bind {g d : Gen} {q : State c} (h : w.gens[g.id]? = some (.delegating (code q) d))
      (other : d.id ≠ g.id)
      (request : w.gens[d.id]? = some (.suspended passing .direct) ∨
        w.gens[d.id]? = some .finished) : Closable w (.gen g)
  | finished {g : Gen} (h : w.gens[g.id]? = some .finished) : Closable w (.gen g)

theorem Frames.closable {w : World (guest c layers s₀)} {vals : List Val} {fs : List (Scope c)}
    {foot : List Loc} (h : Frames w vals fs foot) (apart : foot.Nodup) :
    ∀ v ∈ vals.filterMap Val.framed?, Closable w v := by
  induction h with
  | nil => simp
  | handle rest ih => exact ih apart
  | @bind g d s t vals fs foot clause request rest ih =>
      have same : (genFrame g t :: vals).filterMap Val.framed? =
          .gen g :: vals.filterMap Val.framed? := rfl
      simp only [List.nodup_cons, List.mem_cons, not_or, Loc.gen.injEq] at apart
      rw [same, List.forall_mem_cons]
      exact ⟨.bind clause (Ne.symm apart.1.1) (.inl request), ih apart.2.2⟩
  | @pass g t vals fs foot request rest ih =>
      have same : (genFrame g t :: vals).filterMap Val.framed? =
          .gen g :: vals.filterMap Val.framed? := rfl
      rw [same, List.forall_mem_cons]
      exact ⟨.passing request, ih (List.nodup_cons.1 apart).2⟩
  | @relay g m owner t vals fs foot resent spent rest ih =>
      have same : (genFrame g t :: vals).filterMap Val.framed? =
          .gen g :: vals.filterMap Val.framed? := rfl
      rw [same, List.forall_mem_cons]
      exact ⟨.relay resent, ih (List.nodup_cons.1 (List.nodup_cons.1 apart).2).2⟩

/-- An effect has come to the clause of its owner, or to the driver. -/
inductive Dispatched (e : Effect) (args : List Val) (context : Val) (K : Answer → Prog c)
    (fs : List (Scope c)) : Config (guest c layers s₀) → Prop
  | answered {gs gs' : List (Scope c)} {l : Layer} {j : Nat} {C : Config (guest c layers s₀)}
      (split : fs = gs ++ .handle l :: gs') (unowned : Unowned e gs)
      (clause : l.clause? e = some j)
      (focus : Focus (Prog.clause j (fun b => .handle l (plug (K b) gs)) args) gs' C) :
      Dispatched e args context K fs C
  | escaped {w : World (guest c layers s₀)} {g : Gen} {id : Nat} {a : Arguments} {k : Cont}
      (unowned : Unowned e fs)
      (closable : ∀ v ∈ (w.store.frames k).filterMap Val.framed? ++ [.gen g], Closable w v) :
      Dispatched e args context K fs ⟨w, [executing g],
        .reply (.yielded (.resend id ⟨.effect e, a, .cont k, context⟩))⟩

theorem Dispatched.outer {e : Effect} {args : List Val} {context : Val} {K : Answer → Prog c}
    {fs gs : List (Scope c)} {C : Config (guest c layers s₀)}
    (h : Dispatched e args context (fun b => plug (K b) fs) gs C) (unowned : Unowned e fs) :
    Dispatched e args context K (fs ++ gs) C := by
  cases h with
  | @answered hs hs' l j C split none_owns clause focus =>
      have outside : fs ++ gs = (fs ++ hs) ++ .handle l :: hs' := by
        rw [split, List.append_assoc]
      refine .answered outside (unowned.append none_owns) clause ?_
      simpa only [plug_append] using focus
  | escaped none_owns closable => exact .escaped (unowned.append none_owns) closable

section Dispatching

variable {w : World (guest c layers s₀)} {gm g g₀ : Gen} {m : Nat} {t t₀ : Tag}
  {inner : Option Cont} {vals below : List Val} {owner : Val} {q : State c}
  {K : Answer → Prog c} {acts : List (Activation (guest c layers s₀))}
  {fs hs hs' : List (Scope c)} {foot foot' spot spot' : List Loc} {e : Effect}

theorem captured_append (above : inner.elim [] w.store.frames ++ [genFrame g₀ t₀] =
    genFrame g t :: vals) (more : List Val) :
    inner.elim [] w.store.frames ++ genFrame g₀ t₀ :: more = genFrame g t :: (vals ++ more) := by
  rw [List.append_cons, above]
  rfl

/-- A machine on which nobody owns the effect resends it, and becomes a relay. -/
theorem turned_resend (running : w.gens[gm.id]? = some .running)
    (stack : w.store.machines[m]? = some ⟨.own (genFrame g₀ t₀ :: below), owner⟩)
    (faultless : searchFault? (.effect e) below = none) (uncut : cut e below = none)
    (above : inner.elim [] w.store.frames ++ [genFrame g₀ t₀] = genFrame g t :: vals)
    (acts : List (Activation (guest c layers s₀))) (args : Arguments) (context : Val) :
    ∃ (w' : World (guest c layers s₀)) (k : Cont) (id : Nat) (from? : Option Val),
      turned w gm m acts (Machine.dispatch w.store m (.effect e) args context inner) =
        ⟨w', acts, .reply (.yielded (.resend id ⟨.effect e, args, .cont k, context⟩))⟩ ∧
      w.Changes w' [.machine m, .gen gm.id] ∧
      w'.store.machines[m]? = some ⟨.own [], owner⟩ ∧
      w'.gens[gm.id]? = some (.suspended (relay m) .inner) ∧
      w'.store.conts[k.index]? = some ⟨genFrame g t :: (vals ++ below), from?, false⟩ ∧
      ¬ w.Has (.cont k.index) := by
  have here : w.store.stack m = genFrame g₀ t₀ :: below := Store.stack_of_own stack
  have uncut' : cut e (w.store.stack m) = none := by
    rw [here, cut_gen, uncut]
    rfl
  obtain ⟨text, id, resent⟩ := dispatch_of_uncut (here ▸ faultless) uncut' args context inner
  rw [here] at resent
  let w₁ : World (guest c layers s₀) := { w with
    store := (capturing w.store m [] (genFrame g₀ t₀ :: below) inner text).1 }
  have changes : w.Changes w₁ [.machine m] := changes_capturing stack _ _ _ _
  obtain ⟨slice, new⟩ := conts_capturing (w := w) (m := m) [] (genFrame g₀ t₀ :: below) inner text
  rw [captured_append above] at slice
  refine ⟨World.setStatus { w₁ with store := w₁.store.freshId.1 } gm
    (.suspended (relay m) .inner), _, id, _, by rw [resent]; rfl, ?_,
    machines_capturing stack _ _ _ _, World.getElem?_setStatus (World.has_gen running) _,
    slice, new⟩
  exact (changes.trans ((World.Changes.of_store w₁.store.freshId.1 rfl).trans
    (World.Changes.setStatus _ gm _))).mono (by simp)

/-- A machine on which somebody owns the effect calls the clause. -/
theorem leads_clause (running : w.gens[gm.id]? = some .running)
    (stack : w.store.machines[m]? = some ⟨.own (genFrame g₀ t₀ :: below), owner⟩)
    (faultless : searchFault? (.effect e) below = none) (owned : Owned w e below hs spot)
    (nest : Nest w gm acts hs' spot')
    (above : inner.elim [] w.store.frames ++ [genFrame g₀ t₀] = genFrame g t :: vals)
    (top : w.gens[g.id]? = some (.suspended (code q) .direct)) (standing : Standing w q K foot)
    (captured : Frames w vals fs foot')
    (apart : (.gen g.id :: (foot ++ foot' ++ .gen gm.id :: .machine m :: (spot ++ spot'))).Nodup)
    (args : Arguments) (context : Val) :
    Leads 0 (turned w gm m acts (Machine.dispatch w.store m (.effect e) args context inner))
      (Dispatched e args.values context (fun b => plug (K b) fs) (hs ++ hs')) := by
  have here : w.store.stack m = genFrame g₀ t₀ :: below := Store.stack_of_own stack
  cases owned with
  | @mk upper rest gs gs' foot₁ foot₂ l t' j frames frames' unowned clause slice =>
      have found : cut e (w.store.stack m) = some ⟨genFrame g₀ t₀ :: (upper ++ [layerFrame l t']),
          l.handler, .closure (3 * j + 2) "clause", rest⟩ := by
        rw [here, cut_gen, slice]
        rfl
      obtain ⟨text, called⟩ := dispatch_of_cut (here ▸ faultless) found args context inner
      let w₁ : World (guest c layers s₀) := { w with store := (capturing w.store m rest
        (genFrame g₀ t₀ :: (upper ++ [layerFrame l t'])) inner text).1 }
      have changes : w.Changes w₁ [.machine m] := changes_capturing stack _ _ _ _
      obtain ⟨sliced, new⟩ := conts_capturing (w := w) (m := m) rest
        (genFrame g₀ t₀ :: (upper ++ [layerFrame l t'])) inner text
      rw [captured_append above] at sliced
      have has : ∀ x ∈ Loc.gen g.id ::
          (foot ++ foot' ++ .gen gm.id :: .machine m :: (foot₁ ++ foot₂ ++ spot')), w.Has x := by
        simp only [List.forall_mem_cons, List.forall_mem_append]
        exact ⟨World.has_gen top, ⟨standing.has, captured.has⟩, World.has_gen running,
          World.has_machine stack, ⟨frames.has, frames'.has⟩, nest.has⟩
      have alone : (Loc.cont (capturing w.store m rest
          (genFrame g₀ t₀ :: (upper ++ [layerFrame l t'])) inner text).2.index :: .gen g.id ::
          (foot ++ (foot' ++ (foot₁ ++ [])) ++
            (.gen gm.id :: .machine m :: (foot₂ ++ spot')))).Nodup := by
        refine World.nodup_of_count (List.nodup_cons.2 ⟨fun mem => new (has _ mem), apart⟩)
          fun x => ?_
        simp only [List.count_cons, List.count_append, List.count_nil]
        omega
      simp only [List.nodup_cons, List.nodup_append, List.mem_cons, List.mem_append] at apart
      have stage : Stage w₁ gm m [] acts (gs' ++ hs')
          (.gen gm.id :: .machine m :: (foot₂ ++ spot')) :=
        .mk running (machines_capturing stack _ _ _ _)
          (frames'.keep changes (by grind [List.Disjoint]))
          (nest.keep changes (by grind [List.Disjoint]))
      have slice : Frames w₁ (vals ++ (upper ++ [layerFrame l t'])) (fs ++ (gs ++ [.handle l]))
          (foot' ++ (foot₁ ++ [])) :=
        (captured.keep changes (by grind [List.Disjoint])).append
          ((frames.keep changes (by grind [List.Disjoint])).append (.handle .nil))
      have answered := stage.clause sliced top (standing.keep changes (by grind [List.Disjoint]))
        slice alone j args.values .machine
      rw [called]
      refine (answered.mono fun C focus => ?_).weaken (Nat.zero_le _)
      have split : gs ++ .handle l :: gs' ++ hs' = gs ++ .handle l :: (gs' ++ hs') := by simp
      refine .answered split unowned clause ?_
      simpa only [plug_append, plug] using focus

end Dispatching

/-- A machine that gets a resend takes the continuation, and dispatches the effect. -/
theorem step_resend {w : World (guest c layers s₀)} {k : Cont} {frames : List Val}
    {from? : Option Val} (slice : w.store.conts[k.index]? = some ⟨frames, from?, false⟩)
    (gm g : Gen) (m : Nat) (acts : List (Activation (guest c layers s₀))) (id : Nat) (e : Val)
    (args : Arguments) (context : Val) :
    Config.step ⟨w, .running gm (advancing m g) :: acts,
        .reply (.yielded (.resend id ⟨e, args, .cont k, context⟩))⟩ =
      .ok (turned { w with store := (w.store.take k).1 } gm m acts
        (Machine.dispatch (w.store.take k).1 m e args context (some k))) := by
  have taken : w.store.take k = ((w.store.take k).1, true) :=
    Prod.ext rfl (Store.conts_take slice).1
  refine (step_machine w gm m _ acts _).trans (congrArg Except.ok ?_)
  simp only [Machine.step, Machine.receive]
  rw [taken]
  rfl

/-- A machine dispatches an effect; what was captured before comes with it. -/
theorem dispatched (n : Nat) {w : World (guest c layers s₀)} {gm g g₀ : Gen} {m : Nat}
    {t t₀ : Tag} {inner : Option Cont} {vals : List Val} {q : State c} {K : Answer → Prog c}
    {acts : List (Activation (guest c layers s₀))} {fs gs : List (Scope c)}
    {foot foot' spot : List Loc} (less : acts.length ≤ n)
    (above : inner.elim [] w.store.frames ++ [genFrame g₀ t₀] = genFrame g t :: vals)
    (top : w.gens[g.id]? = some (.suspended (code q) .direct)) (standing : Standing w q K foot)
    (captured : Frames w vals fs foot') (stage : Stage w gm m [genFrame g₀ t₀] acts gs spot)
    (apart : (.gen g.id :: (foot ++ foot' ++ spot)).Nodup) (e : Effect) (args : Arguments)
    (context : Val) :
    Leads 0 (turned w gm m acts (Machine.dispatch w.store m (.effect e) args context inner))
      (Dispatched e args.values context (fun b => plug (K b) fs) gs) := by
  induction n generalizing w gm g₀ m t₀ inner vals acts fs gs foot' spot with
  | zero =>
      cases stage with
      | mk running stack frames nest => cases nest <;> simp at less
  | succ n ih =>
      cases stage with
      | @mk below owner hs hs' spot spot' acts running stack frames nest =>
          obtain ⟨faultless, ⟨unowned, uncut⟩ | owned⟩ := frames.search e
          · obtain ⟨w', k, id, from?, resent, changes, spent, relayed, slice, new⟩ :=
              turned_resend running stack faultless uncut above acts args context
            rw [resent]
            have moved : Frames w' (vals ++ below) (fs ++ hs) (foot' ++ spot) := by
              refine (captured.append frames).keep changes ?_
              simp only [List.nodup_cons, List.nodup_append, List.mem_cons, List.mem_append] at apart
              grind [List.Disjoint]
            have top' : w'.gens[g.id]? = some (.suspended (code q) .direct) := by
              refine gen_kept changes top ?_
              simp only [List.nodup_cons, List.mem_cons, List.mem_append] at apart
              grind
            cases nest with
            | top g' =>
                have lookup : w'.store.frames k = genFrame g t :: (vals ++ below) := by
                  simp [Store.frames, slice]
                have escaped : Dispatched e args.values context (fun b => plug (plug (K b) fs) hs) []
                    ⟨w', [executing gm], .reply (.yielded (.resend id
                      ⟨.effect e, args, .cont k, context⟩))⟩ := by
                  refine .escaped (by simp [Unowned]) ?_
                  rw [lookup]
                  simp only [List.forall_mem_append, List.forall_mem_singleton]
                  refine ⟨?_, .relay relayed⟩
                  have same : (genFrame g t :: (vals ++ below)).filterMap Val.framed? =
                      .gen g :: (vals ++ below).filterMap Val.framed? := rfl
                  rw [same, List.forall_mem_cons]
                  refine ⟨.code top', moved.closable (World.nodup_of_count apart fun x => ?_)⟩
                  simp only [List.count_cons, List.count_append]
                  omega
                exact .here (escaped.outer unowned)
            | @inner _ gm' m' t' below' owner' ks ks' spot₁ spot₂ acts running' stack' frames' nest' =>
                let w₃ : World (guest c layers s₀) :=
                  { w' with store := (w'.store.take k).1 }
                have changes₃ : w'.Changes w₃ [.cont k.index] := World.Changes.take w' k
                have all : w.Changes w₃ [.machine m, .gen gm.id, .cont k.index] :=
                  (changes.trans changes₃).mono (by simp)
                have outer : Stage w gm' m' [genFrame gm t'] acts (ks ++ ks')
                    (.gen gm'.id :: .machine m' :: (spot₁ ++ spot₂)) :=
                  .mk running' stack' frames' nest'
                have old : ∀ x ∈ foot ++ (foot' ++ spot) ++
                    (.gen gm'.id :: .machine m' :: (spot₁ ++ spot₂)), x ≠ .cont k.index := by
                  intro x mem same
                  refine new (same ▸ ?_)
                  simp only [List.mem_append] at mem
                  rcases mem with (mem | mem | mem) | mem
                  · exact standing.has x mem
                  · exact captured.has x mem
                  · exact frames.has x mem
                  · exact outer.has x mem
                have apart₃ : (Loc.gen g.id :: (foot ++ ((foot' ++ spot) ++ [.gen gm.id, .machine m]) ++
                    (.gen gm'.id :: .machine m' :: (spot₁ ++ spot₂)))).Nodup := by
                  refine World.nodup_of_count apart fun x => ?_
                  simp only [List.count_cons, List.count_append, List.count_nil]
                  omega
                have disjoint : (foot ++ (.gen gm'.id :: .machine m' :: (spot₁ ++ spot₂))).Disjoint
                    [.machine m, .gen gm.id, .cont k.index] := by
                  intro x mem place
                  have once := List.nodup_iff_count.1 apart x
                  have here := List.count_pos_iff.2 mem
                  have else_old := old x (by grind)
                  simp only [List.count_cons, List.count_append] at once here
                  simp only [List.mem_cons, List.not_mem_nil, or_false] at place
                  rcases place with rfl | rfl | rfl
                  · simp only [beq_self_eq_true, if_true] at once
                    omega
                  · simp only [beq_self_eq_true, if_true] at once
                    omega
                  · exact else_old rfl
                have captured₃ : Frames w₃ ((vals ++ below) ++ [genFrame gm t']) ((fs ++ hs) ++ [])
                    ((foot' ++ spot) ++ [.gen gm.id, .machine m]) := by
                  refine (moved.keep changes₃ fun x mem place => ?_).append
                    (.relay relayed (machine_kept changes₃ spent (by simp)) .nil)
                  exact old x (List.mem_append_left _ (List.mem_append_right _ mem))
                    (List.mem_singleton.1 place)
                have above₃ : (some k).elim [] w₃.store.frames ++ [genFrame gm t'] =
                    genFrame g t :: ((vals ++ below) ++ [genFrame gm t']) := by
                  have lookup : w'.store.frames k = genFrame g t :: (vals ++ below) := by
                    simp [Store.frames, slice]
                  simp only [Option.elim, w₃, Store.frames_take, lookup, List.cons_append]
                simp only [List.disjoint_append_left] at disjoint
                have rest := ih (by simp at less ⊢; omega) above₃ top'
                  (standing.keep all disjoint.1) captured₃ (outer.keep all disjoint.2) apart₃
                simp only [List.append_nil, plug_append] at rest
                refine ((Leads.step (step_resend slice _ _ _ _ _ _ _ _) rest).mono ?_).weaken
                  (Nat.zero_le _)
                exact fun C came => Dispatched.outer came unowned
          · exact leads_clause running stack faultless owned nest above top standing captured apart
              args context

/-! ## The invocation -/

/-- Where an invocation was made, if that was recorded. -/
inductive Place : Val → Prop
  | unknown : Place .none
  | known (x : Context) : Place (.context x)

theorem invocationAt_eq (s : Store) (e : Effect) (args : List Val) (context : Val) :
    ∃ id a, (e.invocationAt s args context).2 = .invocation id ⟨.effect e, a, context⟩ ∧
      a.values = args :=
  ⟨_, _, rfl, rfl⟩

theorem invocation_eq (s : Store) (e : Effect) (args : List Val) (caller : Caller) :
    ∃ id a context, (e.invocation s args caller).2 = .invocation id ⟨.effect e, a, context⟩ ∧
      a.values = args ∧ Place context := by
  cases debug : s.settings.debug with
  | true =>
      have opened : e.invocation s args caller = e.invocationAt (Site.callerContext caller s).1 args
          (Site.callerContext caller s).2 := by
        simp [Effect.invocation, debug]
      obtain ⟨id, a, made, values⟩ := invocationAt_eq (Site.callerContext caller s).1 e args
        (Site.callerContext caller s).2
      exact ⟨id, a, _, opened ▸ made, values, .known _⟩
  | false =>
      have opened : e.invocation s args caller = e.invocationAt s args .none := by
        simp [Effect.invocation, debug]
      obtain ⟨id, a, made, values⟩ := invocationAt_eq s e args .none
      exact ⟨id, a, _, opened ▸ made, values, .unknown⟩

/-- What a computation performs is dispatched by the machine that runs it. -/
theorem leads_perform {w : World (guest c layers s₀)} {g gm : Gen} {q q' : State c} {a : Answer}
    {e : Effect} {args : List Val} {m : Nat} {t : Tag} {K : Answer → Prog c}
    {acts : List (Activation (guest c layers s₀))} {fs : List (Scope c)} {foot spot : List Loc}
    (acted : Body.act q a = .ask (.call (.effect e) args) (.invoking q'))
    (running : w.gens[g.id]? = some .running) (standing : Standing w q' K foot)
    (stage : Stage w gm m [genFrame g t] acts fs spot)
    (apart : (.gen g.id :: (foot ++ spot)).Nodup) :
    Leads 1 ⟨w, .running g (code q) :: .running gm (advancing m g) :: acts, .reply a.reply⟩
      fun C => ∃ context, Place context ∧ Dispatched e args context K fs C := by
  obtain ⟨id, a', context, made, values, place⟩ := invocation_eq w.store e args .program
  let w₁ : World (guest c layers s₀) :=
    { w with store := (e.invocation w.store args .program).1 }
  let w₂ := w₁.setStatus g (.suspended (code q') .direct)
  have engine := Store.engine_invocation w.store e args .program
  have changes : w.Changes w₂ [.gen g.id] :=
    ((World.Changes.of_store w₁.store engine).trans (World.Changes.setStatus w₁ g _)).mono (by simp)
  have asked : Config.step ⟨w, .running g (code q) :: .running gm (advancing m g) :: acts,
        .reply a.reply⟩ =
      .ok ⟨w, .running g (.guest (.invoking q')) :: .running gm (advancing m g) :: acts,
        .call (.effect e) args .program⟩ := by
    have stepped : (Body.waiting q).step a.reply = .ask (.call (.effect e) args) (.invoking q') := by
      simp only [Body.step, Answer.ofReply?_reply]
      exact acted
    change Except.ok (Config.turnOf w (.running gm (advancing m g) :: acts) g
      (((Body.waiting q).step a.reply).map .guest)) = _
    rw [stepped]
    rfl
  have called : Config.step ⟨w, .running g (.guest (.invoking q')) ::
        .running gm (advancing m g) :: acts, .call (.effect e) args .program⟩ =
      .ok ⟨w₁, .running g (.guest (.invoking q')) :: .running gm (advancing m g) :: acts,
        .reply (.value (.invocation id ⟨.effect e, a', context⟩))⟩ := by
    rw [← made]
    rfl
  have yielded : Config.step ⟨w₁, .running g (.guest (.invoking q')) ::
        .running gm (advancing m g) :: acts,
        .reply (.value (.invocation id ⟨.effect e, a', context⟩))⟩ =
      .ok ⟨w₂, .running gm (advancing m g) :: acts,
        .reply (.yielded (.invocation id ⟨.effect e, a', context⟩))⟩ := rfl
  have dispatch : Config.step ⟨w₂, .running gm (advancing m g) :: acts,
        .reply (.yielded (.invocation id ⟨.effect e, a', context⟩))⟩ =
      .ok (turned w₂ gm m acts (Machine.dispatch w₂.store m (.effect e) a' context none)) :=
    step_machine w₂ gm m _ acts _
  have top : w₂.gens[g.id]? = some (.suspended (code q') .direct) :=
    World.getElem?_setStatus (World.has_gen running) _
  have disjoint : (foot ++ spot).Disjoint [.gen g.id] := by
    simp only [List.disjoint_singleton]
    exact (List.nodup_cons.1 apart).1
  simp only [List.disjoint_append_left] at disjoint
  have above : (none : Option Cont).elim [] w₂.store.frames ++ [genFrame g t] =
      genFrame g t :: [] := rfl
  have out := dispatched acts.length (Nat.le_refl _) above top (standing.keep changes disjoint.1)
    .nil (stage.keep changes disjoint.2) (by simpa using apart) e a' context
  rw [values] at out
  refine Leads.weaken (n := 4) ?_ (by omega)
  refine .step asked (.step called (.step yielded (.step dispatch ?_)))
  exact out.mono fun C came => ⟨context, place, came⟩

end OneShot.Deep
