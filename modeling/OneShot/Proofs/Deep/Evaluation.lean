import OneShot.Proofs.Deep.Ending

/-!
# Evaluation of programs

The kernel brings a program to the head that `eval` gives.  Where a run ends, `eval`
gives one: a program takes at least one step of the kernel for each call of
`eval` that is not on a part of it.
-/

namespace OneShot.Deep

open Config (Leads Reaches)

variable {c : Code} {layers : List Layer} {s₀ : c.Plain}

/-- A program has come to its head: a result, or an effect that no scope of it answers. -/
inductive Arrived : Head c → List (Scope c) → Config (guest c layers s₀) → Prop
  | done {r : Result} {fs : List (Scope c)} {C : Config (guest c layers s₀)}
      (focus : Focus (.done r) fs C) : Arrived (.done r) fs C
  | perform {w : World (guest c layers s₀)} {g gm : Gen} {q q' : State c} {a : Answer}
      {e : Effect} {args : List Val} {m : Nat} {t : Tag} {K : Answer → Prog c}
      {acts : List (Activation (guest c layers s₀))} {gs fs : List (Scope c)}
      {foot spot : List Loc}
      (acted : Body.act q a = .ask (.call (.effect e) args) (.invoking q'))
      (running : w.gens[g.id]? = some .running) (standing : Standing w q' K foot)
      (stage : Stage w gm m [genFrame g t] acts (gs ++ fs) spot)
      (apart : (.gen g.id :: (foot ++ spot)).Nodup) (unowned : Unowned e gs) :
      Arrived (.perform e args fun b => plug (K b) gs) fs
        ⟨w, .running g (code q) :: .running gm (advancing m g) :: acts, .reply a.reply⟩

/-! ## Scopes of an arrived program -/

theorem Unowned.nil (e : Effect) : Unowned (c := c) e [] := by simp [Unowned]

theorem Arrived.handle {e : Effect} {args : List Val} {k : Answer → Prog c} {l : Layer}
    {fs : List (Scope c)} {C : Config (guest c layers s₀)}
    (h : Arrived (.perform e args k) (.handle l :: fs) C) (free : l.clause? e = none) :
    Arrived (.perform e args fun b => .handle l (k b)) fs C := by
  cases h with
  | @perform w g gm q q' a e args m t K acts gs fs foot spot acted running standing stage apart unowned =>
      rw [List.append_cons] at stage
      have outside : Unowned e (gs ++ [.handle l]) := by
        refine unowned.append fun l' mem => ?_
        cases List.mem_singleton.1 mem
        exact free
      have arrived := Arrived.perform acted running standing stage apart outside
      simpa only [plug_append, plug] using arrived

theorem Arrived.bind {e : Effect} {args : List Val} {k : Answer → Prog c} {s : c.Plain}
    {fs : List (Scope c)} {C : Config (guest c layers s₀)}
    (h : Arrived (.perform e args k) (.bind s :: fs) C) :
    Arrived (.perform e args fun b => .bind (k b) s) fs C := by
  cases h with
  | @perform w g gm q q' a e args m t K acts gs fs foot spot acted running standing stage apart unowned =>
      rw [List.append_cons] at stage
      have outside : Unowned e (gs ++ [.bind s]) := by
        refine unowned.append fun l' mem => ?_
        simp at mem
      have arrived := Arrived.perform acted running standing stage apart outside
      simpa only [plug_append, plug] using arrived

/-- The innermost owner of an effect is unique. -/
theorem owner_unique {e : Effect} {l l' : Layer} {gs gs' fs fs' : List (Scope c)}
    (same : gs ++ .handle l :: fs = gs' ++ .handle l' :: fs') (unowned : Unowned e gs)
    (unowned' : Unowned e gs') (owns : (l.clause? e).isSome) (owns' : (l'.clause? e).isSome) :
    gs = gs' ∧ l = l' ∧ fs = fs' := by
  induction gs generalizing gs' with
  | nil =>
      cases gs' with
      | nil =>
          simp only [List.nil_append, List.cons.injEq, Scope.handle.injEq] at same
          exact ⟨rfl, same⟩
      | cons f gs' =>
          simp only [List.nil_append, List.cons_append, List.cons.injEq] at same
          have free := unowned' l (same.1 ▸ List.mem_cons_self)
          simp [free] at owns
  | cons f gs ih =>
      cases gs' with
      | nil =>
          simp only [List.nil_append, List.cons_append, List.cons.injEq] at same
          have free := unowned l' (same.1 ▸ List.mem_cons_self)
          simp [free] at owns'
      | cons f' gs' =>
          simp only [List.cons_append, List.cons.injEq] at same
          obtain ⟨rfl, same⟩ := same
          have tail : ∀ hs : List (Scope c), Unowned e (f :: hs) → Unowned e hs :=
            fun hs all l mem => all l (List.mem_cons_of_mem _ mem)
          obtain ⟨rfl, rest⟩ := ih same (tail _ unowned) (tail _ unowned')
          exact ⟨rfl, rest⟩

/-! ## What follows an arrival -/

theorem Arrived.heading {r : Result} {fs : List (Scope c)} {C : Config (guest c layers s₀)}
    (h : Arrived (.done r) fs C) : Leads 0 C (Heading r.answer fs) := by
  cases h with
  | done focus =>
      generalize same : Prog.done r = p at focus
      cases focus with
      | code a same' running standing stage apart =>
          subst same
          cases standing <;> contradiction
      | done r' stage apart =>
          cases same
          exact Deep.heading r.answer _ (Nat.le_refl _) stage apart
      | handle inside => contradiction
      | bind inside => contradiction

theorem Arrived.returned {v : Val} {plain : v.generator? = none} {l : Layer}
    {fs : List (Scope c)} {C : Config (guest c layers s₀)}
    (h : Arrived (.done (.value v plain)) (.handle l :: fs) C) :
    Leads 1 C (Focus (Prog.returned l v plain) fs) := by
  refine Leads.weaken (n := 0 + 1) (h.heading.bind fun D heading => ?_) (by omega)
  cases heading with
  | handle stage apart => exact stage.returned apart v plain

theorem Arrived.passed {x : Failure} {l : Layer} {fs : List (Scope c)}
    {C : Config (guest c layers s₀)} (h : Arrived (.done (.failed x)) (.handle l :: fs) C) :
    Leads 0 C (Arrived (.done (.failed x)) fs) := by
  refine h.heading.mono fun D heading => ?_
  cases heading with
  | handle stage apart => exact .done (stage.passed apart x)

theorem Arrived.resumed {r : Result} {s : c.Plain} {fs : List (Scope c)}
    {C : Config (guest c layers s₀)} (h : Arrived (.done r) (.bind s :: fs) C) :
    Leads 1 C (Focus (.plain s r.answer) fs) := by
  refine Leads.weaken (n := 0 + 1) (h.heading.bind fun D heading => ?_) (by omega)
  cases heading with
  | bind clause request stage apart => exact stage.resumed clause request apart r.answer

theorem Arrived.performed {e : Effect} {args : List Val} {k : Answer → Prog c} {l : Layer}
    {j : Nat} {fs : List (Scope c)} {C : Config (guest c layers s₀)}
    (h : Arrived (.perform e args k) (.handle l :: fs) C) (owner : l.clause? e = some j) :
    Leads 1 C (Focus (Prog.clause j (fun b => .handle l (k b)) args) fs) := by
  cases h with
  | @perform w g gm q q' a e args m t K acts gs fs foot spot acted running standing stage apart unowned =>
      refine (leads_perform acted running standing stage apart).mono fun D came => ?_
      obtain ⟨context, place, dispatched⟩ := came
      generalize scopes : gs ++ .handle l :: fs = all at dispatched
      cases dispatched with
      | @answered hs hs' l' j' C split none_owns clause focus =>
          obtain ⟨rfl, rfl, rfl⟩ := owner_unique (scopes.trans split) unowned none_owns
            (by simp [owner]) (by simp [clause])
          cases owner.symm.trans clause
          exact focus
      | escaped none_owns closable =>
          have free := none_owns l (scopes ▸ by simp)
          rw [free] at owner
          contradiction

/-- What comes to the driver ends the run. -/
theorem Arrived.stops {hd : Head c} {C : Config (guest c layers s₀)} (h : Arrived hd [] C) :
    Leads 0 C (Stops hd) := by
  cases hd with
  | done r =>
      refine Leads.bind (n := 0) h.heading fun D heading => ?_
      refine (leads_ended heading).mono fun E ended => ?_
      obtain ⟨w, rfl⟩ := ended
      exact ⟨w, _, rfl, .done r⟩
  | perform e args k =>
      cases h with
      | perform acted running standing stage apart unowned =>
          refine Leads.weaken (n := 1 + 0) (Leads.bind
            (leads_perform acted running standing stage apart) fun D came => ?_) (by omega)
          obtain ⟨context, place, dispatched⟩ := came
          exact leads_escaped dispatched place (by simpa using unowned)

/-! ## From evaluations to runs -/

theorem Focus.plain {s : c.Plain} {a : Answer} {fs : List (Scope c)}
    {C : Config (guest c layers s₀)} (h : Focus (.plain s a) fs C) :
    match c.plain s a with
    | .done r => Leads 1 C (Arrived (.done r) fs)
    | .perform e args s' => Arrived (.perform e args fun b => .plain s' b) fs C := by
  generalize same : Prog.plain s a = p at h
  cases h with
  | @code p w g gm q K m t acts fs foot foot' a' same' running standing stage apart =>
      subst same'
      cases standing with
      | holding => contradiction
      | plain s' =>
          cases same
          split
          · rename_i r acted
            have acted' : Body.act (.plain s) a = r.turn := by
              simp only [Body.act, acted]
            exact (leads_result acted' stage (by simpa using apart)).mono fun D focus => .done focus
          · rename_i e args s' acted
            have acted' : Body.act (.plain s) a =
                .ask (.call (.effect e) args) (.invoking (.plain s')) := by
              simp only [Body.act, acted]
            have stage' : Stage w gm m [genFrame g t] acts ([] ++ fs) foot' := stage
            exact Arrived.perform acted' running (.plain s') stage' apart (.nil e)
  | done r stage apart => contradiction
  | handle inside => contradiction
  | bind inside => contradiction

theorem Focus.holding {s : c.Holding} {a : Answer} {k : Answer → Prog c} {fs : List (Scope c)}
    {C : Config (guest c layers s₀)} (h : Focus (.holding s a k) fs C) :
    match c.holding s a with
    | .act (.done r) => Leads 1 C (Arrived (.done r) fs)
    | .act (.perform e args s') => Arrived (.perform e args fun b => .holding s' b k) fs C
    | .resume b s' => Leads 1 C (Focus (.bind (k b) s') fs) := by
  generalize same : Prog.holding s a k = p at h
  cases h with
  | @code p w g gm q K m t acts fs foot foot' a' same' running standing stage apart =>
      subst same'
      cases standing with
      | plain => contradiction
      | @holding s' kont g' t' vals inner q K gs spot spot' slice top standing below =>
          cases same
          split
          · rename_i r acted
            have acted' : Body.act (.holding s kont) a = r.turn := by
              simp only [Body.act, acted]
            refine (leads_result acted' stage ?_).mono fun D focus => .done focus
            grind
          · rename_i e args s' acted
            have acted' : Body.act (.holding s kont) a =
                .ask (.call (.effect e) args) (.invoking (.holding s' kont)) := by
              simp only [Body.act, acted]
            have stage' : Stage w gm m [genFrame g t] acts ([] ++ fs) foot' := stage
            exact Arrived.perform acted' running (.holding slice top standing below) stage' apart
              (.nil e)
          · rename_i b s' acted
            refine (stage.resume slice top standing below running ?_ acted).mono fun D focus =>
              .bind focus
            simpa using apart
  | done r stage apart => contradiction
  | handle inside => contradiction
  | bind inside => contradiction

theorem Focus.handled {l : Layer} {p : Prog c} {fs : List (Scope c)}
    {C : Config (guest c layers s₀)} (h : Focus (.handle l p) fs C) :
    Focus p (.handle l :: fs) C := by
  generalize same : Prog.handle l p = p' at h
  cases h with
  | code a same' running standing stage apart =>
      subst same'
      cases standing <;> contradiction
  | done r stage apart => contradiction
  | handle inside =>
      cases same
      exact inside
  | bind inside => contradiction

theorem Focus.bound {s : c.Plain} {p : Prog c} {fs : List (Scope c)}
    {C : Config (guest c layers s₀)} (h : Focus (.bind p s) fs C) : Focus p (.bind s :: fs) C := by
  generalize same : Prog.bind p s = p' at h
  cases h with
  | code a same' running standing stage apart =>
      subst same'
      cases standing <;> contradiction
  | done r stage apart => contradiction
  | handle inside => contradiction
  | bind inside =>
      cases same
      exact inside

/-- The kernel brings a program to the head that it evaluates to. -/
theorem arrives {p : Prog c} {hd : Head c} (evaluated : Evaluates p hd)
    {fs : List (Scope c)} {C : Config (guest c layers s₀)} (focus : Focus p fs C) :
    Leads 0 C (Arrived hd fs) := by
  obtain ⟨n, evaluated⟩ := evaluated
  induction n generalizing p hd fs C with
  | zero => contradiction
  | succ n ih =>
      cases p with
      | done r =>
          cases evaluated
          exact .here (.done focus)
      | plain s a =>
          have arrived := focus.plain
          simp only [Prog.eval] at evaluated
          split at evaluated
          · rename_i r acted
            rw [acted] at arrived
            cases evaluated
            exact arrived.weaken (Nat.zero_le _)
          · rename_i e args s' acted
            rw [acted] at arrived
            cases evaluated
            exact .here arrived
      | holding s a k =>
          have arrived := focus.holding
          simp only [Prog.eval] at evaluated
          split at evaluated
          · rename_i r acted
            rw [acted] at arrived
            cases evaluated
            exact arrived.weaken (Nat.zero_le _)
          · rename_i e args s' acted
            rw [acted] at arrived
            cases evaluated
            exact .here arrived
          · rename_i b s' acted
            rw [acted] at arrived
            exact (arrived.bind fun D focus => ih focus evaluated).weaken (Nat.zero_le _)
      | handle l p =>
          simp only [Prog.eval] at evaluated
          split at evaluated
          · contradiction
          · rename_i v plain inner
            refine ((ih focus.handled inner).bind (n := 0) fun D arrived => ?_)
            exact (arrived.returned.bind fun E focus => ih focus evaluated).weaken (Nat.zero_le _)
          · rename_i x inner
            cases evaluated
            exact (ih focus.handled inner).bind fun D arrived => arrived.passed
          · rename_i e args k inner
            split at evaluated
            · rename_i j owner
              refine ((ih focus.handled inner).bind (n := 0) fun D arrived => ?_)
              exact ((arrived.performed owner).bind fun E focus => ih focus evaluated).weaken
                (Nat.zero_le _)
            · rename_i free
              cases evaluated
              exact (ih focus.handled inner).mono fun D arrived => arrived.handle free
      | bind p s =>
          simp only [Prog.eval] at evaluated
          split at evaluated
          · contradiction
          · rename_i r inner
            refine ((ih focus.bound inner).bind (n := 0) fun D arrived => ?_)
            exact (arrived.resumed.bind fun E focus => ih focus evaluated).weaken (Nat.zero_le _)
          · rename_i e args k inner
            cases evaluated
            exact (ih focus.bound inner).mono fun D arrived => arrived.bind

/-! ## From runs to evaluations -/

theorem run_less {n fuel : Nat} {C : Config (guest c layers s₀)}
    {P : Config (guest c layers s₀) → Prop} {out : World (guest c layers s₀) × Reply}
    (leads : Leads n C P) (ended : Config.run fuel C = some out) :
    ∃ fuel' D, fuel' + n ≤ fuel ∧ Config.run fuel' D = some out ∧ P D := by
  obtain ⟨k, D, many, reached, holds⟩ := leads
  obtain ⟨less, rest⟩ := reached.run_of_run ended
  exact ⟨fuel - k, D, by omega, rest, holds⟩

/-- A program whose run ends evaluates to a head. -/
theorem evaluates {fuel : Nat} {p : Prog c} {fs : List (Scope c)}
    {C : Config (guest c layers s₀)} {out : World (guest c layers s₀) × Reply}
    (focus : Focus p fs C) (ended : Config.run fuel C = some out) :
    ∃ hd, Evaluates p hd := by
  induction fuel using Nat.strongRecOn generalizing p fs C with
  | _ fuel later =>
      -- What takes a step of the kernel is smaller; the parts of a program share its configuration.
      have next : ∀ {p : Prog c} {fs : List (Scope c)}, Leads 1 C (Focus p fs) →
          ∃ hd, Evaluates p hd := by
        intro p fs leads
        obtain ⟨fuel', D, less, ended', focus⟩ := run_less leads ended
        exact later fuel' (by omega) focus ended'
      induction p generalizing fs with
      | done r => exact ⟨_, 1, rfl⟩
      | plain s a =>
          cases acted : c.plain s a with
          | done r => exact ⟨_, 1, by simp only [Prog.eval, acted]; rfl⟩
          | perform e args s' => exact ⟨_, 1, by simp only [Prog.eval, acted]; rfl⟩
      | holding s a k _ =>
          have goes := focus.holding
          cases acted : c.holding s a with
          | act act =>
              cases act with
              | done r => exact ⟨_, 1, by simp only [Prog.eval, acted]; rfl⟩
              | perform e args s' => exact ⟨_, 1, by simp only [Prog.eval, acted]; rfl⟩
          | resume b s' =>
              rw [acted] at goes
              obtain ⟨hd, evaluated⟩ := next goes
              exact ⟨hd, (evaluates_resume acted hd).2 evaluated⟩
      | handle l p ih =>
          obtain ⟨hd, inner⟩ := ih focus.handled
          have arrives := arrives inner focus.handled
          cases hd with
          | done r =>
              cases r with
              | value v plain =>
                  obtain ⟨hd, evaluated⟩ := next (arrives.bind fun D arrived => arrived.returned)
                  exact ⟨hd, (evaluates_isDeep.value inner hd).2 evaluated⟩
              | failed x => exact ⟨_, evaluates_isDeep.failed inner⟩
          | perform e args k =>
              cases owner : l.clause? e with
              | none => exact ⟨_, evaluates_isDeep.unowned inner owner⟩
              | some j =>
                  obtain ⟨hd, evaluated⟩ :=
                    next (arrives.bind fun D arrived => arrived.performed owner)
                  exact ⟨hd, (evaluates_isDeep.owned inner owner hd).2 evaluated⟩
      | bind p s ih =>
          obtain ⟨hd, inner⟩ := ih focus.bound
          have arrives := arrives inner focus.bound
          cases hd with
          | done r =>
              obtain ⟨hd, evaluated⟩ := next (arrives.bind fun D arrived => arrived.resumed)
              exact ⟨hd, (evaluates_bind inner s hd).2 evaluated⟩
          | perform e args k => exact ⟨_, evaluates_bind_perform inner s⟩

end OneShot.Deep
