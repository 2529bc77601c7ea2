import OneShot.Proofs.Split.Working

/-!
# Machines that start, go on after an escape, or exit

What two machines, each with a generator of its own, make of the first thing that they are
told, of the reply to an escape, and of an exit: they close what they have.
-/

namespace OneShot.Split

open Config (Reaches)
open List (Forall₂)
open Machine (Phase settle)

variable {c : Code} {J K : Joint} {w w' : World (guest c)} {S T : List (Activation (guest c))} {g h : Gen} {m m' : Nat}
  {tail vs ws : List Val} {x x' : Exc} {r r' : Reply}

theorem start_own {s : Store} (own : s.Own) (inside : m < s.machines.size) : Machine.start s m = settle s m (.ok .none) := by
  obtain ⟨owner, there⟩ := own.machine inside
  simp only [Machine.start, there]

/-- Machines start with what they have. -/
theorem Drives.starts (D : Drives J g m S h m' T tail) (W : Worlds J w w') (busy : Busy w S g) (busy' : Busy w' T h)
    (stands : J.Stands m m' tail) :
    Meets J.lone (Machine.turned w g m S (Machine.start w.store m)) (Machine.turned w' h m' T (Machine.start w'.store m')) := by
  rw [start_own W.own (W.runs _ _ D.runs.1), start_own W.own' (W.runs' _ _ D.runs.2)]
  exact D.settles W busy busy' stands (.ok .none) (.ok .none)

/-! ## What machines close -/

theorem step_sweeping (w : World (guest c)) (g : Gen) (m : Nat) (vs : List Val) (x : Exc) (S : List (Activation (guest c))) (v : Val) :
    Config.step ⟨w, .running g (machine m (.closing vs x)) :: S, .reply (.value v)⟩ =
      .ok (Machine.turned w g m S (Machine.closeNext w.store x vs)) := by
  rw [show Config.step ⟨w, .running g (machine m (.closing vs x)) :: S, .reply (.value v)⟩ = _ from
    Machine.step_activation w g m (.closing vs x) S (.value v)]
  cases vs <;> rfl

/-- Machines close what is left, one after the other, and exit. -/
theorem Worlds.closesContents (contents : Contents J.names J.seam.relay (J.place = .lost) vs ws) (W : Worlds J w w')
    (layout : Stacks J S T) (heard : Heard S) (pair : J.names.gens g h) (runs : J.runs m = some g.id)
    (runs' : J.runs' m' = some h.id) (error : Alike J.names (.exc x) (.exc x')) :
    Meets J.lone (Machine.turned w g m S (Machine.closeNext w.store x vs))
      (Machine.turned w' h m' T (Machine.closeNext w'.store x' ws)) := by
  generalize same : J.names = N at contents
  generalize same' : J.seam.relay = n at contents
  generalize here : (J.place = .lost) = P at contents
  induction contents generalizing J w with
  | nil => exact (W.turned_raise layout (.generator pair) error).meets
  | @cons d e vs ws below rest ih =>
      subst same same' here
      exact (Corresponds.joint J W (layout.resumes heard pair (.closing runs runs' rest error)) (.close below)).meets
  | @relay vs ws allowed rest ih =>
      subst same same' here
      obtain ⟨n, w₁, reached, W₁, keeps⟩ := W.closes_relay allowed (.running g (machine m (.closing vs x)) :: S)
      refine Meets.before (fun alone => by simpa [allowed] using W.lone alone) (reached.trans (.one (step_sweeping w₁ g m vs x S _)))
        (.refl _) ?_
      exact ih (J := J.on w₁.store w'.store) W₁ (layout.keep keeps fun _ _ => id) pair runs runs' error rfl rfl rfl

/-- Machines that have passed an escape on are told to exit. -/
theorem Drives.exits (D : Drives J g m S h m' T []) (W : Worlds J w w') (busy : Busy w S g) (busy' : Busy w' T h)
    (pair : J.names.gens g h) (heard : Heard S) (tops : J.Tops m m' []) (error : Alike J.names (.exc x) (.exc x')) :
    Meets J.lone (Machine.turned w g m S (Machine.closeNext w.store x ((w.store.stack m).filterMap Val.framed?)))
      (Machine.turned w' h m' T (Machine.closeNext w'.store x' ((w'.store.stack m').filterMap Val.framed?))) := by
  obtain ⟨gs, stack', topped⟩ := tops
  -- where the relay is on the stack, it is about to be closed
  obtain ⟨P, here, stays, moves⟩ : ∃ P, (J.place = .stack m → P = .lost) ∧ (J.place = .live → P = .live) ∧
      J.Moves (J.turns g) w.store P := by
    by_cases stack : J.place = .stack m
    · refine ⟨.lost, fun _ => rfl, fun live => absurd (stack.symm.trans live) nofun,
        .leaves (by simp [stack, Place.Holds]) (.inr rfl) (fun n i ran found => .inl ?_) (by simp [stack]) (by simp [stack])⟩
      cases stack.symm.trans found
      exact Option.some.inj (ran.symm.trans D.runs.1)
    · exact ⟨J.place, fun found => absurd found stack, id, .stays rfl⟩
  obtain ⟨W', D'⟩ := D.sets W busy busy' (.refl W.own m) (.refl W.own' m') moves fun live => .inl (stays live)
  have contents : Contents J.names J.seam.relay (P = .lost) ((w.store.stack m).filterMap Val.framed?)
      ((w'.store.stack m').filterMap Val.framed?) := by
    rw [W.store, W.store', stack', List.append_nil]
    exact topped.spread.contents.mono (le_refl _) here
  exact Worlds.closesContents (J := J.after P J.names w.store w'.store) contents W' (D'.layout W' pair) heard pair D.runs.1
    D.runs.2 error

/-! ## Replies -/

/-- Machines that have passed an escape on get a reply to it. -/
theorem Drives.resumes (D : Drives J g m S h m' T []) (W : Worlds J w w') (busy : Busy w S g) (busy' : Busy w' T h)
    (pair : J.names.gens g h) (heard : Heard S) (tops : J.Tops m m' []) (reply : ReplyAlike J r r') (silent : ∀ v, r ≠ .yielded v) :
    Meets J.lone (Machine.turned w g m S (Machine.step w.store m .escaped r))
      (Machine.turned w' h m' T (Machine.step w'.store m' .escaped r')) := by
  rcases reply.yields with ⟨v, v', rfl, rfl⟩ | ⟨v, v', rfl, rfl, alike⟩ | ⟨x, x', rfl, rfl, alike⟩
  · exact absurd rfl (silent v)
  · exact (D.settles_topped W busy busy' tops (.ok alike)).meets
  · simp only [Machine.step, alike.kind]
    split
    · exact D.exits W busy busy' pair heard tops alike
    · unfold Machine.fail
      rw [alike.isException]
      split
      · exact (D.settles_topped W busy busy' tops (.failed alike)).meets
      · exact (W.turned_raise (D.layout W pair) (.generator pair) alike).meets

/-- Machines that have resent everything get a reply. -/
theorem Drives.spent (D : Drives J g m S h m' T tail) (W : Worlds J w w') (busy : Busy w S g) (busy' : Busy w' T h)
    (pair : J.names.gens g h) (empty : J.store.stack m = []) (empty' : J.store'.stack m' = []) (reply : ReplyAlike J r r')
    (silent : ∀ v, r ≠ .yielded v) :
    Corresponds J.lone (Machine.turned w g m S (Machine.step w.store m .resent r))
      (Machine.turned w' h m' T (Machine.step w'.store m' .resent r')) := by
  have ends {o o' : Outcome} (alike : OutcomeAlike J.names o o') :
      Corresponds J.lone (Machine.turned w g m S (settle w.store m o)) (Machine.turned w' h m' T (settle w'.store m' o')) := by
    refine D.ends W busy busy' pair alike ?_ ?_
    · rw [W.store, empty]
      rfl
    · rw [W.store', empty']
      rfl
  rcases reply.yields with ⟨v, v', rfl, rfl⟩ | ⟨v, v', rfl, rfl, alike⟩ | ⟨x, x', rfl, rfl, alike⟩
  · exact absurd rfl (silent v)
  · exact ends (.ok alike)
  · simp only [Machine.step, Machine.fail, alike.isException]
    split
    · exact ends (.failed alike)
    · exact W.turned_raise (D.layout W pair) (.generator pair) alike

/-- Machines, each with a generator of its own, get a reply. -/
theorem Worlds.works (W : Worlds J w w') (layout : Stacks J S T) (heard : Heard S) (busy : Busy w S g) (busy' : Busy w' T h)
    (pair : J.names.gens g h) {p q : Phase} (alike : RoutineAlike (c := c) J g.id h.id (machine m p) (machine m' q))
    (reply : ReplyAlike J r r') (hears : ∀ v, r = .yielded v → Hears (.running g (machine m p) : Activation (guest c)))
    (ruly : unruly q r' = false) :
    Meets J.lone (Machine.turned w g m S (Machine.step w.store m p r)) (Machine.turned w' h m' T (Machine.step w'.store m' q r')) := by
  have quiet (deaf : ¬Hears (.running g (machine m p) : Activation (guest c))) (v : Val) : r ≠ .yielded v :=
    fun same => deaf (hears v same)
  cases alike with
  | plain alike => cases alike
  | machine runs runs' resident =>
      have D : Drives J g m S h m' T [] := .joined pair runs runs' heard layout
      cases resident with
      | start stands =>
          rcases reply.yields with ⟨v, v', rfl, rfl⟩ | ⟨v, v', rfl, rfl, alike⟩ | ⟨x, x', rfl, rfl, alike⟩
          · exact absurd rfl (quiet id v)
          · exact D.starts W busy busy' stands
          · exact (W.turned_raise layout (.generator pair) alike).meets
      | escaped tops => exact D.resumes W busy busy' pair heard tops reply (quiet id)
      | calling stands => exact D.works W busy busy' (.calling stands) ⟨nofun, nofun⟩ reply hears ruly
      | advancing below tops => exact D.works W busy busy' (.advancing below tops) ⟨nofun, nofun⟩ reply hears ruly
      | discarding op stands => exact D.works W busy busy' (.discarding op stands) ⟨nofun, nofun⟩ reply hears ruly
  | resent runs runs' empty empty' =>
      have D : Drives J g m S h m' T [] := .joined pair runs runs' heard layout
      exact (D.spent W busy busy' pair empty empty' reply (quiet id)).meets
  | closing runs runs' contents error =>
      rcases reply.yields with ⟨v, v', rfl, rfl⟩ | ⟨v, v', rfl, rfl, alike⟩ | ⟨x, x', rfl, rfl, alike⟩
      · exact absurd rfl (quiet id v)
      · exact W.closesContents contents layout heard pair runs runs' error
      · exact (W.turned_raise layout (.generator pair) alike).meets

end OneShot.Split
