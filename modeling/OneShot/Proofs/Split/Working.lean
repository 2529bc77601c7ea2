import OneShot.Proofs.Split.Receiving

/-!
# Replies to machines

What two machines that go together make of a reply, while the generators or functions that
they run are well-behaved: a function does not raise a stop, and a generator that a machine
closes does not raise anything.
-/

namespace OneShot.Split

open Config (Reaches)
open List (Forall₂)
open Machine (Phase settle)

variable {c : Code} {J K : Joint} {w w' : World (guest c)} {S T : List (Activation (guest c))} {g h d e : Gen} {m m' : Nat}
  {tail : List Val} {v v' : Val} {x x' : Exc} {p q : Phase} {r r' : Reply}

/-- A function that a machine has called raises a stop, or a generator that it has closed raises something. -/
def unruly : Phase → Reply → Bool
  | .calling, .raised x => x.kind = .stopIteration
  | .discarding _, .raised _ => true
  | _, _ => false

/-- Machines end with what is no failure. -/
theorem Drives.raises (D : Drives J g m S h m' T tail) (W : Worlds J w w') (busy : Busy w S g) (alike : Alike J.names (.exc x) (.exc x'))
    (fatal : x.isException = false) :
    Meets J.lone (Machine.turned w g m S (w.store, .raise x)) (Machine.turned w' h m' T (w'.store, .raise x')) := by
  cases D with
  | joined pair runs runs' heard rest => exact (W.turned_raise rest (.generator pair) alike).meets
  | @split S T tail splits heard rest =>
      have there : J.place ≠ .absent := by simp [splits.live]
      have going : x.kind ≠ .stopIteration := by
        intro stop
        rw [Exc.isException, stop] at fatal
        contradiction
      have left : Machine.turned w J.seam.relay J.seam.inner
          (.running J.seam.nested (machine J.seam.outer (.advancing (.gen J.seam.relay))) :: S) (w.store, .raise x) =
          ⟨w.setStatus J.seam.relay .finished, .running J.seam.nested (machine J.seam.outer (.advancing (.gen J.seam.relay))) :: S,
            .reply (.raised x)⟩ := if_neg going
      have ended : Config.step (Machine.turned w J.seam.relay J.seam.inner
          (.running J.seam.nested (machine J.seam.outer (.advancing (.gen J.seam.relay))) :: S) (w.store, .raise x)) =
          .ok (Machine.turned (w.setStatus J.seam.relay .finished) J.seam.nested J.seam.outer S (w.store, .raise x)) := by
        rw [left]
        refine (Machine.step_activation _ _ _ _ _ _).trans ?_
        simp [Machine.step, going, Machine.broken, fatal, World.setStatus]
      have W₁ := W.setRelay .finished there (fun _ => busy.beneath List.mem_cons_self) (by simp [splits.live, Place.Holds])
        (by simp [splits.live])
      exact Meets.before (fun alone => there (W.lone alone)) (.one ended) (.refl _)
        (W₁.turned_raise rest (.generator splits.pair) alike).meets

/-- An exception that is raised in machines is delivered to their stacks, or ends them. -/
theorem Drives.fails (D : Drives J g m S h m' T tail) (W : Worlds J w w') (busy : Busy w S g) (busy' : Busy w' T h)
    (stands : J.Stands m m' tail) (alike : Alike J.names (.exc x) (.exc x')) (going : x.kind ≠ .stopIteration) :
    Meets J.lone (Machine.turned w g m S (Machine.fail w.store m x)) (Machine.turned w' h m' T (Machine.fail w'.store m' x')) := by
  unfold Machine.fail
  cases caught : x.isException with
  | true =>
      rw [if_pos rfl, if_pos (alike.isException ▸ caught)]
      exact D.settles W busy busy' stands (.failed alike) (.failed caught going)
  | false =>
      have fatal' : x'.isException = false := alike.isException ▸ caught
      rw [fatal', if_neg nofun, if_neg nofun]
      exact D.raises W busy alike caught

/-! ## Calls -/

theorem Drives.called (D : Drives J g m S h m' T tail) (W : Worlds J w w') (busy : Busy w S g) (busy' : Busy w' T h)
    (stands : J.Stands m m' tail) (alike : Alike J.names v v') :
    Meets J.lone (Machine.turned w g m S (Machine.step w.store m .calling (.value v)))
      (Machine.turned w' h m' T (Machine.step w'.store m' .calling (.value v'))) := by
  rcases alike.generator? with ⟨other, other'⟩ | ⟨d, e, rfl, rfl, pair⟩
  · simp only [Machine.step, other, other']
    exact D.settles W busy busy' stands (.ok alike) (.ok v)
  · obtain ⟨-, -, kind, kind'⟩ := W.fits.gen pair
    have found : (Val.gen d).generator? = some d := if_pos kind
    have found' : (Val.gen e).generator? = some e := if_pos kind'
    -- the generator that a clause has made goes on top
    let f := genFrame d w.store.freshTag.2
    let f' := genFrame e w'.store.freshTag.2
    let t := w.store.freshTag.1.setStack m (f :: w.store.stack m)
    let t' := w'.store.freshTag.1.setStack m' (f' :: w'.store.stack m')
    have set : Restacks w.store t m (f :: w.store.stack m) none := D.restacks W (u := w.store.freshTag.1) rfl _
    have set' : Restacks w'.store t' m' (f' :: w'.store.stack m') none := D.restacks' W (u := w'.store.freshTag.1) rfl _
    obtain ⟨W', D'⟩ := D.sets W busy busy' set set' (.stays rfl) .inl
    obtain ⟨gs, stack', spread⟩ := stands
    have tops : (J.on t t').Tops m m' tail := by
      refine ⟨f' :: gs, set'.sets.stack_eq.trans ?_, ?_⟩
      · rw [W.store', stack', List.cons_append]
      · show Topped _ _ _ (t.stack m) _
        rw [set.sets.stack_eq, W.store]
        exact .intro _ _ pair spread
    have settled := D'.settles_topped W' busy busy' tops (.ok .none)
    rw [turned_store, turned_store] at settled
    simp only [Machine.step, found, found']
    exact settled.meets

/-! ## Generators that have ended -/

theorem Drives.returned (D : Drives J g m S h m' T tail) (W : Worlds J w w') (busy : Busy w S g) (busy' : Busy w' T h)
    (tops : J.Tops m m' tail) (alike : Alike J.names v v') :
    Meets J.lone (Machine.turned w g m S (Machine.finished w.store m v)) (Machine.turned w' h m' T (Machine.finished w'.store m' v')) := by
  obtain ⟨t, t', popped, popped', W', D', stands⟩ := D.pops W busy busy' tops
  have settled := D'.settles W' busy busy' stands (.ok alike) (.ok v)
  rw [turned_store, turned_store] at settled
  rw [Machine.finished, popped, Machine.finished, popped']
  exact settled

theorem Drives.broken (D : Drives J g m S h m' T tail) (W : Worlds J w w') (busy : Busy w S g) (busy' : Busy w' T h)
    (tops : J.Tops m m' tail) (alike : Alike J.names (.exc x) (.exc x')) (going : x.kind ≠ .stopIteration) :
    Meets J.lone (Machine.turned w g m S (Machine.broken w.store m x)) (Machine.turned w' h m' T (Machine.broken w'.store m' x')) := by
  unfold Machine.broken
  cases caught : x.isException with
  | true =>
      rw [if_pos rfl, if_pos (alike.isException ▸ caught)]
      obtain ⟨t, t', popped, popped', W', D', stands⟩ := D.pops W busy busy' tops
      have failed := D'.fails W' busy busy' stands alike going
      rw [turned_store, turned_store] at failed
      rw [popped, popped']
      exact failed
  | false =>
      have fatal' : x'.isException = false := alike.isException ▸ caught
      rw [fatal', if_neg nofun, if_neg nofun]
      exact D.raises W busy alike caught

/-! ## Generators that are closed -/

theorem Drives.discarded (D : Drives J g m S h m' T tail) (W : Worlds J w w') (busy : Busy w S g) (busy' : Busy w' T h)
    (stands : J.Stands m m' tail) {op op' : Val} (alike : Alike J.names op op') :
    Meets J.lone (Machine.turned w g m S (Machine.step w.store m (.discarding op) (.value v)))
      (Machine.turned w' h m' T (Machine.step w'.store m' (.discarding op') (.value v'))) := by
  let made := w.store.invalidInvocationError op .none
  let made' := w'.store.invalidInvocationError op' .none
  have keeps := W.keeps_quiet made.1 made'.1 rfl rfl
  have error : Alike J.names (.exc made.2) (.exc made'.2) := .failure rfl nofun rfl rfl alike
  have settled := (D.stay keeps).settles (W.quiet made.1 made'.1 rfl rfl) busy busy'
    (stands.keep keeps D.runs.1 D.runs.2 id id) (.failed error) (.failed rfl nofun)
  rw [turned_store, turned_store] at settled
  exact settled

/-! ## Replies -/

/-- Machines that wait for what they have asked for get it. -/
theorem Drives.works (D : Drives J g m S h m' T tail) (W : Worlds J w w') (busy : Busy w S g) (busy' : Busy w' T h)
    (resident : Resident J m m' tail p q) (asks : p ≠ .start ∧ p ≠ .escaped) (reply : ReplyAlike J r r')
    (hears : ∀ v, r = .yielded v → Hears (.running g (machine m p) : Activation (guest c))) (ruly : unruly q r' = false) :
    Meets J.lone (Machine.turned w g m S (Machine.step w.store m p r)) (Machine.turned w' h m' T (Machine.step w'.store m' q r')) := by
  cases resident with
  | start stands => exact absurd rfl asks.1
  | escaped tops => exact absurd rfl asks.2
  | calling stands =>
      rcases reply.yields with ⟨v, v', rfl, rfl⟩ | ⟨v, v', rfl, rfl, alike⟩ | ⟨x, x', rfl, rfl, alike⟩
      · exact (hears v rfl).elim
      · exact D.called W busy busy' stands alike
      · exact D.fails W busy busy' stands alike fun stop => of_decide_eq_false ruly (alike.kind.symm.trans stop)
  | advancing pair tops =>
      rcases reply.yields with ⟨v, v', rfl, rfl⟩ | ⟨v, v', rfl, rfl, alike⟩ | ⟨x, x', rfl, rfl, alike⟩
      · exact D.receives W busy busy' tops pair reply
      · exact D.returned W busy busy' tops alike
      · by_cases stop : x.kind = .stopIteration
        · simp only [Machine.step, stop, alike.kind.symm.trans stop, if_true]
          exact D.returned W busy busy' tops (alike.stopValue stop)
        · have stop' : x'.kind ≠ .stopIteration := fun same => stop (alike.kind.trans same)
          simp only [Machine.step, if_neg stop, if_neg stop']
          exact D.broken W busy busy' tops alike stop
  | @discarding op op' same stands =>
      rcases reply.yields with ⟨v, v', rfl, rfl⟩ | ⟨v, v', rfl, rfl, alike⟩ | ⟨x, x', rfl, rfl, alike⟩
      · exact (hears v rfl).elim
      · exact D.discarded W busy busy' stands same
      · exact absurd ruly (by simp [unruly])

end OneShot.Split
