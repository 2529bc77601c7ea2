import OneShot.Proofs.Beneath
import OneShot.Proofs.Frames.Refusing
import OneShot.Proofs.Frames.Spacing
import OneShot.Proofs.Frames.Unwinding

/-!
# Sweeping

What is in the frames of a continuation, or on the stack of a machine that is being closed,
is closed one after the other, the topmost generator first.  Each of them ends, unless it
yields again; but the first one that fails puts an end to the sweep, and what is below it
is not closed.
-/

namespace OneShot

variable {G : Guest} {w u v w' : World G} {B : List (Activation G)} {C : Config G} {g : Gen} {gs reached : List Gen}
  {r : Reply} {o : Option Exc} {fuel : Nat}

/-- Nothing is a kind of stop but a stop. -/
theorem Kind.eq_stopIteration {k : Kind} (stop : k.isA .stopIteration = true) : k = .stopIteration := by
  revert stop
  cases k <;> decide

/-! ## Runs on top of something -/

namespace Config

/-- What runs on top of something comes to its own end first. -/
theorem run_below {a : Activation G} {out : World G × Reply} (ended : run fuel (C.above (a :: B)) = some out) :
    ∃ fuel₁ w r fuel₂, run fuel₁ C = some (w, r) ∧ run fuel₂ ⟨w, a :: B, .reply r⟩ = some out := by
  induction fuel generalizing C with
  | zero => contradiction
  | succ fuel ih =>
      cases stepped : C.step with
      | ok D =>
          simp only [run, step_above stepped] at ended
          obtain ⟨fuel₁, w, r, fuel₂, first, rest⟩ := ih ended
          exact ⟨fuel₁ + 1, w, r, fuel₂, by simp only [run, stepped, first], rest⟩
      | error last =>
          obtain ⟨w, A, signal⟩ := C
          cases signal with
          | reply r =>
              cases A with
              | nil =>
                  cases stepped
                  exact ⟨1, w, r, fuel + 1, rfl, ended⟩
              | cons b A => cases stepped
          | call f args caller => rw [step_call'] at stepped; cases stepped
          | advance g' i => rw [step_advance'] at stepped; cases stepped
          | close g' => rw [step_close'] at stepped; cases stepped

theorem run_ended {out : World G × Reply} (ended : run fuel ⟨w, [], .reply r⟩ = some out) : out = (w, r) := by
  cases fuel with
  | zero => contradiction
  | succ fuel => exact (Option.some.inj ended).symm

/-- The first step of a run that ends. -/
theorem run_first {c d : Config G} {out : World G × Reply} (ended : run fuel c = some out) (stepped : c.step = .ok d) :
    ∃ fuel', run fuel' d = some out := by
  cases fuel with
  | zero => contradiction
  | succ fuel =>
      simp only [run, stepped] at ended
      exact ⟨fuel, ended⟩

theorem Active.reaches {n : Nat} {c d : Config G} (active : c.Active) (reached : Reaches n c d) : d.Active := by
  induction reached with
  | refl c => exact active
  | step first _ ih => exact ih (active.step (moves_step first))

theorem Active.finished {n : Nat} {c d : Config G} (active : c.Active) (reached : Reaches n c d) {i : Nat}
    (there : c.world.gens[i]? = some .finished) : d.world.gens[i]? = some .finished := by
  induction reached with
  | refl c => exact there
  | step first _ ih =>
      have moves := moves_step first
      exact ih (active.step moves) (moves.finished active there)

theorem Reaches.size_gens {n : Nat} {c d : Config G} (reached : Reaches n c d) :
    c.world.gens.size ≤ d.world.gens.size := by
  induction reached with
  | refl c => exact Nat.le_refl _
  | step first _ ih => exact Nat.le_trans (moves_step first).size_gens ih

/-- A body that runs on its own yields, or it comes to its end. -/
theorem run_body {b : Activation G} {A : List (Activation G)} (body : b.active? = some g)
    (stack : C.stack = A ++ [b]) (ended : run fuel C = some (w', r)) :
    (∃ v, r = .yielded v) ∨ w'.status g = .finished ∧ r.Final := by
  induction fuel generalizing C A b with
  | zero => contradiction
  | succ fuel ih =>
      cases stepped : C.step with
      | error last =>
          obtain ⟨w, S, signal⟩ := C
          cases stack
          cases signal <;> cases A <;> cases stepped
      | ok D =>
          simp only [run, stepped] at ended
          have moves := moves_step stepped
          by_cases bottom : A = [] ∧ ∃ r, C.signal = .reply r
          · obtain ⟨rfl, r', signal⟩ := bottom
            obtain ⟨w, S, _⟩ := C
            cases signal
            cases stack
            have going {b' : Activation G} {u : World G} {signal : Signal} (after : D = ⟨u, [b'], signal⟩)
                (same : b'.active? = some g) : (∃ v, r = .yielded v) ∨ w'.status g = .finished ∧ r.Final :=
              ih (A := []) same (by rw [after]; rfl) ended
            cases moves with
            | @goes w v seat p p' r turn store signal stack stepped answer =>
                cases seat with
                | none => cases body
                | some h => exact going rfl body
            | delegates stepped passes =>
                exact going rfl body
            | regains | leaves =>
                exact going rfl body
            | suspends stepped =>
                cases run_ended ended
                exact .inl ⟨_, rfl⟩
            | hands v =>
                cases run_ended ended
                exact .inl ⟨_, rfl⟩
            | ends stepped ending quiet final =>
                cases body
                cases run_ended ended
                exact .inr ⟨World.status_setStatus_finished _ _, final⟩
            | returns | closes =>
                cases body
          · have suffix : [b] <:+ D.stack := by
              by_cases empty : A = []
              · subst empty
                have whole := moves.suffix.2 fun r signal => bottom ⟨rfl, r, signal⟩
                rwa [stack] at whole
              · obtain ⟨a, A', rfl⟩ := List.exists_cons_of_ne_nil empty
                have tail := moves.suffix.1
                rw [stack] at tail
                exact (List.suffix_append A' [b]).trans tail
            obtain ⟨A', split⟩ := suffix
            exact ih body split.symm ended

end Config

/-! ## Closing one generator -/

namespace World

/-- Closing `g` in the world `w` comes to an end in `w'`. -/
def Closes (w : World G) (g : Gen) (w' : World G) (r : Reply) : Prop :=
  ∃ fuel, Config.run fuel ⟨w, [], .close g⟩ = some (w', r)

/-- How it comes out to close a generator. -/
inductive Closed (w : World G) (g : Gen) (w' : World G) : Reply → Prop
  | quiet (finished : w'.status g = .finished) : Closed w g w' (.value .none)
  | fails (x : Exc) (finished : w'.status g = .finished) : Closed w g w' (.raised x)
  /-- It yields again. -/
  | ignores (s : Store) : Closed w g w' (.raised (s.fault (.ignoredExit g.kind)).2)
  | refused (s : Store) (status : w.status g = .running) : Closed w g w' (.raised (s.fault (.executing g.kind)).2)

theorem Closes.closed (closes : w.Closes g w' r) : Closed w g w' r := by
  obtain ⟨fuel, ended⟩ := closes
  -- what comes of an exit that was raised in a body
  have interrupted {fuel : Nat} {u : World G} {b : Activation G} {signal : Signal} (body : b.active? = some g)
      (ended : Config.run fuel (Config.above ⟨u, [b], signal⟩ [.closing g]) = some (w', r)) : Closed w g w' r := by
    obtain ⟨fuel₁, v, r', fuel₂, first, rest⟩ := Config.run_below ended
    have outcome := Config.run_body (A := []) body rfl first
    cases r' with
    | yielded y =>
        obtain ⟨fuel₃, last⟩ := Config.run_first rest rfl
        cases Config.run_ended last
        exact .ignores v.store
    | value y =>
        obtain ⟨fuel₃, last⟩ := Config.run_first rest rfl
        cases Config.run_ended last
        obtain ⟨_, same⟩ | ⟨finished, -⟩ := outcome
        · cases same
        · exact .quiet finished
    | raised x =>
        obtain ⟨fuel₃, last⟩ := Config.run_first rest rfl
        obtain ⟨_, same⟩ | ⟨finished, -⟩ := outcome
        · cases same
        · simp only [Config.deliver] at last
          split at last
          · cases Config.run_ended last
            exact .quiet finished
          · cases Config.run_ended last
            exact .fails x finished
  obtain ⟨fuel', last⟩ := Config.run_first ended rfl
  unfold Config.close at last
  split at last
  · rename_i status
    cases Config.run_ended last
    exact .refused w.store status
  · rename_i status
    cases Config.run_ended last
    exact .quiet status
  · cases Config.run_ended last
    exact .quiet (World.status_setStatus_finished w g)
  · exact interrupted (b := .running g _) rfl last
  · exact interrupted (b := .exiting g _ _) rfl last

/-- Closing ends with a reply, and what waits beneath is the same. -/
theorem Closes.reaches (closes : w.Closes g w' r) (B : List (Activation G)) :
    ∃ n, Config.Reaches n ⟨w, B, .close g⟩ ⟨w', B, .reply r⟩ := by
  obtain ⟨fuel, ended⟩ := closes
  exact Config.run_above ended

end World

/-! ## Closing one after the other -/

/--
Generators are closed one after the other, each by itself, up to the first that fails:
those that it comes to, and what the last one fails with.
-/
inductive Sweeps : World G → List Gen → List Gen → World G → Option Exc → Prop
  | done (w : World G) : Sweeps w [] [] w none
  | next {w u w' : World G} {g : Gen} {gs reached : List Gen} {v : Val} {o : Option Exc}
      (closes : w.Closes g u (.value v)) (rest : Sweeps u gs reached w' o) :
      Sweeps w (g :: gs) (g :: reached) w' o
  | fails {w w' : World G} {g : Gen} {gs : List Gen} {x : Exc} (closes : w.Closes g w' (.raised x)) :
      Sweeps w (g :: gs) [g] w' (some x)

/-- Whether a generator has not started, or is suspended. -/
def Status.idle : Status G → Bool
  | .fresh _ | .suspended .. | .delegating .. => true
  | .running | .finished => false

def World.Idle (w : World G) (g : Gen) : Prop := (w.status g).idle = true

namespace Sweeps

theorem prefixed (sweeps : Sweeps w gs reached w' o) : reached <+: gs := by
  induction sweeps with
  | done w => exact List.prefix_rfl
  | next closes rest ih => exact (List.prefix_cons_inj _).2 ih
  | fails closes => exact (List.prefix_cons_inj _).2 (List.nil_prefix)

/-- If nothing fails, all are closed. -/
theorem whole (sweeps : Sweeps w gs reached w' none) : reached = gs := by
  generalize quiet : (none : Option Exc) = o at sweeps
  induction sweeps with
  | done w => rfl
  | next closes rest ih => rw [ih quiet]
  | fails closes => cases quiet

section

variable (running : Running w.gens (active B))

include running

theorem running_closes (closes : w.Closes g u r) : Running u.gens (active B) := by
  obtain ⟨n, reached⟩ := closes.reaches B
  have here : Config.Active (⟨w, B, .close g⟩ : Config G) := running
  exact here.reaches reached

omit running in
theorem size_closes (closes : w.Closes g u r) : w.gens.size ≤ u.gens.size := by
  obtain ⟨n, reached⟩ := closes.reaches []
  exact reached.size_gens

/-- What has ended is not touched by closing something else. -/
theorem finished_closes (closes : w.Closes g u r) {i : Nat} (there : w.gens[i]? = some .finished) :
    u.gens[i]? = some .finished := by
  obtain ⟨n, reached⟩ := closes.reaches B
  have here : Config.Active (⟨w, B, .close g⟩ : Config G) := running
  exact here.finished reached there

/-- What has ended stays so. -/
theorem finished (sweeps : Sweeps w gs reached w' o) {i : Nat} (there : w.gens[i]? = some .finished) :
    w'.gens[i]? = some .finished := by
  induction sweeps with
  | done w => exact there
  | next closes rest ih => exact ih (running_closes running closes) (finished_closes running closes there)
  | fails closes => exact finished_closes running closes there

/-- What a sweep comes to has ended after it, unless the last one has yielded again. -/
theorem settled (sweeps : Sweeps w gs reached w' o)
    (idle : ∀ g ∈ gs, g.id < w.gens.size ∧ g.id ∉ active B) :
    ∀ g ∈ reached, w'.status g = .finished ∨ ∃ s : Store, o = some (s.fault (.ignoredExit g.kind)).2 := by
  induction sweeps with
  | done w => simp
  | @next w u w' g gs reached v o closes rest ih =>
      have running' := running_closes running closes
      have bigger := size_closes closes
      refine List.forall_mem_cons.2 ⟨.inl ?_, ih running' fun h mem => ?_⟩
      · cases closes.closed with
        | quiet ended =>
            have inside := Nat.lt_of_lt_of_le (idle g List.mem_cons_self).1 bigger
            have there : u.gens[g.id]? = some .finished := by
              have now := Array.getElem?_eq_getElem inside
              rw [now, ← World.status_of now, ended]
            exact World.status_of (finished running' rest there)
      · obtain ⟨inside, apart⟩ := idle h (List.mem_cons_of_mem _ mem)
        exact ⟨Nat.lt_of_lt_of_le inside bigger, apart⟩
  | @fails w w' g gs x closes =>
      intro h mem
      obtain rfl := List.mem_singleton.1 mem
      generalize failed : Reply.raised x = r at closes
      cases closes.closed with
      | quiet ended => exact .inl ended
      | fails x ended => exact .inl ended
      | ignores s =>
          cases failed
          exact .inr ⟨s, rfl⟩
      | refused s status =>
          obtain ⟨inside, apart⟩ := idle h List.mem_cons_self
          have there := World.getElem?_of_status status (by simp)
          exact absurd ((running.running h.id).1 there) apart

end

end Sweeps

/-! ## Loops that close -/

/-- A loop that closes generators goes as far as it can. -/
theorem Config.sweeps_of_run {a : List Val → Activation G} {out : World G × Reply} {y : Val}
    (next : ∀ (w : World G) g rest v, step ⟨w, a (.gen g :: rest) :: B, .reply (.value v)⟩ =
      .ok ⟨w, a rest :: B, .close g⟩)
    (ended : run fuel ⟨w, a (gs.map .gen) :: B, .reply (.value y)⟩ = some out) :
    ∃ reached rest u o fuel' v, Sweeps w gs reached u o ∧ (o = none → rest = []) ∧
      run fuel' ⟨u, a rest :: B, .reply (o.elim (.value v) .raised)⟩ = some out := by
  induction gs generalizing w fuel y with
  | nil => exact ⟨[], [], w, none, fuel, y, .done w, fun _ => rfl, ended⟩
  | cons g gs ih =>
      obtain ⟨fuel', rest⟩ := run_first ended (next w g (gs.map .gen) y)
      obtain ⟨fuel₁, u, r, fuel₂, first, rest⟩ := run_below (C := ⟨w, [], .close g⟩) rest
      have closes : w.Closes g u r := ⟨fuel₁, first⟩
      cases r with
      | yielded v => cases closes.closed
      | value v =>
          obtain ⟨reached, left, u', o, fuel', v', sweeps, quiet, last⟩ := ih rest
          exact ⟨g :: reached, left, u', o, fuel', v', .next closes sweeps, quiet, last⟩
      | raised x =>
          exact ⟨[g], gs.map .gen, u, some x, fuel₂, .none, .fails closes, by simp, rest⟩

/--
The ways to close what is in frames: those in a list, those of a continuation, and those on
the stack of a machine that is closed while it waits at an escape.  What is closed, and the
world in which that begins.
-/
inductive Sweeper (w : World G) (gs : List Gen) : Config G → World G → Prop
  | frames (l : Nat) (caller : Caller)
      (contents : (w.store.list l).toList.reverse.filterMap Val.framed? = gs.map .gen) :
      Sweeper w gs ⟨w, [], .call (.native (.service .closeFrames)) [.list l] caller⟩ w
  | continuation (k : Cont) (caller : Caller)
      (contents : (w.store.frames k).filterMap Val.framed? = gs.map .gen) :
      Sweeper w gs ⟨w, [], .call (.native (.service .close)) [.cont k] caller⟩ w
  | machine {g : Gen} {m : Nat} (status : w.status g = .suspended (.library (.machine m .escaped)) .direct)
      (contents : (w.store.stack m).filterMap Val.framed? = gs.map .gen) :
      Sweeper w gs ⟨w, [], .close g⟩
        (World.setStatus { w with store := (w.store.newException .generatorExit [] .plain).1 } g .running)

/--
What has become of generators that are to be closed, and what comes of it.  They were closed
one after the other, each by itself, and have ended then, but the last one may have yielded
again.  If nothing has failed these are all; the first failure is raised, and was the last.
-/
inductive Swept (u : World G) (gs : List Gen) (w' : World G) (r : Reply) : Prop
  | intro {reached : List Gen} {v : World G} {o : Option Exc} (sweeps : Sweeps u gs reached v o)
      (prefixed : reached <+: gs) (quiet : o = none → reached = gs ∧ r = .value .none)
      (loud : ∀ x, o = some x → x.isException = true → x.kind ≠ .stopIteration → r = .raised x)
      (ended : ∀ g ∈ reached, w'.status g = .finished ∨
        ∃ s : Store, o = some (s.fault (.ignoredExit g.kind)).2)

namespace Sweeper

variable {out : World G × Reply}

theorem of_closing {y : Val} (ended : Config.run fuel
    ⟨w, [.calling (.library (.closing (gs.map .gen)))], .reply (.value y)⟩ = some out) :
    ∃ reached u o, Sweeps w gs reached u o ∧ out = (u, o.elim (.value .none) .raised) := by
  obtain ⟨reached, rest, u, o, fuel', v, sweeps, quiet, last⟩ :=
    Config.sweeps_of_run (a := fun rest => .calling (.library (.closing rest))) (fun _ _ _ _ => rfl) ended
  refine ⟨reached, u, o, sweeps, ?_⟩
  cases o with
  | none =>
      obtain rfl := quiet rfl
      obtain ⟨fuel', last⟩ := Config.run_first last rfl
      exact Config.run_ended last
  | some x =>
      obtain ⟨fuel', last⟩ := Config.run_first last rfl
      exact Config.run_ended last

theorem of_machine {m : Nat} {x : Exc} {y : Val} (exit : x.kind = .generatorExit)
    (ended : Config.run fuel ⟨w, .running g (.library (.machine m (.closing (gs.map .gen) x))) :: [.closing g],
      .reply (.value y)⟩ = some out) :
    ∃ reached u o, Sweeps w gs reached u o ∧ out.1.gens = (u.setStatus g .finished).gens ∧
      (o = none → out.2 = .value .none) ∧
      ∀ z, o = some z → z.isException = true → z.kind ≠ .stopIteration → out.2 = .raised z := by
  obtain ⟨reached, rest, u, o, fuel', v, sweeps, quiet, last⟩ :=
    Config.sweeps_of_run (a := fun rest => .running g (.library (.machine m (.closing rest x))))
      (fun _ _ _ _ => rfl) ended
  refine ⟨reached, u, o, sweeps, ?_⟩
  -- the machine raises what is left to raise, and that comes to what closes it
  have raises {z : Exc} {fuel : Nat} (ended : Config.run fuel (Config.leave u [.closing g] g z) = some out) :
      out.1.gens = (u.setStatus g .finished).gens ∧ (z.kind = .generatorExit → out.2 = .value .none) ∧
        (z.isException = true → z.kind ≠ .stopIteration → out.2 = .raised z) := by
    unfold Config.leave at ended
    dsimp only at ended
    split at ended
    · rename_i stop
      obtain ⟨fuel', last⟩ := Config.run_first ended rfl
      cases Config.run_ended last
      refine ⟨rfl, fun exit => ?_, fun _ other => absurd stop other⟩
      rw [exit] at stop
      cases stop
    · rename_i going
      obtain ⟨fuel', last⟩ := Config.run_first ended rfl
      simp only [Config.deliver] at last
      split at last
      · rename_i quiet
        cases Config.run_ended last
        refine ⟨rfl, fun _ => rfl, fun exception other => ?_⟩
        rcases Bool.or_eq_true_iff.1 quiet with exit | stop
        · rw [Exc.no_exception_of_exit exit] at exception
          cases exception
        · exact absurd (Kind.eq_stopIteration stop) other
      · rename_i loud
        cases Config.run_ended last
        refine ⟨rfl, fun exit => ?_, fun _ _ => rfl⟩
        rw [exit] at loud
        exact absurd rfl loud
  cases o with
  | none =>
      obtain rfl := quiet rfl
      obtain ⟨fuel', last⟩ := Config.run_first last rfl
      obtain ⟨gens, silent, -⟩ := raises last
      exact ⟨gens, fun _ => silent exit, by simp⟩
  | some z =>
      obtain ⟨fuel', last⟩ := Config.run_first last rfl
      obtain ⟨gens, -, loud⟩ := raises last
      exact ⟨gens, by simp, fun z' same => by cases same; exact loud⟩

/-- What is closed is closed from the top down, and up to the first failure. -/
theorem swept (sweeper : Sweeper w gs C u) (running : Running u.gens (active B)) (idle : ∀ g ∈ gs, u.Idle g)
    (ended : Config.run fuel C = some (w', r)) : Swept u gs w' r := by
  have rests : ∀ g ∈ gs, g.id < u.gens.size ∧ g.id ∉ active B := by
    intro g mem
    have still : (u.status g).idle = true := idle g mem
    have begun : u.status g ≠ .finished := fun ended => by simp [ended, Status.idle] at still
    have there := World.getElem?_of_status rfl begun
    refine ⟨(Array.getElem?_eq_some_iff.1 there).1, fun here => ?_⟩
    simp [World.status_of ((running.running g.id).2 here), Status.idle] at still
  have swept {reached : List Gen} {v : World G} {o : Option Exc} (sweeps : Sweeps u gs reached v o)
      (kept : ∀ g, v.status g = .finished → w'.status g = .finished) (quiet : o = none → r = .value .none)
      (loud : ∀ x, o = some x → x.isException = true → x.kind ≠ .stopIteration → r = .raised x) :
      Swept u gs w' r := by
    refine .intro sweeps sweeps.prefixed (fun none => ⟨?_, quiet none⟩) loud fun g mem => ?_
    · subst none
      exact sweeps.whole
    · exact (sweeps.settled running rests g mem).imp_left (kept g)
  have plain {y : Val} {fuel : Nat} (ended : Config.run fuel
      ⟨u, [.calling (.library (.closing (gs.map .gen)))], .reply (.value y)⟩ = some (w', r)) : Swept u gs w' r := by
    obtain ⟨reached, v, o, sweeps, same⟩ := of_closing ended
    cases same
    exact swept sweeps (fun _ => id) (fun none => by rw [none]; rfl) fun x raised _ _ => by rw [raised]; rfl
  cases sweeper with
  | frames l caller contents =>
      obtain ⟨fuel', rest⟩ := Config.run_first ended rfl
      -- the elements are there at once, and are closed like those of a continuation
      have begun : Config.run fuel' ⟨w, [.calling (.library
          (.closing ((w.store.list l).toList.reverse.filterMap Val.framed?)))], .reply (.value .none)⟩ =
          some (w', r) := by
        rw [← rest]
        cases fuel' <;> rfl
      rw [contents] at begun
      exact plain begun
  | continuation k caller contents =>
      obtain ⟨fuel', rest⟩ := Config.run_first ended rfl
      have begun : Config.run fuel' ⟨w, [.calling (.library
          (.closing ((w.store.frames k).filterMap Val.framed?)))], .reply (.value .none)⟩ = some (w', r) := rest
      rw [contents] at begun
      exact plain begun
  | @machine g m status contents =>
      obtain ⟨fuel', rest⟩ := Config.run_first ended rfl
      simp only [Config.close, status] at rest
      let x := (w.store.newException .generatorExit [] .plain).2
      -- the first turn of the machine is like those in which it has closed something
      have begun : Config.run fuel' ⟨World.setStatus { w with store := (w.store.newException .generatorExit [] .plain).1 } g .running,
          .running g (.library (.machine m (.closing ((w.store.stack m).filterMap Val.framed?) x))) ::
            [.closing g], .reply (.value .none)⟩ = some (w', r) := by
        rw [← rest]
        cases fuel' <;> rfl
      rw [contents] at begun
      obtain ⟨reached, v, o, sweeps, gens, quiet, loud⟩ := of_machine rfl begun
      refine swept sweeps (fun h finished => ?_) quiet loud
      have same : w'.status h = (v.setStatus g .finished).status h := by rw [World.status, World.status, gens]
      rw [same]
      by_cases here : h.id = g.id
      · rw [World.status_congr _ here]
        exact World.status_setStatus_finished v g
      · rw [World.status_setStatus_of_ne here, finished]

end Sweeper

/-! ## A failure on the way -/

namespace Script

/--
A program that closes a continuation with two generators in its frames: a computation that
fails when it is closed, and below it the clause that has resumed it, which has cleaning up to
do then.  It returns whether that was done.
-/
def failingSweep : Function :=
  ⟨.plain, "main", [], ["ask", "tell", "kept", "cleaned", "body"], [
    .assign "ask" (uses (.op .effect) []),
    .assign "tell" (uses (.op .effect) []),
    .assign "kept" (uses (.op .cell) [.literal .none]),
    .assign "cleaned" (uses (.op .cell) [.literal (.bool false)]),
    .assign "body" (.function ⟨.generator, "body", [], [], [
      .expr (.yield (.call (.name "ask") [])),
      .attempt [.expr (.yield (.call (.name "tell") []))] []
        [.throw (uses (.op (.exception .value)) [])]]⟩),
    .expr (uses (.service .execute) [.function ⟨.plain, "outer", [], [], [
      .result (uses (.service .handle) [
        uses (.op .handler) [.name "tell", .literal .none,
          .function ⟨.plain, "keep", ["k"], [], [
            .expr (uses (.op .cellPut) [.name "kept", .name "k"])]⟩],
        .function ⟨.plain, "inner", [], [], [
          .result (uses (.service .handle) [
            uses (.op .handler) [.name "ask", .literal .none,
              .function ⟨.generator, "clause", ["k"], [], [
                .attempt [.result (.delegate (.call (.name "k") [.literal (.int 1)]))] []
                  [.expr (uses (.op .cellPut) [.name "cleaned", .literal (.bool true)])]]⟩],
            .name "body"])]⟩])]⟩]),
    .attempt [.expr (uses (.service .close) [uses (.op .cellGet) [.name "kept"]])]
      [⟨.value, "x", []⟩] [],
    .result (uses (.op .cellGet) [.name "cleaned"])]⟩

end Script

open Script

/-- Whether a value is a generator that is idle. -/
def Val.idle (w : World G) : Val → Bool
  | .gen g => (w.status g).idle
  | _ => false

theorem Val.gens_of_all {vs : List Val} (all : vs.all (Val.idle w) = true) :
    ∃ gs : List Gen, vs = gs.map .gen ∧ ∀ g ∈ gs, w.Idle g := by
  induction vs with
  | nil => exact ⟨[], rfl, by simp⟩
  | cons v vs ih =>
      simp only [List.all_cons, Bool.and_eq_true] at all
      obtain ⟨gs, rfl, idle⟩ := ih all.2
      cases v with
      | gen g => exact ⟨g :: gs, rfl, List.forall_mem_cons.2 ⟨all.1, idle⟩⟩
      | _ => cases all.1

/-- The next step closes the frames of a continuation; a clean-up of the program fails, and something is left idle. -/
def Config.sweepFails (fuel : Nat) (c : Config G) : Bool :=
  match c.signal with
  | .call (.native (.service .close)) [.cont k] _ =>
      let contents := (c.world.store.frames k).filterMap Val.framed?
      contents.all (Val.idle c.world) &&
        match Config.run fuel ⟨c.world, [], c.signal⟩ with
        | some (w', .raised x) => x.kind == .value && contents.any (Val.idle w')
        | _ => false
  | _ => false

theorem exists_sweepFails : ∃ (w w' : World language) (gs : List Gen) (C : Config language)
    (B : List (Activation language)) (fuel : Nat) (x : Exc), Sweeper w gs C w ∧ Running w.gens (active B) ∧
      (∀ g ∈ gs, w.Idle g) ∧ Config.run fuel C = some (w', .raised x) ∧ x.kind = .value ∧
      ∃ g ∈ gs, w'.Idle g := by
  obtain ⟨trace, c, run, found⟩ : ∃ trace c, RunOf Genuine trace c ∧ c.sweepFails 100 = true :=
    exists_run (fresh_begin failingSweep) 199 (by decide +kernel)
  have running : Running c.world.gens (active c.stack) := (run.standing fun _ _ h => h).active
  unfold Config.sweepFails at found
  split at found
  · rename_i k caller signal
    obtain ⟨all, found⟩ := Bool.and_eq_true_iff.1 found
    split at found
    · rename_i w' x ended
      obtain ⟨kind, some_left⟩ := Bool.and_eq_true_iff.1 found
      obtain ⟨gs, contents, idle⟩ := Val.gens_of_all all
      rw [contents] at some_left
      obtain ⟨v, mem, left⟩ := List.any_eq_true.1 some_left
      obtain ⟨g, here, rfl⟩ := List.mem_map.1 mem
      refine ⟨c.world, w', gs, ⟨c.world, [], c.signal⟩, c.stack, 100, x, ?_, running, idle, ended,
        beq_iff_eq.1 kind, g, here, left⟩
      rw [signal]
      exact .continuation k caller contents
    · cases found
  · cases found

/-- The failure of one clean-up leaves others undone. -/
theorem Sweeper.swept_partly : ∃ (w u w' : World language) (gs : List Gen) (C : Config language) (x : Exc),
    Sweeper w gs C u ∧ Swept u gs w' (.raised x) ∧ ∃ g ∈ gs, w'.Idle g := by
  obtain ⟨w, w', gs, C, B, fuel, x, sweeper, running, idle, ended, -, left⟩ := exists_sweepFails
  exact ⟨w, w, w', gs, C, x, sweeper, sweeper.swept running idle ended, left⟩

/-- It is not so that everything is closed in the end, not even if nothing but the program's own clean-ups fails. -/
theorem not_always_swept : ¬ ∀ (w u w' : World language) (gs : List Gen) (C : Config language)
    (B : List (Activation language)) (fuel : Nat) (r : Reply), Sweeper w gs C u → Running u.gens (active B) →
      (∀ g ∈ gs, u.Idle g) → Config.run fuel C = some (w', r) → (∀ x, r = .raised x → x.kind = .value) →
        ∀ g ∈ gs, w'.status g = .finished := by
  intro always
  obtain ⟨w, w', gs, C, B, fuel, x, sweeper, running, idle, ended, kind, g, mem, left⟩ := exists_sweepFails
  have own (y : Exc) (same : Reply.raised x = .raised y) : y.kind = .value := by
    cases same
    exact kind
  have finished := always w w w' gs C B fuel _ sweeper running idle ended own g mem
  simp [World.Idle, finished, Status.idle] at left

end OneShot
