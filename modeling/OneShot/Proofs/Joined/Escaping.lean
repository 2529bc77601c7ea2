import OneShot.Proofs.Joined.Performing

/-!
# Escapes

An escape goes outward through all levels, and suspends the machine of each.  What
the driver sends or throws in then goes inward by the same way, to the generator
that has yielded the escape; the layout is the same as before.
-/

namespace OneShot.Joined

open Config (Leads)
open Deep (Failure Result)

variable {c : Code} {A : List (Activation (guest c))} {mem : Memo c} {F R : Facts (guest c)}
  {C : Config (guest c)} {D : Base c} {a : Deep.Answer} {d : Gen} {id : Nat} {v action : Val}
  {L : Level c} {Ls : List (Level c)}

/-! ## Suspended levels -/

/-- The routine of a machine that has passed an escape on. -/
def escapedRoutine (m : Nat) : Routine (guest c) := .library (.machine m .escaped)

/-- The facts of a level that has passed an escape on. -/
def Level.paused (L : Level c) (d : Gen) : Facts (guest c) :=
  restingHops d (hops L.links) +
    ({.gen L.gen.id (.suspended (escapedRoutine L.machine) .direct)} +
      ({.machine L.machine (genFrame (bottom d (hops L.links)) L.tag :: vals L.below)} +
        Joined.facts L.below))

def pausedFacts (d : Gen) : List (Level c) → Facts (guest c)
  | [] => 0
  | L :: Ls => L.paused d + pausedFacts L.gen Ls

/-- A machine passes an escape on. -/
theorem At.passesOn {g : Gen} {m : Nat} {content : Val}
    (h : At (Machine.activation g m (.advancing content) :: A)
      (.reply (.yielded (.escape id action))) mem ({.gen g.id .running} + F) C) :
    Leads 1 C (At A (.reply (.yielded (.escape id action))) mem
      ({.gen g.id (.suspended (escapedRoutine m) .direct)} + F)) :=
  h.step fun _ memory bears => ⟨_, rfl, memory, bears.setStatus _⟩

/-- An escape leaves all levels. -/
theorem At.escapesOut (h : At (acts d Ls ++ A) (.reply (.yielded (.escape id action))) mem
      (levelFacts d Ls + R) C) :
    Leads 0 C (At A (.reply (.yielded (.escape id action))) mem (pausedFacts d Ls + R)) := by
  induction Ls generalizing d R C with
  | nil => exact .here h
  | cons L Ls ih =>
      rw [acts, Level.acts, List.append_assoc, List.append_assoc] at h
      have chain := At.outOfChain (h.of_eq (E := runningHops (hops L.links) +
        ({.gen L.gen.id .running} +
          ({.machine L.machine (genFrame (bottom d (hops L.links)) L.tag :: vals L.below)} +
            (facts L.below + (levelFacts L.gen Ls + R))))) (by
              simp only [levelFacts, Level.facts]; abel))
      refine chain.followed fun C₁ there => ?_
      refine (At.passesOn (there.of_eq (add_left_comm _ _ _))).after fun C₂ there => ?_
      refine (ih (there.of_eq (E := levelFacts L.gen Ls + (L.paused d + R)) (by
        simp only [Level.paused]; abel))).mono fun C₃ there => there.of_eq ?_
      simp only [pausedFacts]
      abel

/-- What is sent or thrown in goes inward, through all levels. -/
theorem At.escapesIn (Ls : List (Level c)) (h : At A (.advance (root d Ls) a.input) mem (pausedFacts d Ls + R) C) :
    Leads 0 C (At (acts d Ls ++ A) (.advance d a.input) mem (levelFacts d Ls + R)) := by
  induction Ls generalizing d R C with
  | nil => exact .here h
  | cons L Ls ih =>
      have outer := ih (R := L.paused d + R) (h.of_eq (by simp only [pausedFacts]; abel))
      refine outer.followed fun C₁ there => ?_
      have woken := At.suspended (p := escapedRoutine L.machine) (there.of_eq
        (E := {.gen L.gen.id (.suspended (escapedRoutine L.machine) .direct)} +
          (restingHops d (hops L.links) +
            ({.machine L.machine (genFrame (bottom d (hops L.links)) L.tag :: vals L.below)} +
              (facts L.below + (levelFacts L.gen Ls + R))))) (by simp only [Level.paused]; abel))
      refine woken.after fun C₂ there => ?_
      refine (At.escaped there).after fun C₃ settling => ?_
      have advanced := Settling.gen (Settling.of_eq settling (E :=
        {.machine L.machine (genFrame (bottom d (hops L.links)) L.tag :: vals L.below)} +
          ({.gen L.gen.id .running} + (restingHops d (hops L.links) + (facts L.below +
            (levelFacts L.gen Ls + R))))) (by abel))
      have chain := At.intoChain (advanced.of_eq (E := restingHops d (hops L.links) +
        ({.machine L.machine (genFrame (bottom d (hops L.links)) L.tag :: vals L.below)} +
          ({.gen L.gen.id .running} + (facts L.below + (levelFacts L.gen Ls + R))))) (by abel))
      refine chain.mono fun C₄ there => ?_
      rw [acts, Level.acts, List.append_assoc, List.append_assoc]
      refine At.of_eq there ?_
      simp only [levelFacts, Level.facts]
      abel

end OneShot.Joined
