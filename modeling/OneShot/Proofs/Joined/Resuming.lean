import OneShot.Proofs.Joined.Travel
import OneShot.Proofs.Steps

/-!
# Resuming

A generator that asks to have a continuation resumed reports this to the machine
that is below it, which puts the slice on its stack, above what is there, and
delivers the answer to the top.
-/

namespace OneShot.Joined

open Config (Leads)

variable {c : Code} {mem : Memo c} {R F : Facts (guest c)} {C : Config (guest c)} {D : Base c}
  {a : Deep.Answer} {d e : Gen} {id : Nat} {k : Cont} {t : Tag} {links : List (Link c)}
  {tip : Tip c} {below : List (Piece c)} {L : Level c} {Ls : List (Level c)} {taken : Bool}

/-- The piece that a level becomes when what runs on top of it suspends. -/
def Level.rests (L : Level c) (d : Gen) (tip : Tip c) : Piece c := .gens d tip L.links L.tag

/-- What runs on top of a level yields; the machine of the level gets it. -/
theorem At.outOfLevel {v : Val} (tip : Tip c) (h : At (under D d (L :: Ls)) (.reply (.yielded v)) mem
      ({.gen d.id (.suspended tip.routine tip.how)} + (tip.facts + (levelFacts d (L :: Ls) + R))) C) :
    Leads 0 C (At (Machine.activation L.gen L.machine (.advancing (.gen (bottom d (hops L.links)))) ::
        under D L.gen Ls) (.reply (.yielded v)) mem
      ({.machine L.machine (vals (L.rests d tip :: L.below))} + ({.gen L.gen.id .running} +
        (facts (L.rests d tip :: L.below) + (levelFacts L.gen Ls + R)))) ) := by
  rw [under_cons] at h
  have out := At.outOfChain (F := {.gen d.id (.suspended tip.routine tip.how)} + (tip.facts +
    ({.gen L.gen.id .running} + ({.machine L.machine (vals (L.rests d tip :: L.below))} +
      (facts L.below + (levelFacts L.gen Ls + R)))))) (h.of_eq (by
        simp only [levelFacts, Level.facts, vals, List.map_cons, Level.rests, Piece.val]
        abel))
  refine out.mono fun C' there => there.of_eq ?_
  simp only [facts, Level.rests, Piece.facts]
  abel

/-- A slice is resumed by a generator that asks for it on top of a level. -/
theorem At.resumes (h : At (under D d (L :: Ls)) (.advance d (.send .none)) mem
      ({.gen d.id (.fresh (.library (request id k a)))} +
        ({.cont k.index (vals (.gens e tip links t :: below)) taken} +
          (facts (.gens e tip links t :: below) + (levelFacts d (L :: Ls) + R)))) C) :
    Leads 1 C (At (.running e tip.routine ::
        under D e (⟨links, t, L.gen, L.machine, below ++ L.rests d .pass :: L.below⟩ :: Ls))
      (.reply a.reply) mem ({.gen e.id .running} +
        (levelFacts e (⟨links, t, L.gen, L.machine, below ++ L.rests d .pass :: L.below⟩ :: Ls) +
          (tip.facts + ({.cont k.index (vals (.gens e tip links t :: below)) taken} + R))))) := by
  let slice : List (Piece c) := .gens e tip links t :: below
  let rest : Facts (guest c) :=
    {.cont k.index (vals slice) taken} + (facts slice + R)
  have started := At.fresh (F := levelFacts d (L :: Ls) + rest) (h.of_eq (by
    simp only [rest, slice]; abel))
  refine started.followed fun C' running => ?_
  refine ((At.library (t := .ask (.yield (.resumption id ⟨.cont k, a.sent, a.thrown⟩) .direct)
    .passing) (some d) running fun s => ⟨rfl, rfl⟩).followed fun C' turned => ?_).eventually
  have out := At.outOfLevel (L := L) (R := rest) .pass (turned.yield.of_eq (by
    simp only [Tip.facts, Tip.how]
    rw [zero_add]
    rfl))
  refine out.followed fun C' there => ?_
  have pushed := At.pushes (there.of_eq (E := {.machine L.machine (vals (L.rests d .pass :: L.below))} +
    ({.cont k.index (vals slice) taken} + ({.gen L.gen.id .running} +
      (facts (L.rests d .pass :: L.below) + (levelFacts L.gen Ls + (facts slice + R)))))) (by
        simp only [rest]; abel))
  refine (pushed.eventually).followed fun C' settling => ?_
  have settled : Settling L.gen L.machine (under D L.gen Ls) a.outcome mem
      (inside L.gen L.machine (.gens e tip links t :: (below ++ L.rests d .pass :: L.below)) Ls +
        ({.cont k.index (vals slice) taken} + R)) C' := Settling.of_eq settling (by
    simp only [inside, ← List.cons_append, vals_append, facts_append, slice]
    abel)
  refine ((Settling.intoPiece settled).mono fun C' there => there.of_eq ?_).eventually
  abel

end OneShot.Joined
