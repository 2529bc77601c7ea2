import OneShot.Proofs.Joined.Layout

/-!
# Travelling results

A result goes down the layout of a stack to the next mark: whatever has no mark
hands it on.
-/

namespace OneShot.Joined

open Config (Leads)
open Deep (Failure Result)

variable {c : Code} {A : List (Activation (guest c))} {mem : Memo c} {F R : Facts (guest c)}
  {C : Config (guest c)} {D : Base c} {a : Deep.Answer} {r : Result} {d g : Gen} {m : Nat} {t : Tag}
  {links : List (Link c)} {ps : List (Piece c)} {Ls : List (Level c)}

/-- A frame at rest goes on with an answer. -/
theorem At.intoPiece {tip : Tip c} (h : At A (.advance (bottom d (hops links)) a.input) mem
      ((Piece.gens d tip links t).facts + F) C) :
    Leads 1 C (At (.running d tip.routine :: (relayingHops d (hops links) ++ A)) (.reply a.reply)
      mem ({.gen d.id .running} + (runningHops (hops links) + (tip.facts + F)))) := by
  have inner := At.intoChain (F := {.gen d.id (.suspended tip.routine tip.how)} + (tip.facts + F))
    (h.of_eq (by simp only [Piece.facts]; abel))
  refine inner.bind (n := 1) fun C' there => ?_
  exact At.suspended (there.of_eq (by abel))

/-- The activations above the machine of a level. -/
theorem under_cons (D : Base c) (d : Gen) (L : Level c) (Ls : List (Level c)) :
    under D d (L :: Ls) = relayingHops d (hops L.links) ++
      Machine.activation L.gen L.machine (.advancing (.gen (bottom d (hops L.links)))) ::
        under D L.gen Ls := by
  simp [under, acts, Level.acts, root]

/-- What comes out of a generator goes to the one that has it run in its place. -/
theorem At.relayed {L : Level c} {role : Role c} (h : At (under D d (L.linked g role :: Ls))
      (.reply a.reply) mem (levelFacts d (L.linked g role :: Ls) + R) C) :
    Leads 1 C (At (.running g role.routine :: under D g (L :: Ls)) (.reply a.reply) mem
      ({.gen g.id .running} + (levelFacts g (L :: Ls) + R))) := by
  refine (At.ended h).mono fun C' there => there.of_eq ?_
  simp only [levelFacts, Level.facts, Level.linked, hops, List.map_cons, runningHops, bottom,
    Link.hop]
  abel

/-- The facts of a machine inside of levels, with pieces on its stack. -/
def inside (g : Gen) (m : Nat) (ps : List (Piece c)) (Ls : List (Level c)) : Facts (guest c) :=
  {.gen g.id .running} + ({.machine m (vals ps)} + (facts ps + levelFacts g Ls))

/-- A result has come to the first one of the marks, or to what waits for the outermost machine. -/
inductive Arrived (D : Base c) (r : Result) (mem : Memo c) (R : Facts (guest c)) :
    List (Mark c.State) → Config (guest c) → Prop
  | out {d : Gen} {C : Config (guest c)} (here : At (D d) (.reply r.answer.reply) mem R C) :
      Arrived D r mem R [] C
  | code {d : Gen} {s : c.State} {L : Level c} {Ls : List (Level c)} {C : Config (guest c)}
      (here : At (.running d (codeRoutine s) :: under D d (L :: Ls)) (.reply r.answer.reply) mem
        ({.gen d.id .running} + (levelFacts d (L :: Ls) + R)) C) :
      Arrived D r mem R (.code s :: marks (L :: Ls)) C
  | loop {d : Gen} {v : Val} {L : Level c} {Ls : List (Level c)} {C : Config (guest c)}
      (here : At (.running d (Role.loop v).routine :: under D d (L :: Ls)) (.reply r.answer.reply)
        mem ({.gen d.id .running} + (levelFacts d (L :: Ls) + R)) C) :
      Arrived D r mem R (.loop v :: marks (L :: Ls)) C
  | bound {g : Gen} {m : Nat} {b : Bound} {t : Tag} {ps : List (Piece c)} {Ls : List (Level c)}
      {C : Config (guest c)} (here : Settling g m (under D g Ls) r.answer.outcome mem
        (inside g m (.bound b t :: ps) Ls + R) C) :
      Arrived D r mem R (.bound b :: (pieceMarks ps ++ marks Ls)) C

/-- The least number of steps to the first one of the marks. -/
def distance : List (Mark c.State) → Nat
  | .code _ :: _ | .loop _ :: _ => 1
  | _ => 0

theorem distance_le (ms : List (Mark c.State)) : distance ms ≤ 1 := by
  unfold distance
  split <;> simp

def pieceSize : List (Piece c) → Nat
  | [] => 0
  | .bound _ _ :: ps => pieceSize ps + 1
  | .gens _ _ links _ :: ps => links.length + 2 + pieceSize ps

def size : List (Level c) → Nat
  | [] => 0
  | L :: Ls => L.links.length + pieceSize L.below + 1 + size Ls

/-- The generator on top of the stack of a machine is advanced. -/
theorem Settling.intoPiece {tip : Tip c} (h : Settling g m (under D g Ls) a.outcome mem
      (inside g m (.gens d tip links t :: ps) Ls + R) C) :
    Leads 1 C (At (.running d tip.routine :: under D d (⟨links, t, g, m, ps⟩ :: Ls))
      (.reply a.reply) mem
      ({.gen d.id .running} + (levelFacts d (⟨links, t, g, m, ps⟩ :: Ls) + (tip.facts + R)))) := by
  let L : Level c := ⟨links, t, g, m, ps⟩
  have opened : Settling g m (under D g Ls) a.outcome mem
      ({.machine m (.frame (.generator (.gen (bottom d (hops links))) t) :: vals ps)} +
        ((Piece.gens d tip links t).facts + ({.gen g.id .running} + (facts ps +
          (levelFacts g Ls + R))))) C :=
    Settling.of_eq h (by simp only [inside, vals, facts, List.map_cons, Piece.val]; abel)
  have advanced := Settling.gen opened
  have within := At.intoPiece (t := t) (F := {.machine m
      (genFrame (bottom d (hops links)) t :: vals ps)} +
        ({.gen g.id .running} + (facts ps + (levelFacts g Ls + R))))
    (At.of_eq advanced (by abel))
  have shape : relayingHops d (hops links) ++ Machine.activation g m
      (.advancing (.gen (bottom d (hops links)))) :: under D g Ls = under D d (L :: Ls) := by
    simp [under, acts, Level.acts, L, root]
  rw [shape] at within
  refine within.mono fun C' there => there.of_eq ?_
  simp only [levelFacts, Level.facts]
  abel

/-- A result that is delivered to a stack, given that results go on from there. -/
theorem Settling.arrives
    (next : ∀ {Ls' : List (Level c)} {d : Gen} {C : Config (guest c)},
      size Ls' < pieceSize ps + 1 + size Ls →
      At (under D d Ls') (.reply r.answer.reply) mem (levelFacts d Ls' + R) C →
      Leads (distance (marks Ls')) C (Arrived D r mem R (marks Ls')))
    (h : Settling g m (under D g Ls) r.answer.outcome mem (inside g m ps Ls + R) C) :
    Leads (distance (pieceMarks ps ++ marks Ls)) C (Arrived D r mem R (pieceMarks ps ++ marks Ls)) := by
  cases ps with
  | nil =>
      refine next (by simp [pieceSize]) (Settling.nil (m := m) (Settling.of_eq h ?_))
      simp only [inside, vals, facts, List.map_nil]
      abel
  | cons p ps =>
      cases p with
      | bound b t => exact .here (.bound h)
      | gens d tip links t =>
          let L : Level c := ⟨links, t, g, m, ps⟩
          have there := Settling.intoPiece h
          have less : size (L :: Ls) < pieceSize (.gens d tip links t :: ps) + 1 + size Ls := by
            simp only [size, pieceSize, L]
            omega
          cases tip with
          | code s =>
              refine (there.mono fun C' there => ?_).weaken (distance_le _)
              have arrived : Arrived D r mem R (.code s :: marks (L :: Ls)) C' :=
                .code (there.of_eq (by simp only [Tip.facts]; abel))
              simpa [Piece.marks, Tip.marks, L] using arrived
          | pass =>
              refine (there.followed fun C' there => ?_).weaken (distance_le _)
              refine (At.passing there).after fun C'' out => ?_
              have arrived := next less (out.of_eq (by simp only [Tip.facts]; abel))
              simpa [Piece.marks, Tip.marks, L] using arrived.eventually
          | relay m' =>
              refine (there.followed fun C' there => ?_).weaken (distance_le _)
              refine (At.resent there).after fun C'' out => ?_
              have ended := Settling.nil (m := m') (F := levelFacts d (L :: Ls) + R)
                (Settling.of_eq out (by simp only [Tip.facts]; abel))
              have arrived := next less ended
              simpa [Piece.marks, Tip.marks, L] using arrived.eventually

/-- A result goes on to the next mark. -/
theorem At.arrives
    (h : At (under D d Ls) (.reply r.answer.reply) mem (levelFacts d Ls + R) C) :
    Leads (distance (marks Ls)) C (Arrived D r mem R (marks Ls)) := by
  generalize bound : size Ls = n
  induction n using Nat.strong_induction_on generalizing Ls d C with
  | _ n ih =>
      subst bound
      cases Ls with
      | nil => exact .here (.out (d := d) (h.of_eq (by simp [levelFacts])))
      | cons L Ls =>
          obtain ⟨links, t, g, m, below⟩ := L
          cases links with
          | nil =>
              have waiting : At (Machine.activation g m (.advancing (.gen d)) :: under D g Ls)
                  (.reply r.answer.reply) mem ({.machine m (genFrame d t :: vals below)} +
                    ({.gen g.id .running} + (facts below + (levelFacts g Ls + R)))) C :=
                h.of_eq (by
                  simp only [levelFacts, Level.facts, hops, List.map_nil, runningHops, bottom]
                  abel)
              refine (waiting.popped.followed fun C' there => ?_).weaken (distance_le _)
              have settled : Settling g m (under D g Ls) r.answer.outcome mem
                  (inside g m below Ls + R) C' :=
                Settling.of_eq there (by simp only [inside]; abel)
              have arrived := Settling.arrives (fun {Ls' d C} less out => ih (size Ls') (by
                simp only [size, List.length_nil] at less ⊢; omega) out rfl) settled
              simpa using arrived.eventually
          | cons l ls =>
              obtain ⟨g', role⟩ := l
              let L : Level c := ⟨ls, t, g, m, below⟩
              have out : At (under D d (L.linked g' role :: Ls)) (.reply r.answer.reply) mem
                  (levelFacts d (L.linked g' role :: Ls) + R) C := h
              refine ((At.relayed out).followed fun C' there => ?_).weaken (distance_le _)
              cases role with
              | code s =>
                  have arrived : Arrived D r mem R (.code s :: marks (L :: Ls)) C' := .code there
                  exact .here (by simpa [Role.marks, L] using arrived)
              | loop v =>
                  have arrived : Arrived D r mem R (.loop v :: marks (L :: Ls)) C' := .loop there
                  exact .here (by simpa [Role.marks, L] using arrived)
              | clause =>
                  refine (At.clauseEnds there).after fun C'' out => ?_
                  have arrived := ih (size (L :: Ls)) (by
                    simp only [size, List.length_cons, L]; omega) out rfl
                  simpa [Role.marks, L] using arrived.eventually
              | pass =>
                  refine (At.passing there).after fun C'' out => ?_
                  have arrived := ih (size (L :: Ls)) (by
                    simp only [size, List.length_cons, L]; omega) out rfl
                  simpa [Role.marks, L] using arrived.eventually

theorem Settling.arrived
    (h : Settling g m (under D g Ls) r.answer.outcome mem (inside g m ps Ls + R) C) :
    Leads (distance (pieceMarks ps ++ marks Ls)) C (Arrived D r mem R (pieceMarks ps ++ marks Ls)) :=
  Settling.arrives (fun _ out => At.arrives out) h

end OneShot.Joined
