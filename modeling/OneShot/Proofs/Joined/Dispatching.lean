import OneShot.Proofs.Joined.Resuming

/-!
# Dispatching

An effect goes outward, level by level, to the innermost handler that owns it.
What it passes is captured: the slices of the levels, one above the other, and
the relays between them.  In terms of marks, a stack is cut at the first one that
owns the effect, however it is laid out.
-/

namespace OneShot.Joined

open Config (Leads)

variable {c : Code} {A : List (Activation (guest c))} {mem : Memo c} {F R : Facts (guest c)}
  {C : Config (guest c)} {D : Base c} {d g : Gen} {m : Nat} {b : Bound} {t t' : Tag} {v : Val}
  {ps : List (Piece c)} {Ls : List (Level c)} {e : Effect} {args : Arguments} {context : Val}
  {inner : Option Cont}

/-! ## The search -/

/-- No mark owns an effect. -/
def Free (e : Effect) (ms : List (Mark c.State)) : Prop :=
  ∀ b, .bound b ∈ ms → b.handler.clause? e = none

theorem Free.nil : Free e ([] : List (Mark c.State)) := by simp [Free]

theorem free_append {ms ns : List (Mark c.State)} : Free e (ms ++ ns) ↔ Free e ms ∧ Free e ns := by
  simp only [Free, List.mem_append]
  exact ⟨fun all => ⟨fun b mem => all b (.inl mem), fun b mem => all b (.inr mem)⟩,
    fun both b mem => mem.elim (both.1 b) (both.2 b)⟩

/-- The first mark that owns an effect is unique. -/
theorem owner_unique {b' : Bound} {us us' ms ms' : List (Mark c.State)}
    (same : us ++ .bound b :: ms = us' ++ .bound b' :: ms') (free : Free e us) (free' : Free e us')
    (owns : b.handler.clause? e ≠ none) (owns' : b'.handler.clause? e ≠ none) :
    us = us' ∧ b = b' ∧ ms = ms' := by
  induction us generalizing us' with
  | nil =>
      cases us' with
      | nil => simpa using same
      | cons u us' =>
          obtain ⟨rfl, -⟩ := List.cons_eq_cons.1 same
          exact absurd (free' b List.mem_cons_self) owns
  | cons u us ih =>
      cases us' with
      | nil =>
          obtain ⟨rfl, -⟩ := List.cons_eq_cons.1 same
          exact absurd (free b' List.mem_cons_self) owns'
      | cons u' us' =>
          obtain ⟨rfl, rest⟩ := List.cons_eq_cons.1 same
          obtain ⟨rfl, same'⟩ := ih rest (fun b mem => free b (.tail _ mem))
            (fun b mem => free' b (.tail _ mem))
          exact ⟨rfl, same'⟩

/-- What owns an effect among pieces: the first one that does, if there is one. -/
theorem exists_owner (e : Effect) (ps : List (Piece c)) :
    Free e (pieceMarks ps) ∨ ∃ us b t below v, ps = us ++ .bound b t :: below ∧
      Free e (pieceMarks us) ∧ b.handler.clause? e = some v := by
  induction ps with
  | nil => exact .inl .nil
  | cons p ps ih =>
      cases p with
      | bound b t =>
          cases owner : b.handler.clause? e with
          | some v => exact .inr ⟨[], b, t, ps, v, rfl, .nil, owner⟩
          | none =>
              have alone : Free e ((Piece.bound b t : Piece c).marks) := by
                simp [Free, Piece.marks, owner]
              rcases ih with free | ⟨us, b', t', below, v, rfl, free, owns⟩
              · exact .inl (by rw [pieceMarks_cons]; exact free_append.2 ⟨alone, free⟩)
              · refine .inr ⟨.bound b t :: us, b', t', below, v, rfl, ?_, owns⟩
                rw [pieceMarks_cons]
                exact free_append.2 ⟨alone, free⟩
      | gens d tip links t =>
          have alone : Free e ((Piece.gens d tip links t).marks) := by
            intro b mem
            simp only [Piece.marks, linkMarks, List.mem_append, List.mem_flatMap] at mem
            rcases mem with mem | ⟨l, -, mem⟩
            · cases tip <;> simp [Tip.marks] at mem
            · cases role : l.role <;> simp [role, Role.marks] at mem
          rcases ih with free | ⟨us, b', t', below, v, rfl, free, owns⟩
          · exact .inl (by rw [pieceMarks_cons]; exact free_append.2 ⟨alone, free⟩)
          · refine .inr ⟨.gens d tip links t :: us, b', t', below, v, rfl, ?_, owns⟩
            rw [pieceMarks_cons]
            exact free_append.2 ⟨alone, free⟩

theorem cut_bound (e : Effect) (b : Bound) (t : Tag) (vs : List Val) :
    cut e (boundFrame b t :: vs) =
      match b.handler.clause? e with
      | some v => some ⟨[boundFrame b t], b.handler, v, vs⟩
      | none => (cut e vs).map fun s => { s with frames := boundFrame b t :: s.frames } := by
  cases owns : b.handler.clause? e <;> simp [boundFrame, cut, owns]

theorem searchFault?_bound (e : Effect) (b : Bound) (t : Tag) (vs : List Val) :
    searchFault? (.effect e) (boundFrame b t :: vs) =
      if (b.handler.clause? e).isSome then none else searchFault? (.effect e) vs := rfl

theorem search_free (free : Free e (pieceMarks ps)) :
    searchFault? (.effect e) (vals ps) = none ∧ cut e (vals ps) = none := by
  induction ps with
  | nil => exact ⟨rfl, rfl⟩
  | cons p ps ih =>
      rw [pieceMarks_cons, free_append] at free
      obtain ⟨faultless, uncut⟩ := ih free.2
      cases p with
      | bound b t =>
          have none_owns : b.handler.clause? e = none := free.1 b (by simp [Piece.marks])
          constructor
          · exact (searchFault?_bound e b t _).trans (by rw [none_owns]; exact faultless)
          · refine (cut_bound e b t _).trans ?_
            rw [none_owns]
            exact Option.map_eq_none_iff.2 uncut
      | gens d tip links t => exact ⟨faultless, Option.map_eq_none_iff.2 uncut⟩

theorem search_owned {us : List (Piece c)} (below : List (Piece c)) (free : Free e (pieceMarks us))
    (owns : b.handler.clause? e = some v) :
    searchFault? (.effect e) (vals (us ++ .bound b t :: below)) = none ∧
      cut e (vals (us ++ .bound b t :: below)) =
        some ⟨vals (us ++ [.bound b t]), b.handler, v, vals below⟩ := by
  induction us with
  | nil =>
      constructor
      · exact (searchFault?_bound e b t _).trans (by simp [owns])
      · refine (cut_bound e b t _).trans ?_
        rw [owns]
        rfl
  | cons p us ih =>
      rw [pieceMarks_cons, free_append] at free
      obtain ⟨faultless, found⟩ := ih free.2
      cases p with
      | bound b' t' =>
          have none_owns : b'.handler.clause? e = none := free.1 b' (by simp [Piece.marks])
          constructor
          · exact (searchFault?_bound e b' t' _).trans (by rw [none_owns]; exact faultless)
          · refine (cut_bound e b' t' _).trans ?_
            rw [none_owns]
            exact congrArg (Option.map _) found
      | gens d tip links t' => exact ⟨faultless, congrArg (Option.map _) found⟩

/-! ## One machine -/

/-- An invocation of an effect has come to a machine. -/
def Dispatching (g : Gen) (m : Nat) (A : List (Activation (guest c))) (e : Effect)
    (args : Arguments) (context : Val) (inner : Option Cont) (mem : Memo c) (F : Facts (guest c))
    (C : Config (guest c)) : Prop :=
  ∃ w : World (guest c), C = Machine.turned w g m A
    (Machine.dispatch w.store m (.effect e) args context inner) ∧ w.memory = mem ∧ w.Bears F

/-- What the machine of a resend has captured. -/
inductive Captured : Option Cont → List (Piece c) → Facts (guest c) → Prop
  | nothing : Captured none [] 0
  | slice (k : Cont) (cs : List (Piece c)) :
      Captured (some k) cs {.cont k.index (vals cs) true}

/-- The frames that a machine captures come below those of the resend. -/
theorem Captured.frames {cs : List (Piece c)} (captured : Captured inner cs F)
    {w : World (guest c)} (bears : w.Bears (F + R)) (us : List (Piece c)) :
    inner.elim [] w.store.frames ++ vals us = vals (cs ++ us) := by
  cases captured with
  | nothing => rfl
  | slice k cs => rw [vals_append, Option.elim, bears.frames]

theorem bears_capturing {w : World (guest c)} {vs : List Val}
    (bears : w.Bears ({.machine m vs} + R)) (left frames : List Val) (inner : Option Cont)
    (text : Unit → String) :
    World.Bears { w with store := (Deep.capturing w.store m left frames inner text).1 }
      ({.cont (Deep.capturing w.store m left frames inner text).2.index
        (inner.elim [] w.store.frames ++ frames) false} + ({.machine m left} + R)) := by
  have kept : (w.store.setStack m left).frames = w.store.frames := by
    funext k
    simp [Store.frames]
  have captured := (bears.setStack left).newCont (inner.elim [] w.store.frames ++ frames)
    (inner.map .cont)
  refine World.Bears.store (w := { w with store := ((w.store.setStack m left).newCont
    (inner.elim [] w.store.frames ++ frames) (inner.map .cont)).1 }) ?_ _ ?_
  · simpa only [Deep.capturing, Machine.capture, kept] using captured
  · simp only [Deep.capturing, Machine.capture, kept, Store.engine_note]

variable {cs us below : List (Piece c)}

/-- An owner on the stack of the machine answers by its clause. -/
theorem Dispatching.owned (captured : Captured inner cs F) (free : Free e (pieceMarks us))
    (owns : b.handler.clause? e = some v) (h : Dispatching g m A e args context inner mem
      (F + ({.machine m (vals (us ++ .bound b t :: below))} + R)) C) :
    ∃ k : Cont, At (Machine.activation g m .calling :: A) (.call v (.cont k :: args.values) .machine)
      mem ({.cont k.index (vals (cs ++ us ++ [.bound b t])) false} +
        ({.machine m (vals below)} + R)) C := by
  obtain ⟨w, rfl, rfl, bears⟩ := h
  have stack := bears.right.stack
  obtain ⟨faultless, found⟩ := search_owned (t := t) below free owns
  rw [← stack] at faultless found
  obtain ⟨text, called⟩ := Deep.dispatch_of_cut faultless found args context inner
  have above := captured.frames bears (us ++ [.bound b t])
  have left := bears_capturing bears.right (vals below) (vals (us ++ [.bound b t])) inner text
  rw [above, ← List.append_assoc] at left
  rw [called]
  exact ⟨_, At.mk left⟩

/-- A machine without an owner resends, with all that is on its stack. -/
theorem Dispatching.unowned (captured : Captured inner cs F) (free : Free e (pieceMarks ps))
    (h : Dispatching g m A e args context inner mem
      (F + ({.machine m (vals ps)} + ({.gen g.id .running} + R))) C) :
    ∃ (k : Cont) (id : Nat), At A (.reply (.yielded (.resend id ⟨.effect e, args, .cont k, context⟩)))
      mem ({.gen g.id (.suspended (Tip.relay m).routine (Tip.relay m : Tip c).how)} +
        ((Tip.relay m).facts + ({.cont k.index (vals (cs ++ ps)) false} + R))) C := by
  obtain ⟨w, rfl, rfl, bears⟩ := h
  have stack := bears.right.stack
  obtain ⟨faultless, uncut⟩ := search_free free
  rw [← stack] at faultless uncut
  obtain ⟨text, id, resent⟩ := Deep.dispatch_of_uncut faultless uncut args context inner
  have above := captured.frames bears ps
  have left := bears_capturing bears.right [] (vals ps) inner text
  rw [stack] at resent
  rw [above] at left
  have numbered := left.store (Deep.capturing w.store m [] (vals ps) inner text).1.freshId.1 rfl
  have running := numbered.of_eq (E := {.gen g.id .running} + ({.machine m []} +
    ({.cont (Deep.capturing w.store m [] (vals ps) inner text).2.index (vals (cs ++ ps)) false} +
      R))) (by abel)
  have suspended := running.setStatus (g := g)
    (.suspended (Tip.relay m : Tip c).routine (Tip.relay m : Tip c).how)
  rw [resent]
  exact ⟨_, id, At.mk suspended⟩

theorem At.dispatches {j : Nat} (h : At (Machine.activation g m (.advancing v) :: A)
      (.reply (.yielded (.invocation j ⟨.effect e, args, context⟩))) mem F C) :
    Leads 1 C (Dispatching g m A e args context none mem F) := by
  obtain ⟨w, rfl, rfl, bears⟩ := h
  exact .step (Machine.step_activation w g m _ A _) (.here ⟨w, rfl, rfl, bears⟩)

theorem At.redispatches {id : Nat} {k : Cont} {frames : List Val}
    (h : At (Machine.activation g m (.advancing v) :: A)
      (.reply (.yielded (.resend id ⟨.effect e, args, .cont k, context⟩))) mem
      ({.cont k.index frames false} + F) C) :
    Leads 1 C (Dispatching g m A e args context (some k) mem ({.cont k.index frames true} + F)) := by
  obtain ⟨w, rfl, rfl, bears⟩ := h
  have taken : w.store.take k = ((w.store.take k).1, true) :=
    Prod.ext rfl (by simp [bears.isTaken])
  refine .step (Machine.step_activation w g m _ A _)
    (.here ⟨{ w with store := (w.store.take k).1 }, ?_, rfl, bears.take⟩)
  simp only [Machine.step, Machine.receive]
  rw [taken]
  rfl

/-! ## All levels -/

/--
An effect was performed on top of piece `p`.  It was owned somewhere below, and
the clause is called with the slice; or else it has come to what waits for the
outermost machine.
-/
inductive Dispatched (D : Base c) (e : Effect) (args : Arguments) (context : Val) (p : Piece c)
    (mem : Memo c) (R : Facts (guest c)) : List (Mark c.State) → Config (guest c) → Prop
  | owned {us below : List (Piece c)} {b : Bound} {t : Tag} {v : Val} {k : Cont} {g : Gen} {m : Nat}
      {Ls : List (Level c)} {C : Config (guest c)} (free : Free e (pieceMarks (p :: us)))
      (owns : b.handler.clause? e = some v)
      (here : At (Machine.activation g m .calling :: under D g Ls)
        (.call v (.cont k :: args.values) .machine) mem
        ({.cont k.index (vals (p :: us ++ [.bound b t])) false} +
          (facts (p :: us) + (inside g m below Ls + R))) C) :
      Dispatched D e args context p mem R
        (pieceMarks (p :: us) ++ .bound b :: (pieceMarks below ++ marks Ls)) C
  | unowned {us : List (Piece c)} {k : Cont} {id : Nat} {g : Gen} {m : Nat} {C : Config (guest c)}
      (free : Free e (pieceMarks (p :: us)))
      (here : At (D g) (.reply (.yielded (.resend id ⟨.effect e, args, .cont k, context⟩))) mem
        ({.cont k.index (vals (p :: us)) false} + (facts (p :: us) +
          ({.gen g.id (.suspended (Tip.relay m).routine (Tip.relay m : Tip c).how)} +
            ((Tip.relay m).facts + R)))) C) :
      Dispatched D e args context p mem R (pieceMarks (p :: us)) C

section

variable {tip : Tip c} {links : List (Link c)} {cs qs us below : List (Piece c)}
  {I : Facts (guest c)}

theorem Dispatching.of_eq (h : Dispatching g m A e args context inner mem F C) {E : Facts (guest c)}
    (same : F = E) : Dispatching g m A e args context inner mem E C := same ▸ h

theorem Dispatching.answered (captured : Captured inner cs I)
    (head : cs ++ (us ++ .bound b t :: below) = .gens d tip links t' :: qs)
    (free : Free e (pieceMarks (cs ++ us))) (owns : b.handler.clause? e = some v)
    (h : Dispatching g m (under D g Ls) e args context inner mem
      (I + (facts cs + (inside g m (us ++ .bound b t :: below) Ls + R))) C) :
    Dispatched D e args context (.gens d tip links t') mem R
      (pieceMarks (cs ++ (us ++ .bound b t :: below)) ++ marks Ls) C := by
  obtain ⟨us', first⟩ : ∃ us', cs ++ us = .gens d tip links t' :: us' := by
    rw [← List.append_assoc] at head
    cases here : cs ++ us with
    | nil => simp [here] at head
    | cons q us' =>
        rw [here] at head
        exact ⟨us', by rw [(List.cons_eq_cons.1 head).1]⟩
  have passes : Free e (pieceMarks us) := by
    rw [pieceMarks_append] at free
    exact (free_append.1 free).2
  obtain ⟨k, called⟩ := Dispatching.owned (t := t) (R := {.gen g.id .running} + (facts cs +
    (facts us + (facts below + (levelFacts g Ls + R))))) captured passes owns (h.of_eq (by
      simp only [inside, facts_append, facts, Piece.facts]
      abel))
  have whole := congrArg facts first
  rw [facts_append] at whole
  rw [first] at called free
  have answered : Dispatched D e args context (.gens d tip links t') mem R
      (pieceMarks (.gens d tip links t' :: us') ++ .bound b :: (pieceMarks below ++ marks Ls)) C :=
    .owned (t := t) (m := m) free owns (called.of_eq (by
      rw [← whole]
      simp only [inside, List.cons_append]
      abel))
  have marks_eq : pieceMarks (cs ++ (us ++ .bound b t :: below)) ++ marks Ls =
      pieceMarks (.gens d tip links t' :: us') ++ .bound b :: (pieceMarks below ++ marks Ls) := by
    rw [← List.append_assoc, first]
    simp [Piece.marks]
  exact marks_eq ▸ answered

/-- A machine dispatches an effect; what was captured before is `cs`. -/
theorem Dispatching.leads (captured : Captured inner cs I)
    (head : cs ++ ps = .gens d tip links t :: qs) (free : Free e (pieceMarks cs))
    (h : Dispatching g m (under D g Ls) e args context inner mem
      (I + (facts cs + (inside g m ps Ls + R))) C) :
    Leads 0 C (Dispatched D e args context (.gens d tip links t) mem R
      (pieceMarks (cs ++ ps) ++ marks Ls)) := by
  induction Ls generalizing g m inner cs ps qs I C with
  | nil =>
      rcases exists_owner e ps with passes | ⟨us, b, t', below, v, rfl, passes, owns⟩
      all_goals have free' := free_append.2 ⟨free, passes⟩; rw [← pieceMarks_append] at free'
      · obtain ⟨k, id, resent⟩ := Dispatching.unowned (R := facts cs + (facts ps + R)) captured passes
          (h.of_eq (by simp only [inside, levelFacts]; abel))
        have whole := congrArg facts head
        rw [facts_append] at whole
        rw [head] at resent free' ⊢
        rw [marks_nil, List.append_nil]
        refine .here (.unowned (m := m) free' (At.of_eq resent ?_))
        rw [← whole, root]
        abel
      · exact .here (h.answered captured head free' owns)
  | cons L Ls ih =>
      rcases exists_owner e ps with passes | ⟨us, b, t', below, v, rfl, passes, owns⟩
      all_goals have free' := free_append.2 ⟨free, passes⟩; rw [← pieceMarks_append] at free'
      · obtain ⟨k, id, resent⟩ := Dispatching.unowned (R := facts cs + (facts ps +
          (levelFacts g (L :: Ls) + R))) captured passes (h.of_eq (by simp only [inside]; abel))
        have out := At.outOfLevel (R := {.cont k.index (vals (cs ++ ps)) false} +
          (facts (cs ++ ps) + R)) (.relay m) (resent.of_eq (by rw [facts_append]; abel))
        refine out.followed fun C' there => ?_
        have taken := At.redispatches (there.of_eq (E := {.cont k.index (vals (cs ++ ps)) false} +
          (facts (cs ++ ps) + (inside L.gen L.machine (L.rests g (.relay m) :: L.below) Ls + R))) (by
            simp only [inside]; abel))
        refine taken.after fun C'' dispatching => ?_
        have rest := ih (.slice k (cs ++ ps)) (by rw [head]; rfl) free' dispatching
        have same : pieceMarks (cs ++ ps ++ L.rests g (.relay m) :: L.below) ++ marks Ls =
            pieceMarks (cs ++ ps) ++ marks (L :: Ls) := by
          simp [Level.rests, Piece.marks, Tip.marks]
        exact same ▸ rest
      · exact .here (h.answered captured head free' owns)

/-- What runs on top of a level performs an effect. -/
theorem At.performs {L : Level c} {j : Nat} (tip : Tip c)
    (h : At (under D d (L :: Ls)) (.reply (.yielded (.invocation j ⟨.effect e, args, context⟩))) mem
      ({.gen d.id (.suspended tip.routine tip.how)} +
        (tip.facts + (levelFacts d (L :: Ls) + R))) C) :
    Leads 1 C (Dispatched D e args context (L.rests d tip) mem R (tip.marks ++ marks (L :: Ls))) := by
  refine (At.outOfLevel tip h).bind (n := 1) fun C' there => ?_
  refine (At.dispatches there).followed fun C'' dispatching => ?_
  have came := Dispatching.leads .nothing (rfl : [] ++ L.rests d tip :: L.below = _) .nil
    (dispatching.of_eq (E := 0 + (facts [] + (inside L.gen L.machine (L.rests d tip :: L.below) Ls +
      R))) (by simp only [inside, facts]; abel))
  have same : pieceMarks ([] ++ L.rests d tip :: L.below) ++ marks Ls =
      tip.marks ++ marks (L :: Ls) := by
    simp [Level.rests, Piece.marks]
  exact same ▸ came

end

end OneShot.Joined
