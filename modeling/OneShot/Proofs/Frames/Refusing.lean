import OneShot.Proofs.Frames.Drivers

/-!
# Giving up

What a driver cannot answer is the last that its machine tells it.  It closes what waits,
one after the other, and then raises the error for what it could not answer, unless a
closing raises before.
-/

namespace OneShot

variable {G : Guest} {rule : Trace G → Config G → Prop} {trace : Trace G} {c d : Config G}

/-! ## Errors -/

/-- Where an invocation was made, as performing an effect tells it. -/
def Val.Site (v : Val) : Prop := v = .none ∨ ∃ c, v = .context c

/-- The error for what a driver cannot answer says what that was. -/
inductive Driver.Names : Val → Exc → Prop
  | uncaught {x : Exc} (id : Nat) (q : Resend) (kind : x.kind = .uncaughtEffect)
      (detail : x.detail = .uncaught (.resend id q) q.effect) : Names (.resend id q) x
  | escape {x : Exc} (id : Nat) (action : Val) (kind : x.kind = .invalidInvocation)
      (detail : x.detail = .invalid (.escape id action))
      (hint : ∃ text, x.args = [.str (text ++ ("\nHint: " ++ asyncHint))]) :
      Names (.escape id action) x

theorem Driver.names_resend (s : Store) (id : Nat) (q : Resend) (site : q.context.Site) :
    Names (.resend id q) (escapedError s (.resend id q)).2 := by
  rcases site with none | ⟨c, here⟩
  · refine .uncaught id q ?_ ?_ <;>
      simp only [escapedError, uncaught, none] <;> rfl
  · refine .uncaught id q ?_ ?_ <;>
      simp only [escapedError, uncaught, here] <;> rfl

theorem Driver.names_escape (s : Store) (id : Nat) (action : Val) :
    Names (.escape id action) (escapedError s (.escape id action)).2 := by
  refine .escape id action rfl rfl ⟨"invalid invocation is found: " ++ s.repr (.escape id action), ?_⟩
  rfl

/-- What a driver is told of, if it was made as such. -/
def Val.Told (op : Val) : Prop :=
  (∃ id action, op = .escape id action) ∨ ∃ id q, op = .resend id q ∧ q.context.Site

theorem Driver.names_told {op : Val} (told : op.Told) (s : Store) : Names op (escapedError s op).2 := by
  rcases told with ⟨id, action, rfl⟩ | ⟨id, q, rfl, site⟩
  · exact names_escape s id action
  · exact names_resend s id q site

theorem Driver.Names.going {op : Val} {x : Exc} (names : Names op x) : x.kind ≠ .stopIteration := by
  cases names with
  | uncaught id q kind => simp [kind]
  | escape id action kind => simp [kind]

/-! ## Closing -/

/-- Only what is on top is touched in a step, and that by a reply only. -/
theorem Moves.suffix (moves : Moves c d) :
    c.stack.tail <:+ d.stack ∧ ((∀ r, c.signal ≠ .reply r) → c.stack <:+ d.stack) := by
  have one {a : Activation G} {stack : List (Activation G)} (same : d.stack = a :: stack)
      (whole : c.stack = stack) : c.stack.tail <:+ d.stack ∧ c.stack <:+ d.stack := by
    rw [same, whole]
    exact ⟨(List.tail_suffix _).trans (List.suffix_cons _ _), List.suffix_cons _ _⟩
  have two {a b : Activation G} {stack : List (Activation G)} (same : d.stack = a :: b :: stack)
      (whole : c.stack = stack) : c.stack.tail <:+ d.stack ∧ c.stack <:+ d.stack := by
    rw [same, whole]
    have suffix := (List.suffix_cons b stack).trans (List.suffix_cons a _)
    exact ⟨(List.tail_suffix _).trans suffix, suffix⟩
  cases moves with
  | answers | spawns | forwards | stays | breaks | spares | discards =>
      exact ⟨List.tail_suffix _, fun _ => List.suffix_rfl⟩
  | enters | begins | resumes | relays | exits => exact ⟨(one rfl rfl).1, fun _ => (one rfl rfl).2⟩
  | interrupts | pursues => exact ⟨(two rfl rfl).1, fun _ => (two rfl rfl).2⟩
  | goes | delegates | regains | leaves =>
      exact ⟨List.suffix_cons _ _, fun unreplied => absurd rfl (unreplied _)⟩
  | suspends | ends | returns | hands | closes =>
      exact ⟨List.suffix_rfl, fun unreplied => absurd rfl (unreplied _)⟩

namespace Config

variable {w : World G} {s : Store} {p q : Process} {r : Reply}

/-- A process that closes something waits for that. -/
theorem step_closing {v : Val} (turn : p.step w.store r = (s, .ask (.closing v) q))
    (seat : Option Gen) (S : List (Activation G)) :
    ∃ signal, step ⟨w, .of seat (.library p) :: S, .reply r⟩ =
        .ok ⟨{ w with store := s }, .of seat (.library q) :: S, signal⟩ ∧
      ∀ r, signal ≠ .reply r := by
  rcases Ask.closing_cases v with ⟨h, same⟩ | ⟨f, args, same⟩ <;> rw [same] at turn
  · refine ⟨.close h, ?_, by simp⟩
    cases seat <;>
      simp [step, Activation.of, deliver, Routine.step, turn, Turn.map, turnOf, turnOfCall]
  · refine ⟨.call f args q.caller, ?_, by simp⟩
    cases seat <;>
      simp [step, Activation.of, deliver, Routine.step, turn, Turn.map, turnOf, turnOfCall,
        Routine.caller]

/-- What a process raises comes out of it, unless it is a stop that leaves a generator. -/
theorem step_raising {x : Exc} (turn : p.step w.store r = (s, .raise x)) (seat : Option Gen)
    (S : List (Activation G)) :
    ∃ u y, step ⟨w, .of seat (.library p) :: S, .reply r⟩ = .ok ⟨u, S, .reply (.raised y)⟩ ∧
      (x.kind ≠ .stopIteration → y = x) := by
  cases seat with
  | none =>
      refine ⟨{ w with store := s }, x, ?_, fun _ => rfl⟩
      simp [step, Activation.of, deliver, Routine.step, turn, Turn.map, turnOfCall, reply]
  | some g =>
      have left : step ⟨w, .of (some g) (.library p) :: S, .reply r⟩ =
          .ok (leave { w with store := s } S g x) := by
        simp [step, Activation.of, deliver, Routine.step, turn, Turn.map, turnOf]
      rw [left]
      by_cases stop : x.kind = .stopIteration
      · rw [leave, if_pos stop]
        exact ⟨_, _, rfl, fun other => absurd stop other⟩
      · rw [leave, if_neg stop]
        exact ⟨_, _, rfl, fun _ => rfl⟩

end Config

/-! ## Drivers that give up -/

/-- A driver that runs the machine of `g` cannot answer `op`; how it closes what is left then. -/
inductive Activation.Refuses (g : Gen) (op : Val) :
    Activation G → (List Val → Activation G) → Prop
  | execute : Refuses g op (.calling (.library (.execute (.running g))))
      fun rest => .calling (.library (.execute (.abandoning op rest)))
  | executeAsync (h : Gen) (n : Nat) (other : ∀ id action, op ≠ .escape id action) :
      Refuses g op (.running h (.library (.executeAsync (.running g n))))
        fun rest => .running h (.library (.executeAsync (.abandoning op rest)))

namespace Activation.Refuses

variable {g : Gen} {op : Val} {a : Activation G} {b : List Val → Activation G}

theorem hears (refuses : Refuses g op a b) (rest : List Val) : (b rest).hears? = some none := by
  cases refuses <;> rfl

/-- There is always something to close: the machine. -/
theorem begins (refuses : Refuses g op a b) (w : World G) (S : List (Activation G)) :
    ∃ v rest signal, Driver.abandoned w.store g op = v :: rest ∧
      Config.step ⟨w, a :: S, .reply (.yielded op)⟩ = .ok ⟨w, b rest :: S, signal⟩ ∧
      ∀ r, signal ≠ .reply r := by
  obtain ⟨v, rest, contents⟩ : ∃ v rest, Driver.abandoned w.store g op = v :: rest := by
    refine List.exists_cons_of_ne_nil ?_
    unfold Driver.abandoned
    split <;> simp
  refine ⟨v, rest, ?_⟩
  cases refuses with
  | execute =>
      have turn : (Process.execute (.running g)).step w.store (.yielded op) =
          (w.store, .ask (.closing v) (.execute (.abandoning op rest))) := by
        simp only [Process.step, Execute.step, contents, Driver.abandon]
        rfl
      obtain ⟨signal, stepped, asked⟩ := Config.step_closing turn none S
      exact ⟨signal, contents, stepped, asked⟩
  | executeAsync h n other =>
      have turn : (Process.executeAsync (.running g n)).step w.store (.yielded op) =
          (w.store, .ask (.closing v) (.executeAsync (.abandoning op rest))) := by
        simp only [Process.step, ExecuteAsync.step_unanswerable other, contents, Driver.abandon]
        rfl
      obtain ⟨signal, stepped, asked⟩ := Config.step_closing turn (some h) S
      exact ⟨signal, contents, stepped, asked⟩

/-- What was closed is followed by what is left. -/
theorem closes (refuses : Refuses g op a b) (w : World G) (S : List (Activation G)) (u v : Val)
    (rest : List Val) : ∃ signal,
      Config.step ⟨w, b (v :: rest) :: S, .reply (.value u)⟩ = .ok ⟨w, b rest :: S, signal⟩ ∧
      ∀ r, signal ≠ .reply r := by
  cases refuses with
  | execute =>
      exact Config.step_closing (p := .execute (.abandoning op (v :: rest)))
        (q := .execute (.abandoning op rest)) rfl none S
  | executeAsync h n other =>
      exact Config.step_closing (p := .executeAsync (.abandoning op (v :: rest)))
        (q := .executeAsync (.abandoning op rest)) rfl (some h) S

/-- When everything is closed the error is raised. -/
theorem raises (refuses : Refuses g op a b) (w : World G) (S : List (Activation G)) (u : Val) :
    ∃ v x, Config.step ⟨w, b [] :: S, .reply (.value u)⟩ = .ok ⟨v, S, .reply (.raised x)⟩ ∧
      (op.Told → Driver.Names op x) := by
  suffices raised : ∃ v x, Config.step ⟨w, b [] :: S, .reply (.value u)⟩ =
      .ok ⟨v, S, .reply (.raised x)⟩ ∧ ((Driver.escapedError w.store op).2.kind ≠ .stopIteration →
        x = (Driver.escapedError w.store op).2) by
    obtain ⟨v, x, stepped, same⟩ := raised
    refine ⟨v, x, stepped, fun told => ?_⟩
    have names := Driver.names_told told w.store
    exact same names.going ▸ names
  cases refuses with
  | execute =>
      exact Config.step_raising (p := .execute (.abandoning op [])) rfl none S
  | executeAsync h n other =>
      exact Config.step_raising (p := .executeAsync (.abandoning op [])) rfl (some h) S

/-- What a closing raises is raised at once. -/
theorem breaks (refuses : Refuses g op a b) (w : World G) (S : List (Activation G))
    (rest : List Val) (x : Exc) :
    ∃ v y, Config.step ⟨w, b rest :: S, .reply (.raised x)⟩ = .ok ⟨v, S, .reply (.raised y)⟩ ∧
      (x.kind ≠ .stopIteration → y = x) := by
  cases refuses with
  | execute =>
      exact Config.step_raising (p := .execute (.abandoning op rest)) rfl none S
  | executeAsync h n other =>
      exact Config.step_raising (p := .executeAsync (.abandoning op rest)) rfl (some h) S

end Activation.Refuses

/--
A driver that gives up is left with an exception: with what a closing has raised, or in
the end with the error for what it could not answer.
-/
inductive Driver.Left (op : Val) (b : List Val → Activation G) (S : List (Activation G))
    (e : Config G) (x : Exc) : Prop
  | broken {y : Exc} (rest : List Val) (stack : e.stack = b rest :: S)
      (signal : e.signal = .reply (.raised y)) (same : y.kind ≠ .stopIteration → x = y)
  | closed {v : Val} (stack : e.stack = b [] :: S) (signal : e.signal = .reply (.value v))
      (names : op.Told → Names op x)

/-- From then on a driver closes what is left, until it is left itself. -/
def Driver.GivesUp (op : Val) (b : List Val → Activation G) (S : List (Activation G))
    (later : Trace G) (d : Config G) : Prop :=
  (∃ above rest, d.stack = above ++ b rest :: S) ∨
    ∃ e ∈ later, ∃ u x, e.step = .ok ⟨u, S, .reply (.raised x)⟩ ∧ Driver.Left op b S e x

/-- A driver that gives up goes on so. -/
theorem Driver.GivesUp.step {g : Gen} {op : Val} {a : Activation G} {b : List Val → Activation G}
    {S : List (Activation G)} {later : Trace G} (gives_up : GivesUp op b S later c)
    (refuses : a.Refuses g op b) (attended : Attended trace c) (stepped : c.step = .ok d) :
    GivesUp op b S (c :: later) d := by
  rcases gives_up with ⟨above, rest, stack⟩ | ⟨e, mem, left⟩
  · have moves := Config.moves_step stepped
    cases above with
    | cons z above =>
        obtain ⟨top, same⟩ := moves.suffix.1
        refine .inl ⟨top ++ above, rest, ?_⟩
        rw [← same, stack]
        simp
    | nil =>
        obtain ⟨w, _, signal⟩ := c
        subst stack
        cases signal with
        | reply r =>
            cases r with
            | yielded v =>
                obtain ⟨h, same, -⟩ := attended.hears _ _ rfl (refuses.hears rest) v rfl
                contradiction
            | raised x =>
                obtain ⟨u, y, stepped', same⟩ := refuses.breaks w S rest x
                exact .inr ⟨_, .head _, u, y, stepped', .broken rest rfl rfl same⟩
            | value u =>
                cases rest with
                | nil =>
                    obtain ⟨v, x, stepped', names⟩ := refuses.raises w S u
                    exact .inr ⟨_, .head _, v, x, stepped', .closed rfl rfl names⟩
                | cons v rest =>
                    obtain ⟨signal, stepped', -⟩ := refuses.closes w S u v rest
                    cases stepped.symm.trans stepped'
                    exact .inl ⟨[], rest, rfl⟩
        | _ =>
            obtain ⟨top, same⟩ := moves.suffix.2 nofun
            exact .inl ⟨top, rest, same.symm⟩
  · exact .inr ⟨e, .tail _ mem, left⟩

/-- What a driver cannot answer is the last that it is told. -/
theorem RunOf.gives_up (genuine : ∀ trace c, rule trace c → Genuine trace c) {g : Gen} {op : Val}
    {a : Activation G} {b : List Val → Activation G} {S : List (Activation G)}
    (refuses : a.Refuses g op b) (stack : c.stack = a :: S)
    (signal : c.signal = .reply (.yielded op)) (later : Trace G) {d : Config G}
    (run : RunOf rule (later ++ c :: trace) d) : Driver.GivesUp op b S later d := by
  induction later generalizing d with
  | nil =>
      cases run with
      | step before lawful stepped =>
          obtain ⟨w, _, _⟩ := c
          subst stack signal
          obtain ⟨v, rest, signal, -, stepped', -⟩ := refuses.begins w S
          cases stepped.symm.trans stepped'
          exact .inl ⟨[], rest, rfl⟩
  | cons e later ih =>
      cases run with
      | step before lawful stepped =>
          exact (ih before).step refuses (before.driving genuine).toAttended stepped

end OneShot
