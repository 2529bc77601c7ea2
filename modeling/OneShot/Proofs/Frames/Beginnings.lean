import OneShot.Proofs.Frames.Delegation

/-!
# How routines of the library begin and wait

A call of the library begins with one of a few processes.  Of those that come later,
few ever wait in a generator: for the answer to what they have yielded, or for what
they have run in their place.
-/

namespace OneShot

variable {G : Guest} {trace : Trace G} {c d : Config G}

namespace Process

/-- A process that a call begins with. -/
def young : Process → Bool
  | .machine _ .start | .execute (.start _) | .executeAsync (.start _) | .loop (.start _) => true
  | .gather (.start _) | .state (.start ..) | .awaitClause (.start ..) => true
  | .asking _ | .performing .. | .calling _ | .applying .. | .entering _ | .stepping .. => true
  | .yielding _ | .throwing .. | .collect .. | .collected .. | .closing _ | .launching _ => true
  | .racing .. => true
  | _ => false

/-- A process that may be found where a generator is suspended. -/
def sleeps : Process → Bool
  | .passing | .entered | .yielded | .launched | .machine .. => true
  | .awaitClause (.waiting _) | .executeAsync (.pausing ..) => true
  | _ => false

/-- A process that may go on so after it has yielded `v`. -/
def sleepsWith (v : Val) : Process → Bool
  | .awaitClause (.waiting _) =>
    match v with
    | .escape .. => true
    | _ => false
  | p => p.sleeps

/-- A process that may be found where a generator has another one run in its place. -/
def leans : Process → Bool
  | .passing | .entered | .yielded | .launched | .machine .. => true
  | .state (.stepping _) | .awaitClause .delegating | .executeAsync (.awaiting ..) => true
  | _ => false

end Process

/-! ## What a call begins with -/

/-- What a call begins is young. -/
def Start.Young : Start → Prop
  | .enter p | .spawn _ _ p => p.young = true
  | _ => True

section Calls

theorem Start.young_ofChange (a : Change Val) (s : Store) : (ofChange a s).2.Young := by
  unfold ofChange
  split <;> trivial

theorem Cont.young_request (s : Store) (k : Cont) (value error : Val) (text : Store → String) :
    (k.request s value error text).2.Young := by
  unfold request
  split
  · trivial
  · rfl

theorem Purpose.young_start (p : Purpose) (s : Store) (v : Val) : (p.start s v).2.Young := by
  unfold start
  split <;> first | rfl | trivial

theorem Handler.young_start (s : Store) (onReturn table : Val) :
    (Handler.start s onReturn table).2.Young := by
  unfold start
  split
  · rfl
  · exact Start.young_ofChange _ _

theorem Computation.young_convert (s : Store) (c : Val) : (convert s c).2.Young := by
  unfold convert
  split
  · trivial
  · split <;> first | rfl | trivial

theorem RecordKind.young_start (s : Store) (r : RecordKind) (args : List Val) :
    (r.start s args).2.Young := by
  unfold RecordKind.start
  split <;> first
    | exact Purpose.young_start _ _ _
    | exact Handler.young_start _ _ _
    | exact Start.young_ofChange _ _

theorem Service.young_startLoop (s : Store) {p : Process} (young : p.young = true) :
    (startLoop s p).2.Young := by
  unfold startLoop
  split
  · trivial
  · exact young

theorem Service.young_run (s : Store) (v : Val) (args : List Val) : (run s v args).2.Young := by
  unfold run
  split <;> first | rfl | trivial

theorem Service.young_start (s : Store) (f : Service) (args : List Val) :
    (f.start s args).2.Young := by
  unfold start
  split <;> first
    | rfl
    | trivial
    | exact RecordKind.young_start _ _ _
    | exact Handler.young_start _ _ _
    | exact Computation.young_convert _ _
    | exact Service.young_startLoop _ rfl
    | exact Service.young_run _ _ _
    | exact Purpose.young_start _ _ _
    | exact Cont.young_request _ _ _ _ _
    | (split <;> first | rfl | trivial)

theorem Native.young_start (s : Store) (f : Native) (args : List Val) :
    (f.start s args).2.Young := by
  cases f with
  | op o => exact Start.young_ofChange _ _
  | service f => exact Service.young_start s f args
  | report k =>
      unfold Native.start
      split
      · trivial
      · dsimp only
        cases Report.ofKind k args <;> trivial
  | _ =>
      unfold Native.start
      split
      · trivial
      · split <;> first
          | contradiction
          | trivial
          | rfl
          | (split <;> trivial)

/-- The call of anything but a function of the program begins with a young process. -/
theorem young_invoke (s : Store) (f : Val) (args : List Val) (caller : Caller) :
    (invoke s f args caller).2.Young := by
  cases f with
  | native f => exact Native.young_start s f args
  | cont k =>
      simp only [invoke]
      split
      · trivial
      · exact Cont.young_request _ _ _ _ _
  | handler h =>
      simp only [invoke]
      split
      · trivial
      · rfl
  | _ => trivial

end Calls

namespace Config

/-- The call of a function does not touch the activations that there are. -/
theorem call_cases (w : World G) (stack : List (Activation G)) (f : Val) (args : List Val)
    (caller : Caller) {d : Config G} (made : d = call w stack f args caller) :
    (d.stack = stack ∧ (d.world.gens = w.gens ∨
      ∃ p : Routine G, d.world.gens = w.gens.push (.fresh p) ∧ ∀ q, p = .library q → q.young = true)) ∨
    (d.world.gens = w.gens ∧
      ∃ p : Routine G, d.stack = .calling p :: stack ∧ ∀ q, p = .library q → q.young = true) := by
  subst made
  by_cases closure : ∃ id name, f = .closure id name
  · obtain ⟨id, name, rfl⟩ := closure
    simp only [call]
    split
    · exact .inr ⟨rfl, _, rfl, by simp⟩
    · exact .inl ⟨rfl, .inr ⟨_, rfl, by simp⟩⟩
    · exact .inl ⟨rfl, .inl rfl⟩
  · have young := young_invoke w.store f args caller
    unfold call
    split
    · exact absurd ⟨_, _, rfl⟩ closure
    · dsimp only
      cases begun : (invoke w.store f args caller).2 with
      | enter p =>
          rw [begun] at young
          exact .inr ⟨rfl, _, rfl, fun q same => by cases same; exact young⟩
      | spawn kind name p =>
          rw [begun] at young
          exact .inl ⟨rfl, .inr ⟨_, rfl, fun q same => by cases same; exact young⟩⟩
      | _ => exact .inl ⟨rfl, .inl rfl⟩

end Config

/-! ## How processes wait -/

/-- Closing something is neither a suspension nor a delegation. -/
theorem Ask.closing_cases (v : Val) : (∃ g, closing v = .close g) ∨ ∃ f args, closing v = .call f args := by
  unfold closing
  split
  · exact .inl ⟨_, rfl⟩
  · exact .inr ⟨_, _, rfl⟩

namespace Process

/-- A turn leaves a process to wait in one of the few ways, if it leaves it to wait. -/
def Patient : Turn Process → Prop
  | .ask (.yield v _) q => q.sleepsWith v = true
  | .ask (.delegate _) q | .ask (.await _) q => q.leans = true
  | _ => True

theorem sleeps_of_sleepsWith {v : Val} {p : Process} (h : p.sleepsWith v = true) :
    p.sleeps = true := by
  unfold sleepsWith at h
  split at h <;> first | rfl | contradiction | exact h

theorem patient_closing (v : Val) (q : Process) : Patient (.ask (.closing v) q) := by
  rcases Ask.closing_cases v with ⟨g, same⟩ | ⟨f, args, same⟩ <;> rw [same] <;> trivial

theorem patient_abandon {σ : Type} (f : σ → Process) (waiting : List Val → σ) (s : Store) (op : Val)
    (contents : List Val) : Patient ((Driver.abandon waiting s op contents).2.map f) := by
  cases contents with
  | nil => trivial
  | cons v rest => exact patient_closing v _

theorem patient_execute (s : Store) (p : Execute.Phase) (r : Reply) :
    Patient ((Execute.step s p r).2.map .execute) := by
  unfold Execute.step
  split <;> first
    | exact patient_abandon _ _ _ _ _
    | trivial

theorem patient_executeAsync (s : Store) (p : ExecuteAsync.Phase) (r : Reply) :
    Patient ((ExecuteAsync.step s p r).2.map .executeAsync) := by
  unfold ExecuteAsync.step ExecuteAsync.awaitFailed
  split <;> first
    | exact patient_abandon _ _ _ _ _
    | trivial
    | (split <;> trivial)

theorem patient_gather (s : Store) (p : Gather.Phase) (r : Reply) :
    Patient ((Gather.step s p r).2.map .gather) := by
  have next (t : Store) (p : Gather.Progress) : Patient ((Gather.next t p).2.map .gather) := by
    unfold Gather.next
    split <;> trivial
  unfold Gather.step
  split <;> exact next _ _

theorem patient_state (s : Store) (p : StateLoop.Phase) (r : Reply) :
    Patient ((StateLoop.step s p r).2.map .state) := by
  unfold StateLoop.step StateLoop.answer
  split <;> first
    | trivial
    | (split <;> first
        | trivial
        | (split <;> trivial))

theorem patient_awaitClause (s : Store) (p : AwaitClause.Phase) (r : Reply) :
    Patient ((AwaitClause.step s p r).2.map .awaitClause) := by
  unfold AwaitClause.step
  split <;> first
    | trivial
    | (split <;> trivial)

theorem patient_machine (m : Nat) (turn : Turn Machine.Phase) : Patient (turn.map (.machine m)) := by
  cases turn with
  | ask a p => cases a <;> trivial
  | _ => trivial

theorem patient_use (s : Store) (vs : List Val) (p : Purpose) : Patient (use s vs p).2 := by
  have answered (a : Change Val) : Patient (ofChange a s).2 := by
    unfold ofChange
    split <;> trivial
  have closed (vs : List Val) : Patient (closeNext s vs).2 := by
    cases vs with
    | nil => trivial
    | cons v rest => exact patient_closing v _
  cases p with
  | arguments record effect rest => exact answered _
  | frames k => trivial
  | clauses onReturn =>
      unfold use ofChange
      dsimp only
      split <;> trivial
  | closing => exact closed _

/-- Processes are patient. -/
theorem patient_step (s : Store) (p : Process) (r : Reply) :
    Patient (step s p r).2 := by
  have closed (t : Store) (vs : List Val) : Patient (closeNext t vs).2 := by
    cases vs with
    | nil => trivial
    | cons v rest => exact patient_closing v _
  have raced (t : Store) (k : Val) (won lost n : Nat) (outer : Bool) :
      Patient (raceNext t k won lost outer n).2 := by
    cases n <;> trivial
  cases p with
  | machine m phase => exact patient_machine m _
  | execute phase => exact patient_execute s phase r
  | executeAsync phase => exact patient_executeAsync s phase r
  | loop phase => cases phase <;> cases r <;> trivial
  | gather phase => exact patient_gather s phase r
  | state phase => exact patient_state s phase r
  | awaitClause phase => exact patient_awaitClause s phase r
  | asking a => cases a <;> trivial
  | entering a => cases a <;> trivial
  | yielding a => cases a <;> trivial
  | launching a => cases a <;> trivial
  | racing k n => exact raced _ _ _ _ _ _
  | raced k n won lost outer => cases r <;> first | trivial | exact raced _ _ _ _ _ _
  | closing contents => cases r <;> first | trivial | exact closed _ _
  | collected vs purpose => exact patient_use s vs purpose
  | collecting g seen purpose =>
      cases r with
      | value v => exact patient_use s _ purpose
      | yielded v =>
          unfold step
          dsimp only
          split <;> trivial
      | raised x => trivial
  | converting =>
      cases r <;> first
        | trivial
        | (unfold step; dsimp only; split <;> trivial)
  | applied h t =>
      cases r with
      | value v => cases v <;> trivial
      | _ => trivial
  | launched =>
      cases r with
      | value v => cases v <;> trivial
      | _ => trivial
  | stepped =>
      unfold step
      dsimp only
      split <;> trivial
  | _ => cases r <;> trivial

end Process

/-! ## Places -/

/-- Generators are made only by calls. -/
theorem Moves.call_of_spawn (moves : Moves c d) (more : c.world.gens.size < d.world.gens.size) :
    ∃ f args caller, c.signal = .call f args caller := by
  cases moves with
  | answers | enters | spawns | forwards => exact ⟨_, _, _, rfl⟩
  | goes stack stepped answer => exact absurd more (by simp [Routine.step_gens stepped])
  | delegates stepped passes => exact absurd more (by simp [Routine.step_gens stepped])
  | suspends stepped => exact absurd more (by simp [World.setStatus, Routine.step_gens stepped])
  | ends stepped ending quiet final =>
      exact absurd more (by simp [World.setStatus, Routine.step_gens stepped])
  | returns stepped ending quiet final => exact absurd more (by simp [Routine.step_gens stepped])
  | _ => exact absurd more (by simp [World.setStatus])

/-- Processes are found where they may be. -/
structure Placed (c : Config G) : Prop where
  fresh : ∀ (i : Nat) (q : Process),
    c.world.gens[i]? = some (.fresh (.library q)) → q.young = true
  suspended : ∀ (i : Nat) (q : Process) (how : Suspension),
    c.world.gens[i]? = some (.suspended (.library q) how) → q.sleeps = true
  delegating : ∀ (i : Nat) (q : Process) (e : Gen),
    c.world.gens[i]? = some (.delegating (.library q) e) → q.leans = true
  relaying : ∀ g q e, .relaying g (.library q) e ∈ c.stack → q.leans = true
  exiting : ∀ g q x, .exiting g (.library q) x ∈ c.stack → q.leans = true

namespace Placed

theorem of_fresh (fresh : c.Fresh) : Placed c := by
  constructor <;> simp [fresh.gens, fresh.stack]

/-- The turn of a routine that is a process of the library afterwards. -/
theorem patient {w : World G} {p : Routine G} {r : Reply} {a : Ask} {q : Process}
    (turn : (p.step w r).2 = .ask a (.library q)) : Process.Patient (.ask a q) := by
  cases p with
  | guest b =>
      obtain ⟨b', -, same⟩ := Turn.map_eq_ask turn
      cases same
  | library p =>
      obtain ⟨q', turn', same⟩ := Turn.map_eq_ask turn
      cases same
      exact turn' ▸ Process.patient_step w.store p r

theorem step (placed : Placed c) (active : c.Active) (stepped : c.step = .ok d) : Placed d where
  fresh i q there := by
    have moves := Config.moves_step stepped
    rcases moves.sets active there with same | sets
    · exact placed.fresh i q same
    · cases sets with
      | spawned p new =>
          subst new
          have inside := (Array.getElem?_eq_some_iff.1 there).1
          obtain ⟨f, args, caller, signal⟩ := moves.call_of_spawn inside
          obtain ⟨w, stack, _⟩ := c
          cases signal
          cases stepped
          rcases Config.call_cases w stack f args caller rfl with ⟨-, same | ⟨p, same, young⟩⟩ | ⟨same, -⟩
          · exact absurd inside (by simp [same])
          · simp only [same, Array.getElem?_push_size, Option.some.injEq, Status.fresh.injEq] at there
            exact young q there
          · exact absurd inside (by simp [same])
  suspended i q how there := by
    rcases (Config.moves_step stepped).sets active there with same | sets
    · exact placed.suspended i q how same
    · cases sets with
      | suspends stack signal turn same => exact Process.sleeps_of_sleepsWith (patient turn)
  delegating i q e there := by
    rcases (Config.moves_step stepped).sets active there with same | sets
    · exact placed.delegating i q e same
    · cases sets with
      | hands stack signal same => exact placed.relaying _ q e (by rw [stack]; exact .head _)
  relaying g q e mem := by
    rcases Config.pushes_step stepped mem with before | pushes
    · exact placed.relaying g q e before
    · cases pushes with
      | relays status => exact placed.delegating _ q e (World.getElem?_of_status status (by simp))
      | delegates stack signal turn passes made =>
          have patient := patient turn
          rcases passes with ⟨u, rfl⟩ | ⟨u, rfl⟩ <;> exact patient
  exiting g q x mem := by
    rcases Config.pushes_step stepped mem with before | pushes
    · exact placed.exiting g q x before
    · cases pushes with
      | exits x status => exact placed.delegating _ q _ (World.getElem?_of_status status (by simp))

end Placed

/-- In every run, processes are found where they may be. -/
theorem RunOf.placed {rule : Trace G → Config G → Prop}
    (genuine : ∀ trace c, rule trace c → Genuine trace c) (run : RunOf rule trace c) :
    Placed c := by
  induction run with
  | start fresh => exact .of_fresh fresh
  | step before lawful stepped ih => exact ih.step (before.standing genuine).active stepped

end OneShot
