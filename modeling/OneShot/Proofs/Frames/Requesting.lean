import OneShot.Proofs.Frames.Poise

/-!
# Requests

Whoever resumes a continuation gets a generator that yields the request for its frames,
which it does once.  As long as nothing else yields that request, a machine receives
none that was not made, and none again.
-/

namespace OneShot

variable {G : Guest} {rule : Trace G → Config G → Prop} {trace : Trace G} {c d : Config G}

/-- The request that a process is going to yield. -/
def Process.posed? : Process → Option (Nat × Cont)
  | .asking (.yield v _) => v.resumed?
  | _ => none

def Routine.posed? : Routine G → Option (Nat × Cont)
  | .library p => p.posed?
  | .guest _ => none

/-- A routine other than its own yields a request. -/
def Config.repeats (c : Config G) : Bool :=
  match c.stack, c.yields? with
  | .running _ p :: _, some (_, .resumption _ _) => p.posed?.isNone
  | _, _ => false

/--
What the program does next builds no record of the engine and hands no generator over
again, and what it yields is no request or resend that it got hold of.
-/
structure Sparing (trace : Trace G) (c : Config G) : Prop extends Genuine trace c where
  framed : ∀ g, c.framed? = some g → g.id ∉ trace.framed
  forwards : c.forwards = false
  repeats : c.repeats = false

theorem sparing_iff : Sparing trace c ↔ Genuine trace c ∧
    (∀ g ∈ c.framed?, g.id ∉ trace.framed) ∧ c.forwards = false ∧ c.repeats = false :=
  ⟨fun ⟨genuine, framed, forwards, repeats⟩ => ⟨genuine, framed, forwards, repeats⟩,
    fun ⟨genuine, framed, forwards, repeats⟩ => ⟨genuine, framed, forwards, repeats⟩⟩

instance (trace : Trace G) (c : Config G) : Decidable (Sparing trace c) :=
  decidable_of_iff _ sparing_iff.symm

/-! ## Where requests come from -/

namespace Process

theorem posed?_use {s : Store} {vs : List Val} {p : Purpose} {q : Process}
    (h : (use s vs p).2.next? = some q) : q.posed? = none := by
  cases p with
  | arguments r effect rest =>
      have ends := next?_ofChange (Record.invocation r effect vs rest) s
      exact absurd (ends.symm.trans h) (by simp)
  | frames k => cases h
  | clauses onReturn =>
      have ends := next?_ofChange (Handler.make onReturn (s.newTable []).2) (s.newTable []).1
      exact absurd (ends.symm.trans h) (by simp)
  | closing =>
      change (closeNext s _).2.next? = some q at h
      unfold closeNext at h
      split at h <;> cases h
      rfl

/-- No process goes on to yield a request. -/
theorem posed?_step {s : Store} {p q : Process} {r : Reply} (h : (step s p r).2.next? = some q) :
    q.posed? = none := by
  have raced {t : Store} {k : Val} {won lost n : Nat} {outer : Bool}
      (h : (raceNext t k won lost outer n).2.next? = some q) : q.posed? = none := by
    cases n <;> cases h
    rfl
  cases p with
  | machine m phase =>
      obtain ⟨p, -, rfl⟩ := Turn.next?_map h
      rfl
  | execute phase =>
      obtain ⟨p, -, rfl⟩ := Turn.next?_map h
      rfl
  | executeAsync phase =>
      obtain ⟨p, -, rfl⟩ := Turn.next?_map h
      rfl
  | loop phase =>
      obtain ⟨p, -, rfl⟩ := Turn.next?_map h
      rfl
  | gather phase =>
      obtain ⟨p, -, rfl⟩ := Turn.next?_map h
      rfl
  | state phase =>
      obtain ⟨p, -, rfl⟩ := Turn.next?_map h
      rfl
  | awaitClause phase =>
      obtain ⟨p, -, rfl⟩ := Turn.next?_map h
      rfl
  | stepped =>
      simp only [step] at h
      split at h <;> cases h
  | converting =>
      cases r <;> simp only [step] at h <;> first | cases h | (split at h <;> cases h)
  | applied i t =>
      cases r with
      | value v =>
          cases v <;> cases h
          rfl
      | _ => cases h
  | collecting g seen purpose =>
      cases r with
      | value v => exact posed?_use h
      | yielded v =>
          simp only [step] at h
          split at h <;> cases h
          rfl
      | raised x => cases h
  | collected vs purpose => exact posed?_use h
  | closing contents =>
      cases r with
      | value v =>
          change (closeNext s contents).2.next? = some q at h
          cases contents <;> cases h
          rfl
      | _ => cases h
  | launched =>
      cases r with
      | value v =>
          cases v <;> cases h
          rfl
      | _ => cases h
  | racing k n => exact raced h
  | raced k n won lost outer =>
      cases r with
      | value v => exact raced h
      | yielded v => cases h
      | raised x => exact raced h
  | _ => cases r <;> cases h <;> rfl

end Process

/-- What a call begins yields no request. -/
def Start.Unposed : Start → Prop
  | .enter p | .spawn _ _ p => p.posed? = none
  | _ => True

section Calls

theorem Start.unposed_ofChange (a : Change Val) (s : Store) : (ofChange a s).2.Unposed := by
  unfold ofChange
  split <;> trivial

theorem Purpose.unposed_start (p : Purpose) (s : Store) (v : Val) : (p.start s v).2.Unposed := by
  unfold start
  split <;> first | rfl | trivial

theorem Handler.unposed_start (s : Store) (onReturn table : Val) :
    (Handler.start s onReturn table).2.Unposed := by
  unfold start
  split
  · rfl
  · exact Start.unposed_ofChange _ _

theorem Computation.unposed_convert (s : Store) (c : Val) : (convert s c).2.Unposed := by
  unfold convert
  split
  · trivial
  · split <;> first | rfl | trivial

theorem RecordKind.unposed_start (s : Store) (r : RecordKind) (args : List Val) :
    (r.start s args).2.Unposed := by
  unfold RecordKind.start
  split <;> first
    | exact Purpose.unposed_start _ _ _
    | exact Handler.unposed_start _ _ _
    | exact Start.unposed_ofChange _ _

theorem Service.unposed_startLoop (s : Store) {p : Process} (unposed : p.posed? = none) :
    (startLoop s p).2.Unposed := by
  unfold startLoop
  split
  · trivial
  · exact unposed

theorem Service.unposed_run (s : Store) (v : Val) (args : List Val) : (run s v args).2.Unposed := by
  unfold run
  split <;> first | rfl | trivial

theorem Service.unposed_start (s : Store) (f : Service) (args : List Val) {caller : Caller}
    (unmade : (Signal.call (.native (.service f)) args caller).request? = none) :
    (f.start s args).2.Unposed := by
  unfold start
  split <;> first
    | rfl
    | trivial
    | contradiction
    | exact RecordKind.unposed_start _ _ _
    | exact Handler.unposed_start _ _ _
    | exact Computation.unposed_convert _ _
    | exact Service.unposed_startLoop _ rfl
    | exact Service.unposed_run _ _ _
    | exact Purpose.unposed_start _ _ _
    | (split <;> first | rfl | trivial)

theorem Native.unposed_start (s : Store) (f : Native) (args : List Val) {caller : Caller}
    (unmade : (Signal.call (.native f) args caller).request? = none) :
    (f.start s args).2.Unposed := by
  cases f with
  | op o => exact Start.unposed_ofChange _ _
  | service f => exact Service.unposed_start s f args unmade
  | report k =>
      unfold Native.start
      split
      · trivial
      · dsimp only
        cases Report.ofKind k args <;> trivial
  | _ =>
      unfold Native.start
      split
      · trivial
      · split <;> first
          | contradiction
          | trivial
          | rfl
          | (split <;> trivial)

/-- A call that makes no request begins nothing that yields one. -/
theorem unposed_invoke (s : Store) (f : Val) (args : List Val) {caller : Caller}
    (unmade : (Signal.call f args caller).request? = none) :
    (invoke s f args caller).2.Unposed := by
  cases f with
  | native f => exact Native.unposed_start s f args unmade
  | cont k =>
      simp only [invoke]
      split
      · trivial
      · rename_i fits
        rcases args with - | ⟨v, - | ⟨w, rest⟩⟩
        · cases unmade
        · cases unmade
        · cases fits
  | handler h =>
      simp only [invoke]
      split
      · trivial
      · rfl
  | _ => trivial

end Calls

namespace Config

/-- A call that makes no request makes no generator that yields one. -/
theorem unposed_call {w : World G} {stack : List (Activation G)} {f : Val} {args : List Val}
    {caller : Caller} (unmade : (Signal.call f args caller).request? = none) {p : Routine G}
    (there : (call w stack f args caller).world.gens[w.gens.size]? = some (.fresh p)) :
    p.posed? = none := by
  have none_made (u : World G) (same : u.gens = w.gens) :
      u.gens[w.gens.size]? = none := by rw [same]; exact Array.getElem?_eq_none (Nat.le_refl _)
  have made {r : Routine G}
      (there : (w.gens.push (.fresh r))[w.gens.size]? = some (.fresh p)) : p = r := by
    simpa [eq_comm] using there
  by_cases closure : ∃ id name, f = .closure id name
  · obtain ⟨id, name, rfl⟩ := closure
    simp only [call] at there
    split at there
    · cases (none_made _ rfl).symm.trans there
    · rw [made there]
      rfl
    · cases (none_made _ rfl).symm.trans there
  · have unposed := unposed_invoke w.store f args unmade
    unfold call at there
    split at there
    · exact absurd ⟨_, _, rfl⟩ closure
    · dsimp only at there
      cases begun : (invoke w.store f args caller).2 with
      | spawn kind name q =>
          rw [begun] at there unposed
          rw [made there]
          exact unposed
      | _ =>
          rw [begun] at there
          cases (none_made _ rfl).symm.trans there

/-- The call that makes a request gives a new generator that yields it. -/
theorem step_of_requested {q : Nat × Cont} (requested : c.requested? = some q)
    (stepped : c.step = .ok d) : q.1 = c.world.store.nextId ∧ d.stack = c.stack ∧
      c.world.store.nextId < d.world.store.nextId ∧
      ∃ p : Routine G, d.world.gens = c.world.gens.push (.fresh p) ∧ p.posed? = some q := by
  obtain ⟨w, stack, signal⟩ := c
  obtain ⟨⟨r, made, same⟩, pending⟩ := requested?_eq_some requested
  have number : q.1 = w.store.nextId := by
    simp only [requested?, Option.bind_eq_some_iff] at requested
    obtain ⟨r', -, here⟩ := requested
    split at here
    · contradiction
    · cases here
      rfl
  cases signal with
  | call f args caller =>
      obtain ⟨plain, text, called⟩ := Signal.invoke_of_request made w.store
      rw [← same] at pending
      have spawned := Cont.request_of_pending pending r.value r.error text
      have counts : (r.cont.request w.store r.value r.error text).1.nextId = w.store.nextId + 1 := by
        have won : w.store.take r.cont = ((w.store.take r.cont).1, true) :=
          Prod.ext rfl (by simp [pending])
        unfold Cont.request
        rw [won]
        change (Store.note _ _ _).nextId + 1 = _
        rw [Store.nextId_note, Store.nextId_take]
      cases stepped
      have after := call_of_spawn w stack plain (called.trans (Prod.ext rfl spawned))
      rw [after]
      refine ⟨number, rfl, ?_, _, rfl, ?_⟩
      · change w.store.nextId < (r.cont.request w.store r.value r.error text).1.nextId
        omega
      · rw [← number, same]
        rfl
  | _ => contradiction

end Config

/-! ## What is known of requests -/

/-- The generator with the number `i` yields a request when it is run. -/
inductive Poses (c : Config G) (i : Nat) (q : Nat × Cont) : Prop
  | waits {p : Routine G} (there : c.world.gens[i]? = some (.fresh p)) (posed : p.posed? = some q)
  | runs {g : Gen} {p : Routine G} (mem : .running g p ∈ c.stack) (same : g.id = i)
      (posed : p.posed? = some q)

theorem Routine.posed?_eq_some {p : Routine G} {q : Nat × Cont} (h : p.posed? = some q) :
    ∃ v how, p = .library (.asking (.yield v how)) ∧ v.resumed? = some q := by
  unfold posed? at h
  split at h
  · unfold Process.posed? at h
    split at h
    · exact ⟨_, _, rfl, h⟩
    · contradiction
  · contradiction

/-- What yields a request after a step did so before, or was made for it now. -/
theorem Poses.before {i : Nat} {q : Nat × Cont} (poses : Poses d i q) (standing : Standing trace c)
    (placed : Placed c) (stepped : c.step = .ok d) :
    Poses c i q ∨ c.requested? = some q ∧ i = c.world.gens.size := by
  have moves := Config.moves_step stepped
  cases poses with
  | @waits p there posed =>
      rcases moves.sets standing.active there with before | sets
      · exact .inl (.waits before posed)
      · cases sets with
        | spawned p new =>
            subst new
            have more := (Array.getElem?_eq_some_iff.1 there).1
            cases requested : c.requested? with
            | some q' =>
                obtain ⟨-, -, -, p', gens, posed'⟩ := Config.step_of_requested requested stepped
                rw [gens, Array.getElem?_push_size] at there
                cases there
                exact .inr ⟨posed'.symm.trans posed, rfl⟩
            | none =>
                obtain ⟨f, args, caller, signal⟩ := moves.call_of_spawn more
                obtain ⟨w, stack, _⟩ := c
                cases signal
                cases stepped
                cases made : (Signal.call f args caller).request? with
                | none =>
                    rw [Config.unposed_call made there] at posed
                    contradiction
                | some r =>
                    -- the continuation is taken, so that the call is refused
                    have taken : w.store.isTaken r.cont = true := by
                      by_contra pending
                      simp [Config.requested?, made, pending] at requested
                    have refused := Config.call_of_isTaken (Signal.taken?_of_request made) taken stack
                    rw [refused] at more
                    exact absurd more (by simp)
  | @runs g p mem same posed =>
      rcases Config.pushes_step stepped mem with before | pushes
      · exact .inl (.runs before same posed)
      · obtain ⟨v, how, rfl, -⟩ := Routine.posed?_eq_some posed
        cases pushes with
        | enters status =>
            rcases status with fresh | ⟨how, suspended⟩
            · refine .inl (.waits ?_ posed)
              rw [← same]
              exact World.getElem?_of_status fresh (by simp)
            · have sleeps := placed.suspended _ _ _ (World.getElem?_of_status suspended (by simp))
              contradiction
        | @turns _ p p' r rest stack signal next =>
            cases p with
            | guest b =>
                obtain ⟨b', same⟩ := Routine.next_guest (Prod.eta _).symm next
                cases same
            | library p =>
                obtain ⟨q', same, next⟩ := Routine.next_library (Prod.eta _).symm next
                cases same
                have unposed := Process.posed?_step next
                exact absurd (unposed.symm.trans posed) (by simp)
        | @regains _ e _ rest stack =>
            have leans := placed.relaying g _ e (by rw [stack]; exact .head _)
            contradiction
        | @leaves _ _ x rest stack =>
            have leans := placed.exiting g _ x (by rw [stack]; exact .head _)
            contradiction

/--
Each request that is going to be yielded, or was so just now, is outstanding, and one
generator was made for it.
-/
structure Requesting (trace : Trace G) (c : Config G) : Prop where
  waiting : ∀ i q, Poses c i q → q ∈ trace.outstanding
  numbers : ∀ i q, Poses c i q → q.1 < c.world.store.nextId
  once : ∀ i j q q', Poses c i q → Poses c j q' → q.1 = q'.1 → i = j
  yielded : ∀ g v q, Yields trace g v → v.resumed? = some q →
    q ∈ trace.outstanding ∧ ∀ i q', Poses c i q' → q'.1 ≠ q.1

namespace Requesting

theorem of_fresh (fresh : c.Fresh) : Requesting [] c := by
  have none_there (i : Nat) (q : Nat × Cont) (poses : Poses c i q) : False := by
    cases poses with
    | waits there posed => simp [fresh.gens] at there
    | runs mem same posed => simp [fresh.stack] at mem
  refine ⟨fun i q poses => (none_there i q poses).elim, fun i q poses => (none_there i q poses).elim,
    fun i j q q' poses => (none_there i q poses).elim, fun g v q yields => ?_⟩
  cases yields

/-- A machine is asked for what was requested, and has not been yielded before. -/
theorem pushed (requesting : Requesting trace c) (standing : Standing trace c) {q : Nat × Cont}
    (pushed : c.pushed? = some q) :
    q ∈ trace.outstanding ∧ ∀ i q', Poses c i q' → q'.1 ≠ q.1 := by
  obtain ⟨op, received, resumed⟩ := Option.bind_eq_some_iff.1 pushed
  obtain ⟨_, _, i, _, _, _, -, -, -, yields⟩ := standing.received received
  exact requesting.yielded i op q yields resumed

/-- What a rule says that spares requests is enough to have each one answered once. -/
theorem handed (requesting : Requesting trace c) (standing : Standing trace c)
    (sparing : Sparing trace c) : Handed trace c :=
  ⟨sparing.toGenuine, sparing.framed, fun _ pushed => (requesting.pushed standing pushed).1⟩

/-- The generator that yields a request is the one that was made for it, and it does so once. -/
theorem yielded_step (requesting : Requesting trace c) (standing : Standing trace c)
    (placed : Placed c) (sparing : Sparing trace c) (stepped : c.step = .ok d) {g : Gen} {v : Val}
    {q : Nat × Cont} (yields : Yields (c :: trace) g v) (resumed : v.resumed? = some q) :
    q ∈ Trace.outstanding (c :: trace) ∧ ∀ i q', Poses d i q' → q'.1 ≠ q.1 := by
  -- a suspension neither makes a request nor answers one
  have same {a : Activation G} {rest : List (Activation G)} {r : Reply} (stack : c.stack = a :: rest)
      (signal : c.signal = .reply r) (unmanned : a.machine? = none) :
      Trace.outstanding (c :: trace) = trace.outstanding ∧ c.requested? = none := by
    have unmade : c.requested? = none := by simp [Config.requested?, signal, Signal.request?]
    have unasked : c.pushed? = none := by
      obtain ⟨w, _, _⟩ := c
      cases stack
      cases signal
      simp [Config.pushed?, Config.received?, unmanned]
    exact ⟨Trace.outstanding_of_none unasked unmade, unmade⟩
  cases yields with
  | @itself _ _ _ p p' r rest _ how stack signal turn =>
      have suspends : c.yields? = some (g, v) := by simp [Config.yields?, stack, signal, turn]
      have itself : p.posed? = some q := by
        have own := sparing.repeats
        unfold Val.resumed? at resumed
        split at resumed
        · simp only [Config.repeats, stack, suspends, Option.isNone_eq_false_iff,
            Option.isSome_iff_exists] at own
          obtain ⟨q', posed⟩ := own
          obtain ⟨u, how', rfl, resumed'⟩ := Routine.posed?_eq_some posed
          cases turn
          exact posed.trans (resumed'.symm.trans resumed)
        · contradiction
      have poses : Poses c g.id q := .runs (by rw [stack]; exact .head _) rfl itself
      have unmanned : (Activation.running g p).machine? = none := by
        obtain ⟨u, how', rfl, -⟩ := Routine.posed?_eq_some itself
        rfl
      obtain ⟨outstanding, unmade⟩ := same stack signal unmanned
      refine ⟨outstanding ▸ requesting.waiting _ _ poses, fun i q' poses' equal => ?_⟩
      rcases poses'.before standing placed stepped with before | ⟨now, -⟩
      · have alone := requesting.once _ _ _ _ before poses equal
        subst alone
        -- it has suspended, so that it yields nothing again
        have status := Config.status_of_yield stack signal turn standing.active stepped
        have there := World.getElem?_of_status status (by simp)
        cases poses' with
        | waits fresh posed =>
            rw [there] at fresh
            cases fresh
        | @runs h p mem same posed =>
            have running := Manned.running (standing.active.step (Config.moves_step stepped)) mem rfl
            rw [same, there] at running
            cases running
      · rw [unmade] at now
        contradiction
  | @relayed _ _ _ e p rest _ inner stack signal =>
      obtain ⟨before, apart⟩ := requesting.yielded _ _ _ inner resumed
      obtain ⟨outstanding, unmade⟩ := same stack signal rfl
      refine ⟨outstanding ▸ before, fun i q' poses => ?_⟩
      rcases poses.before standing placed stepped with before | ⟨now, -⟩
      · exact apart i q' before
      · rw [unmade] at now
        contradiction

theorem step (requesting : Requesting trace c) (standing : Standing trace c) (placed : Placed c)
    (sparing : Sparing trace c) (stepped : c.step = .ok d)
    (numbers : c.world.store.nextId ≤ d.world.store.nextId) : Requesting (c :: trace) d where
  waiting i q poses := by
    rcases poses.before standing placed stepped with before | ⟨now, -⟩
    · have mem := requesting.waiting i q before
      cases pushed : c.pushed? with
      | none =>
          rw [Trace.outstanding_of_unasked pushed]
          exact List.mem_append_right _ mem
      | some q' =>
          rw [Trace.outstanding_of_pushed pushed]
          have apart := (requesting.pushed standing pushed).2 i q before
          exact (List.mem_erase_of_ne fun same => apart (congrArg Prod.fst same)).2 mem
    · have unasked : c.pushed? = none := by
        obtain ⟨⟨r, made, -⟩, -⟩ := Config.requested?_eq_some now
        simp [Config.pushed?, (Config.attempt?_of_request made).1]
      rw [Trace.outstanding_of_unasked unasked, now]
      exact List.mem_append_left _ (by simp)
  numbers i q poses := by
    rcases poses.before standing placed stepped with before | ⟨now, -⟩
    · exact Nat.lt_of_lt_of_le (requesting.numbers i q before) numbers
    · obtain ⟨number, -, less, -⟩ := Config.step_of_requested now stepped
      exact number ▸ less
  once i j q q' poses poses' same := by
    have number {q : Nat × Cont} (now : c.requested? = some q) : q.1 = c.world.store.nextId :=
      (Config.step_of_requested now stepped).1
    rcases poses.before standing placed stepped with before | ⟨now, rfl⟩
    · rcases poses'.before standing placed stepped with before' | ⟨now', -⟩
      · exact requesting.once i j q q' before before' same
      · have less := requesting.numbers i q before
        rw [same, number now'] at less
        exact absurd less (Nat.lt_irrefl _)
    · rcases poses'.before standing placed stepped with before' | ⟨-, rfl⟩
      · have less := requesting.numbers j q' before'
        rw [← same, number now] at less
        exact absurd less (Nat.lt_irrefl _)
      · rfl
  yielded g v q yields resumed :=
    requesting.yielded_step standing placed sparing stepped yields resumed

end Requesting

/-! ## Sparing runs -/

/-- What holds all along a run that spares requests. -/
structure Spared (trace : Trace G) (c : Config G) : Prop extends Standing trace c where
  owning : Owning trace c
  requesting : Requesting trace c

theorem Spared.handed (spared : Spared trace c) (sparing : Sparing trace c) : Handed trace c :=
  spared.requesting.handed spared.toStanding sparing

theorem RunOf.spared (run : RunOf Sparing trace c) : Spared trace c := by
  induction run with
  | start fresh => exact ⟨.of_fresh fresh, .of_fresh fresh, .of_fresh fresh⟩
  | @step trace c d before sparing stepped ih =>
      have handed := ih.handed sparing
      have shift := ih.toStanding.shift sparing.toGenuine stepped
      obtain ⟨made, handlers, gains⟩ := ih.owning.gains ih.seated handed shift
      have placed := before.placed fun _ _ sparing => sparing.toGenuine
      exact ⟨ih.toStanding.step sparing.toGenuine stepped, ih.owning.step ih.seated handed stepped,
        ih.requesting.step ih.toStanding placed sparing stepped gains.numbers⟩

/-- What is resent to a machine on such a run was resent by one. -/
theorem RunOf.faithful_of_sparing (run : RunOf Sparing trace c) :
    RunOf Faithful trace c ∧ (Sparing trace c → Faithful trace c) := by
  have quiet : RunOf (fun trace c => Genuine trace c ∧ c.forwards = false) trace c :=
    run.mono fun _ _ sparing => ⟨sparing.toGenuine, sparing.forwards⟩
  obtain ⟨faithful, only⟩ := quiet.faithful
  refine ⟨faithful, fun sparing => ⟨sparing.toGenuine, fun id q received => ?_⟩⟩
  obtain ⟨_, _, _, _, _, _, -, -, -, yields⟩ := run.spared.toStanding.received received
  exact yields.resent only

end OneShot
