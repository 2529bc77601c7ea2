import OneShot.Proofs.Frames.Beginnings

/-!
# Drivers

A driver has a machine made for it, and runs that.  It advances nothing but the
generator of its machine, and so nobody else can yield to it.
-/

namespace OneShot

variable {G : Guest} {rule : Trace G → Config G → Prop} {trace : Trace G} {c d : Config G}

/-! ## What drivers ask for -/

/-- Whether something is asked of the given generator, or of none. -/
def Ask.Of (o : Option Gen) : Ask → Prop
  | .advance g _ => o = some g
  | .call .. | .close _ => o = none
  | _ => False

theorem Ask.of_closing (v : Val) : (closing v).Of none := by
  rcases closing_cases v with ⟨g, same⟩ | ⟨f, args, same⟩ <;> rw [same] <;> rfl

/-- Anything but an escape is the end of what `executeAsync` runs. -/
theorem ExecuteAsync.step_unanswerable {s : Store} {g : Gen} {n : Nat} {op : Val}
    (other : ∀ id action, op ≠ .escape id action) : step s (.running g n) (.yielded op) =
      Driver.abandon (.abandoning op) s op (Driver.abandoned s g op) := by
  cases op <;> first | rfl | exact absurd rfl (other _ _)

namespace Process

def driver : Process → Bool
  | .execute _ | .executeAsync _ => true
  | _ => false

/-- Whether a driver waits for the generator of its machine. -/
def launches : Process → Bool
  | .execute .launching | .executeAsync .launching => true
  | _ => false

/-- The generator of the machine that a driver runs. -/
def driven? : Process → Option Gen
  | .execute (.running g) => some g
  | .executeAsync (.running g _) | .executeAsync (.acting g _) => some g
  | .executeAsync (.awaiting g _) | .executeAsync (.pausing g ..) => some g
  | _ => none

/-- Of which generator a driver has asked something, if it waits on a stack. -/
def hears? : Process → Option (Option Gen)
  | .execute (.running g) | .executeAsync (.running g _) => some (some g)
  | .execute (.abandoning ..) | .executeAsync (.abandoning ..) => some none
  | _ => none

/-- A driver that goes on has asked for something that it waits for accordingly. -/
structure Leads (p : Process) (r : Reply) (a : Ask) (q : Process) : Prop where
  hears : ∀ o, q.hears? = some o → a.Of o
  launches : q.launches = true → ∃ m, a = .call (.native (.service .runMachine)) [.machine m]
  driven : ∀ g, q.driven? = some g →
    p.driven? = some g ∨ p.launches = true ∧ r = .value (.gen g)

section Turns

variable {p q : Process} {s : Store} {r : Reply}

theorem driver_use {vs : List Val} {purpose : Purpose}
    (next : (use s vs purpose).2.next? = some q) : q.driver = false := by
  cases purpose with
  | arguments record effect rest =>
      have ends := next?_ofChange (Record.invocation record effect vs rest) s
      exact absurd (ends.symm.trans next) (by simp)
  | frames k =>
      cases next
  | clauses onReturn =>
      have ends := next?_ofChange (Handler.make onReturn (s.newTable []).2) (s.newTable []).1
      exact absurd (ends.symm.trans next) (by simp)
  | closing =>
      change (closeNext s _).2.next? = some q at next
      unfold closeNext at next
      split at next <;> cases next
      rfl

/-- What goes on as a driver was one. -/
theorem driver_step (next : (step s p r).2.next? = some q) (driver : q.driver = true) :
    p.driver = true := by
  have raced {t : Store} {k : Val} {won lost n : Nat} {outer : Bool}
      (next : (raceNext t k won lost outer n).2.next? = some q) : q.driver = false := by
    cases n <;> cases next
    rfl
  by_contra other
  refine absurd driver (Bool.not_eq_true _ ▸ ?_)
  cases p with
  | execute phase | executeAsync phase => exact absurd rfl other
  | machine m phase =>
      obtain ⟨p, -, rfl⟩ := Turn.next?_map next
      rfl
  | loop phase =>
      obtain ⟨p, -, rfl⟩ := Turn.next?_map next
      rfl
  | gather phase =>
      obtain ⟨p, -, rfl⟩ := Turn.next?_map next
      rfl
  | state phase =>
      obtain ⟨p, -, rfl⟩ := Turn.next?_map next
      rfl
  | awaitClause phase =>
      obtain ⟨p, -, rfl⟩ := Turn.next?_map next
      rfl
  | stepped =>
      simp only [step] at next
      split at next <;> cases next
  | converting =>
      cases r <;> simp only [step] at next <;> first | cases next | (split at next <;> cases next)
  | applied h t =>
      cases r with
      | value v =>
          cases v <;> cases next
          rfl
      | _ => cases next
  | collecting g seen purpose =>
      cases r with
      | value v => exact driver_use next
      | yielded v =>
          simp only [step] at next
          split at next <;> cases next
          rfl
      | raised x => cases next
  | collected vs purpose => exact driver_use next
  | closing contents =>
      cases r with
      | value v =>
          change (closeNext s contents).2.next? = some q at next
          cases contents <;> cases next
          rfl
      | _ => cases next
  | launched =>
      cases r with
      | value v =>
          cases v <;> cases next
          rfl
      | _ => cases next
  | racing k n => exact raced next
  | raced k n won lost outer =>
      cases r with
      | value v => exact raced next
      | yielded v => cases next
      | raised x => exact raced next
  | _ => cases r <;> cases next <;> rfl

theorem Leads.of_idle {a : Ask} (hears : q.hears? = none) (launches : q.launches = false)
    (driven : ∀ g, q.driven? = some g → p.driven? = some g) : Leads p r a q := by
  refine ⟨by simp [hears], by simp [launches], fun g here => .inl (driven g here)⟩

theorem leads_abandon {σ : Type} {waiting : List Val → σ} {inject : σ → Process} {op : Val}
    {contents : List Val} (abandoning : ∀ rest, (inject (waiting rest)).hears? = some none ∧
      (inject (waiting rest)).launches = false ∧ (inject (waiting rest)).driven? = none)
    (next : ((Driver.abandon waiting s op contents).2.map inject).next? = some q) :
    ∃ a, (Driver.abandon waiting s op contents).2.map inject = .ask a q ∧ Leads p r a q := by
  cases contents with
  | nil => cases next
  | cons v rest =>
      cases next
      obtain ⟨hears, launches, driven⟩ := abandoning rest
      refine ⟨_, rfl, fun o here => ?_, by simp [launches], by simp [driven]⟩
      rw [hears] at here
      cases here
      exact Ask.of_closing v

theorem leads_execute {phase : Execute.Phase}
    (next : (step s (.execute phase) r).2.next? = some q) :
    ∃ a, (step s (.execute phase) r).2 = .ask a q ∧ Leads (.execute phase) r a q := by
  cases phase with
  | start computation =>
      cases next
      exact ⟨_, rfl, .of_idle rfl rfl nofun⟩
  | converting =>
      rcases r with v | x | v
      · cases v <;> cases next
        exact ⟨_, rfl, nofun, fun _ => ⟨_, rfl⟩, nofun⟩
      all_goals cases next
  | launching =>
      rcases r with v | x | v
      · cases v <;> cases next
        refine ⟨_, rfl, ?_, nofun, ?_⟩
        · rintro o here
          cases here
          rfl
        · rintro g here
          cases here
          exact .inr ⟨rfl, rfl⟩
      all_goals cases next
  | running g =>
      rcases r with v | x | op
      · cases next
      · cases next
      · exact leads_abandon (fun rest => ⟨rfl, rfl, rfl⟩) next
  | abandoning op rest =>
      rcases r with v | x | v
      · exact leads_abandon (fun rest => ⟨rfl, rfl, rfl⟩) next
      · cases next
      · cases next

theorem leads_awaitFailed {g : Gen} {n : Nat} {x : Exc} (driven : p.driven? = some g)
    (next : ((ExecuteAsync.awaitFailed s g n x).2.map executeAsync).next? = some q) :
    ∃ a, (ExecuteAsync.awaitFailed s g n x).2.map executeAsync = .ask a q ∧ Leads p r a q := by
  unfold ExecuteAsync.awaitFailed at next ⊢
  split at next
  · cases next
    rw [if_pos ‹_›]
    exact ⟨_, rfl, .of_idle rfl rfl fun h here => driven.trans here⟩
  · cases next

theorem leads_executeAsync {phase : ExecuteAsync.Phase}
    (next : (step s (.executeAsync phase) r).2.next? = some q) :
    ∃ a, (step s (.executeAsync phase) r).2 = .ask a q ∧ Leads (.executeAsync phase) r a q := by
  cases phase with
  | start computation =>
      cases next
      exact ⟨_, rfl, .of_idle rfl rfl nofun⟩
  | converting =>
      rcases r with v | x | v
      · cases v <;> cases next
        exact ⟨_, rfl, nofun, fun _ => ⟨_, rfl⟩, nofun⟩
      all_goals cases next
  | launching =>
      rcases r with v | x | v
      · cases v <;> cases next
        refine ⟨_, rfl, ?_, nofun, ?_⟩
        · rintro o here
          cases here
          rfl
        · rintro g here
          cases here
          exact .inr ⟨rfl, rfl⟩
      all_goals cases next
  | running g n =>
      rcases r with v | x | op
      · cases next
      · cases next
      · by_cases escape : ∃ id action, op = .escape id action
        · obtain ⟨i, action, rfl⟩ := escape
          cases next
          exact ⟨_, rfl, .of_idle rfl rfl fun h => id⟩
        · simp only [not_exists] at escape
          change ((ExecuteAsync.step s (.running g n) (.yielded op)).2.map _).next? = some q at next
          change ∃ a, (ExecuteAsync.step s (.running g n) (.yielded op)).2.map _ = .ask a q ∧ _
          rw [ExecuteAsync.step_unanswerable escape] at next ⊢
          exact leads_abandon (fun rest => ⟨rfl, rfl, rfl⟩) next
  | acting g n =>
      rcases r with v | x | v
      · cases next
        exact ⟨_, rfl, .of_idle rfl rfl fun h => id⟩
      · exact leads_awaitFailed rfl next
      · cases next
  | awaiting g n =>
      rcases r with v | x | v
      · cases next
        exact ⟨_, rfl, .of_idle rfl rfl fun h => id⟩
      · exact leads_awaitFailed rfl next
      · cases next
  | pausing g n outcome =>
      rcases r with v | x | v
      · cases next
        refine ⟨_, rfl, ?_, nofun, fun h => .inl⟩
        rintro o here
        cases here
        rfl
      · cases next
      · cases next
  | abandoning op rest =>
      rcases r with v | x | v
      · exact leads_abandon (fun rest => ⟨rfl, rfl, rfl⟩) next
      · cases next
      · cases next

/-- A driver goes on after it has asked for something. -/
theorem leads_step (next : (step s p r).2.next? = some q) (driver : q.driver = true) :
    ∃ a, (step s p r).2 = .ask a q ∧ Leads p r a q := by
  have before := driver_step next driver
  cases p with
  | execute phase => exact leads_execute next
  | executeAsync phase => exact leads_executeAsync next
  | _ => contradiction

theorem driver_of_hears {o : Option Gen} (h : p.hears? = some o) : p.driver = true := by
  unfold hears? at h
  split at h <;> first | rfl | contradiction

theorem driver_of_launches (h : p.launches = true) : p.driver = true := by
  unfold launches at h
  split at h <;> first | rfl | contradiction

theorem driver_of_driven {g : Gen} (h : p.driven? = some g) : p.driver = true := by
  unfold driven? at h
  split at h <;> first | rfl | contradiction

/-- What a call begins with, and what waits in a generator, runs no machine on the stack. -/
theorem hears_of_young (young : p.young = true) :
    p.hears? = none ∧ p.launches = false ∧ p.driven? = none := by
  unfold Process.young at young
  split at young <;> first | exact ⟨rfl, rfl, rfl⟩ | contradiction

theorem hears_of_sleeps (sleeps : p.sleeps = true) : p.hears? = none ∧ p.launches = false := by
  unfold Process.sleeps at sleeps
  split at sleeps <;> first | exact ⟨rfl, rfl⟩ | contradiction

theorem hears_of_leans (leans : p.leans = true) : p.hears? = none ∧ p.launches = false := by
  unfold Process.leans at leans
  split at leans <;> first | exact ⟨rfl, rfl⟩ | contradiction

end Turns

end Process

/-! ## Drivers on the stack -/

namespace Routine

def hears? : Routine G → Option (Option Gen)
  | .library p => p.hears?
  | .guest _ => none

def launches : Routine G → Bool
  | .library p => p.launches
  | .guest _ => false

def driven? : Routine G → Option Gen
  | .library p => p.driven?
  | .guest _ => none

variable {w v : World G} {p q : Routine G} {r : Reply} {turn : Turn (Routine G)}

/-- What a routine says of the one that it was before a turn, if it is a driver. -/
theorem leads (stepped : p.step w r = (v, turn)) (next : turn.next? = some q)
    (driver : q.hears? ≠ none ∨ q.launches = true ∨ q.driven? ≠ none) :
    ∃ p' q' a, p = .library p' ∧ q = .library q' ∧ turn = .ask a q ∧ Process.Leads p' r a q' := by
  cases p with
  | guest b =>
      obtain ⟨b', rfl⟩ := Routine.next_guest stepped next
      simp [hears?, launches, driven?] at driver
  | library p' =>
      obtain ⟨q', rfl, next'⟩ := Routine.next_library stepped next
      have is_driver : q'.driver = true := by
        rcases driver with driver | driver | driver
        · obtain ⟨o, hears⟩ := Option.ne_none_iff_exists'.1 driver
          exact Process.driver_of_hears hears
        · exact Process.driver_of_launches driver
        · obtain ⟨g, driven⟩ := Option.ne_none_iff_exists'.1 driver
          exact Process.driver_of_driven driven
      obtain ⟨a, turn', leads⟩ := Process.leads_step next' is_driver
      refine ⟨p', q', a, rfl, rfl, ?_, leads⟩
      rw [Routine.step_library] at stepped
      cases stepped
      rw [turn']
      rfl

end Routine

namespace Activation

def routine? : Activation G → Option (Routine G)
  | .calling p | .running _ p | .relaying _ p _ | .exiting _ p _ => some p
  | .closing _ => none

def hears? : Activation G → Option (Option Gen)
  | .calling p | .running _ p => p.hears?
  | _ => none

def launches : Activation G → Bool
  | .calling p | .running _ p => p.launches
  | _ => false

/-- What may stand directly above another activation, which may be a driver. -/
structure Serving (a b : Activation G) : Prop where
  heard : ∀ o, b.hears? = some o → a.active? = o
  launched : b.launches = false

end Activation

def Status.routine? : Status G → Option (Routine G)
  | .fresh p | .suspended p _ | .delegating p _ => some p
  | .running | .finished => none

/-- What a driver may be told that has asked something of a generator, or of none. -/
def Signal.Fits (trace : Trace G) (o : Option Gen) : Signal → Prop
  | .advance g _ => o = some g
  | .call .. | .close _ => o = none
  | .reply r => ∀ v, r = .yielded v → ∃ g, o = some g ∧ trace.Yielded g v

/-- A driver hears from nobody but its machine, and gets a new one from whom it asks for that. -/
structure Attended (trace : Trace G) (c : Config G) : Prop where
  above : c.stack.IsChain Activation.Serving
  hears : ∀ b o, c.stack.head? = some b → b.hears? = some o → c.signal.Fits trace o
  launches : ∀ b, c.stack.head? = some b → b.launches = true →
    (∃ m caller, c.signal = .call (.native (.service .runMachine)) [.machine m] caller) ∨
      ∃ r, c.signal = .reply r ∧ ∀ g, r = .value (.gen g) → ∃ m, (m, g.id) ∈ trace.ran

/-- What a call comes to is an answer or another call. -/
theorem Config.signal_call (w : World G) (stack : List (Activation G)) (f : Val) (args : List Val)
    (caller : Caller) : (∃ r, (call w stack f args caller).signal = .reply r ∧ r.Final) ∨
      ∃ f' args' caller', (call w stack f args caller).signal = .call f' args' caller' := by
  unfold call
  split
  · dsimp only
    split <;> exact .inl ⟨_, rfl, nofun⟩
  · dsimp only
    split <;> first
      | exact .inl ⟨_, rfl, nofun⟩
      | exact .inr ⟨_, _, _, rfl⟩

/-- What begins, goes on after a suspension, or comes back to its own, waits for nobody yet. -/
theorem Placed.hears (placed : Placed c) {p : Routine G}
    (waits : (∃ i : Nat, c.world.gens[i]? = some (Status.fresh p)) ∨
      (∃ (i : Nat) (how : Suspension), c.world.gens[i]? = some (Status.suspended p how)) ∨
      (∃ g e, .relaying g p e ∈ c.stack) ∨ ∃ g x, .exiting g p x ∈ c.stack) :
    p.hears? = none ∧ p.launches = false := by
  cases p with
  | guest b => exact ⟨rfl, rfl⟩
  | library q =>
      rcases waits with ⟨i, status⟩ | ⟨i, how, status⟩ | ⟨g, e, mem⟩ | ⟨g, x, mem⟩
      · obtain ⟨hears, launches, -⟩ := Process.hears_of_young (placed.fresh i q status)
        exact ⟨hears, launches⟩
      · exact Process.hears_of_sleeps (placed.suspended i q how status)
      · exact Process.hears_of_leans (placed.relaying g q e mem)
      · exact Process.hears_of_leans (placed.exiting g q x mem)

namespace Attended

theorem of_fresh (fresh : c.Fresh) : Attended [] c := by
  constructor <;> simp [fresh.stack]

/-- Something is on top of the rest of a stack, as there was before or newly. -/
theorem of_top {a : Activation G} {rest : List (Activation G)} (stack : d.stack = a :: rest)
    (above : (a :: rest).IsChain Activation.Serving)
    (hears : ∀ o, a.hears? = some o → d.signal.Fits (c :: trace) o)
    (launches : a.launches = true →
      ∃ m caller, d.signal = .call (.native (.service .runMachine)) [.machine m] caller) :
    Attended (c :: trace) d := by
  refine ⟨stack ▸ above, fun b o head here => ?_, fun b head here => ?_⟩
  · rw [stack] at head
    cases head
    exact hears o here
  · rw [stack] at head
    cases head
    exact .inl (launches here)

/-- The topmost activation is gone, and what is below it has a reply. -/
theorem of_pop (attended : Attended trace c) {a : Activation G} {rest : List (Activation G)}
    {r : Reply} (before : c.stack = a :: rest) (stack : d.stack = rest) (signal : d.signal = .reply r)
    (yielded : ∀ v, r = .yielded v → ∃ g, a.active? = some g ∧ c.yields? = some (g, v)) :
    Attended (c :: trace) d := by
  have above := attended.above
  rw [before] at above
  refine ⟨stack ▸ above.of_cons, fun b o head here => ?_, fun b head here => ?_⟩
  all_goals
    rw [stack] at head
    obtain ⟨below, rfl⟩ := List.head?_eq_some_iff.1 head
    have serving := (List.isChain_cons_cons.1 above).1
  · rw [signal]
    intro v same
    obtain ⟨g, active, yields⟩ := yielded v same
    exact ⟨g, (serving.heard o here).symm.trans active, c, trace, rfl, yields⟩
  · rw [serving.launched] at here
    contradiction

/-- Something is put on what has asked for it. -/
theorem serving (attended : Attended trace c) (unreplied : ∀ r, c.signal ≠ .reply r)
    (uncalled : ∀ m caller,
      c.signal ≠ .call (.native (.service .runMachine)) [.machine m] caller) {a : Activation G}
    (active : ∀ o, c.signal.Fits trace o → a.active? = o) :
    (a :: c.stack).IsChain Activation.Serving := by
  cases made : c.stack with
  | nil => exact .singleton a
  | cons b rest =>
      have head : c.stack.head? = some b := by simp [made]
      refine .cons_cons ⟨fun o here => active o (attended.hears b o head here), ?_⟩
        (made ▸ attended.above)
      rw [← Bool.not_eq_true]
      intro here
      rcases attended.launches b head here with ⟨m, caller, called⟩ | ⟨r, replied, -⟩
      · exact uncalled m caller called
      · exact unreplied r replied

/-- What is not answered by what it has asked keeps the stack as it is. -/
theorem of_same (attended : Attended trace c) (unreplied : ∀ r, c.signal ≠ .reply r)
    (uncalled : ∀ m caller,
      c.signal ≠ .call (.native (.service .runMachine)) [.machine m] caller)
    (stack : d.stack = c.stack) {r : Reply} (signal : d.signal = .reply r) (final : r.Final) :
    Attended (c :: trace) d := by
  refine ⟨stack ▸ attended.above, fun b o head here => ?_, fun b head here => ?_⟩
  · rw [signal]
    exact fun v same => absurd same (final v)
  · rcases attended.launches b (stack ▸ head) here with ⟨m, caller, called⟩ | ⟨r, replied, -⟩
    · exact absurd called (uncalled m caller)
    · exact absurd replied (unreplied r)

/-- Something is called. -/
theorem called (attended : Attended trace c) {f : Val} {args : List Val} {caller : Caller}
    (signal : c.signal = .call f args caller) (stepped : c.step = .ok d) :
    Attended (c :: trace) d := by
  obtain ⟨w, stack, _⟩ := c
  cases signal
  by_cases run : ∃ m, f = .native (.service .runMachine) ∧ args = [.machine m]
  · obtain ⟨m, rfl, rfl⟩ := run
    cases stepped
    refine ⟨attended.above, fun b o head here v same => ?_, fun b head here => .inr ⟨_, rfl, ?_⟩⟩
    · cases same
    · rintro g same
      cases same
      exact ⟨m, Trace.ran_here rfl⟩
  · have uncalled (m : Nat) (caller' : Caller) : Signal.call f args caller ≠
        .call (.native (.service .runMachine)) [.machine m] caller' := by
      intro same
      cases same
      exact run ⟨m, rfl, rfl⟩
    cases stepped
    rcases Config.call_cases w stack f args caller rfl with ⟨same, -⟩ | ⟨-, p, same, young⟩
    · rcases Config.signal_call w stack f args caller with ⟨r, replied, final⟩ | ⟨f', args', caller', again⟩
      · exact attended.of_same (by simp) uncalled same replied final
      · refine ⟨?_, fun b o head here => ?_, fun b head here => ?_⟩
        · rw [same]
          exact attended.above
        · rw [again]
          rw [same] at head
          exact attended.hears b o head here
        · rw [same] at head
          rcases attended.launches b head here with ⟨m, caller', called⟩ | ⟨r, replied, -⟩
          · exact absurd called (uncalled m caller')
          · cases replied
    · have idle : p.hears? = none ∧ p.launches = false := by
        cases p with
        | guest b => exact ⟨rfl, rfl⟩
        | library q =>
            obtain ⟨hears, launches, -⟩ := Process.hears_of_young (young q rfl)
            exact ⟨hears, launches⟩
      refine .of_top same (attended.serving (by simp) uncalled fun o fits => fits.symm) ?_ ?_
      · simp [Activation.hears?, idle]
      · simp [Activation.launches, idle]

/-- A body takes the place of what was on top. -/
theorem of_turn (attended : Attended trace c) {a b : Activation G} {rest : List (Activation G)}
    (before : c.stack = a :: rest) (stack : d.stack = b :: rest) (same : b.active? = a.active?)
    (hears : ∀ o, b.hears? = some o → d.signal.Fits (c :: trace) o)
    (launches : b.launches = true →
      ∃ m caller, d.signal = .call (.native (.service .runMachine)) [.machine m] caller) :
    Attended (c :: trace) d := by
  have above := attended.above
  rw [before] at above
  refine .of_top stack ?_ hears launches
  cases rest with
  | nil => exact .singleton b
  | cons z rest =>
      obtain ⟨first, below⟩ := List.isChain_cons_cons.1 above
      exact .cons_cons ⟨fun o here => same.trans (first.heard o here), first.launched⟩ below

/-- What drivers are told is kept by every step. -/
theorem step (attended : Attended trace c) (placed : Placed c) (stepped : c.step = .ok d) :
    Attended (c :: trace) d := by
  have moves := Config.moves_step stepped
  have idle {p : Routine G} (waits : p.hears? = none ∧ p.launches = false) {g : Gen}
      {stack : List (Activation G)} (same : d.stack = .running g p :: stack)
      (above : (.running g p :: stack).IsChain Activation.Serving) : Attended (c :: trace) d :=
    .of_top same above (by simp [Activation.hears?, waits]) (by simp [Activation.launches, waits])
  cases moves with
  | answers | enters | spawns | forwards => exact attended.called rfl stepped
  -- the stack stays as it is
  | stays quiet unmoved =>
      refine attended.of_same (by simp) (by simp) rfl rfl ?_
      cases unmoved with
      | finished i status final => exact final
      | _ => nofun
  | breaks x quiet status => exact attended.of_same (by simp) (by simp) rfl rfl nofun
  | spares quiet final => exact attended.of_same (by simp) (by simp) rfl rfl final
  | discards status => exact attended.of_same (by simp) (by simp) rfl rfl nofun
  -- something is put on top
  | begins status =>
      refine idle (placed.hears (.inl ⟨_, World.getElem?_of_status status (by simp)⟩)) rfl
        (attended.serving (by simp) (by simp) fun o fits => fits.symm)
  | resumes quiet status =>
      refine idle (placed.hears (.inr (.inl ⟨_, _, World.getElem?_of_status status (by simp)⟩))) rfl
        (attended.serving (by simp) (by simp) fun o fits => fits.symm)
  | relays status =>
      exact .of_top rfl (attended.serving (by simp) (by simp) fun o fits => fits.symm) nofun nofun
  | exits x status =>
      exact .of_top rfl (attended.serving (by simp) (by simp) fun o fits => fits.symm) nofun nofun
  | @interrupts w stack g p how store x quiet status =>
      have above := attended.serving (a := .closing g) (by simp) (by simp) fun o fits => fits.symm
      exact idle (placed.hears (.inr (.inl ⟨_, _, World.getElem?_of_status status (by simp)⟩))) rfl
        (.cons_cons ⟨nofun, rfl⟩ above)
  | @pursues w stack g e p store x quiet status =>
      have above := attended.serving (a := .closing g) (by simp) (by simp) fun o fits => fits.symm
      exact .of_top rfl (.cons_cons ⟨nofun, rfl⟩ above) nofun nofun
  -- something takes the place of the topmost activation
  | @goes w v seat p p' r turn store signal stack turned answer =>
      have same : (Activation.of seat p').active? = (Activation.of seat p).active? := by
        cases seat <;> rfl
      refine attended.of_turn rfl rfl same (fun o hears => ?_) fun launches => ?_
      · have hears' : p'.hears? = some o := by cases seat <;> exact hears
        obtain ⟨p, q, a, rfl, rfl, rfl, leads⟩ :=
          Routine.leads turned answer.next? (.inl (by simp [hears']))
        have asks := leads.hears o hears'
        cases answer with
        | call | advance | close => exact asks
        | refused => exact nofun
      · have launches' : p'.launches = true := by cases seat <;> exact launches
        obtain ⟨p, q, a, rfl, rfl, rfl, leads⟩ :=
          Routine.leads turned answer.next? (.inr (.inl launches'))
        obtain ⟨m, rfl⟩ := leads.launches launches'
        cases answer with
        | call => exact ⟨m, _, rfl⟩
        | refused x quiet unfit => simp at unfit
  | delegates stepped passes => exact attended.of_turn rfl rfl rfl nofun nofun
  | @regains w stack g e p r r' =>
      have waits := placed.hears (.inr (.inr (.inl ⟨g, e, .head _⟩)))
      exact attended.of_turn rfl rfl rfl (by simp [Activation.hears?, waits])
        (by simp [Activation.launches, waits])
  | @leaves w stack g p x r y =>
      have waits := placed.hears (.inr (.inr (.inr ⟨g, x, .head _⟩)))
      exact attended.of_turn rfl rfl rfl (by simp [Activation.hears?, waits])
        (by simp [Activation.launches, waits])
  -- the topmost activation goes
  | @suspends w v stack g p p' r u how turned =>
      refine attended.of_pop rfl rfl rfl fun y same => ⟨g, rfl, ?_⟩
      cases same
      simp [Config.yields?, turned]
  | ends stepped ending quiet final =>
      exact attended.of_pop rfl rfl rfl fun y same => absurd same (final y)
  | returns stepped ending quiet final =>
      exact attended.of_pop rfl rfl rfl fun y same => absurd same (final y)
  | @hands w stack g e p u =>
      refine attended.of_pop rfl rfl rfl fun y same => ⟨g, rfl, ?_⟩
      cases same
      rfl
  | closes quiet final =>
      exact attended.of_pop rfl rfl rfl fun y same => absurd same (final y)

end Attended

/-- Each driver runs a machine. -/
structure Driving (trace : Trace G) (c : Config G) : Prop extends Attended trace c where
  stack : ∀ a ∈ c.stack, ∀ p g, a.routine? = some p → p.driven? = some g →
    ∃ m, (m, g.id) ∈ trace.ran
  gens : ∀ (i : Nat) (t : Status G), c.world.gens[i]? = some t → ∀ p g, t.routine? = some p →
    p.driven? = some g → ∃ m, (m, g.id) ∈ trace.ran

namespace Driving

theorem of_fresh (fresh : c.Fresh) : Driving [] c := by
  refine ⟨.of_fresh fresh, ?_, ?_⟩
  · simp [fresh.stack]
  · simp [fresh.gens]

/-- A routine that runs a machine after a turn did so before, or has just got it. -/
theorem turn (driving : Driving trace c) {a : Activation G} {rest : List (Activation G)}
    {p q : Routine G} {r : Reply} {w : World G} {turn : Turn (Routine G)} {g : Gen}
    (stack : c.stack = a :: rest) (signal : c.signal = .reply r) (routine : a.routine? = some p)
    (waits : a.launches = p.launches) (stepped : p.step c.world r = (w, turn))
    (next : turn.next? = some q) (driven : q.driven? = some g) : ∃ m, (m, g.id) ∈ trace.ran := by
  obtain ⟨p', q', asks, rfl, rfl, -, leads⟩ :=
    Routine.leads stepped next (.inr (.inr (by simp [driven])))
  rcases leads.driven g driven with before | ⟨launches, rfl⟩
  · exact driving.stack a (by simp [stack]) _ g routine before
  · rcases driving.launches a (by simp [stack]) (waits.trans launches) with
      ⟨m, caller, called⟩ | ⟨r, replied, ran⟩
    · exact absurd (signal.symm.trans called) (by simp)
    · refine ran g ?_
      have same := replied.symm.trans signal
      cases same
      rfl

/-- Each driver still runs one after a step. -/
theorem step (driving : Driving trace c) (placed : Placed c) (after : Placed d)
    (active : c.Active) (stepped : c.step = .ok d) : Driving (c :: trace) d where
  toAttended := driving.toAttended.step placed stepped
  stack a mem p g routine driven := by
    suffices before : ∃ m, (m, g.id) ∈ trace.ran from
      before.imp fun m ran => Trace.ran_cons ran
    have gens (h : Gen) (t : Status G) (status : c.world.status h = t) (idle : t ≠ .finished)
        (same : t.routine? = some p) : ∃ m, (m, g.id) ∈ trace.ran :=
      driving.gens h.id t (World.getElem?_of_status status idle) p g same driven
    rcases Config.pushes_step stepped mem with before | pushes
    · exact driving.stack a before p g routine driven
    · cases pushes with
      | @calls f args caller p' signal =>
          cases routine
          obtain ⟨w, stack, _⟩ := c
          cases signal
          cases stepped
          rcases Config.call_cases w stack f args caller rfl with ⟨same, -⟩ | ⟨-, p', same, young⟩
          · exact driving.stack _ (same ▸ mem) p g rfl driven
          · rw [same] at mem
            rcases List.mem_cons.1 mem with here | before
            · cases here
              cases p with
              | guest b => contradiction
              | library q =>
                  have idle := (Process.hears_of_young (young q rfl)).2.2
                  exact absurd (driven.symm.trans idle) (by simp)
            · exact driving.stack _ before p g rfl driven
      | goes stack signal next =>
          cases routine
          exact driving.turn stack signal rfl rfl rfl next driven
      | closing h => contradiction
      | enters status =>
          cases routine
          rcases status with status | ⟨how, status⟩
          · exact gens _ _ status (by simp) rfl
          · exact gens _ _ status (by simp) rfl
      | relays status => exact gens _ _ status (by simp) routine
      | exits x status => exact gens _ _ status (by simp) routine
      | turns stack signal next =>
          cases routine
          exact driving.turn stack signal rfl rfl rfl next driven
      | delegates stack signal turn passes made =>
          cases routine
          exact driving.turn stack signal rfl rfl rfl (turn ▸ rfl) driven
      | regains stack =>
          cases routine
          exact driving.stack (.relaying ..) (by rw [stack]; exact .head _) p g rfl driven
      | leaves stack =>
          cases routine
          exact driving.stack (.exiting ..) (by rw [stack]; exact .head _) p g rfl driven
  gens i t there p g routine driven := by
    suffices before : ∃ m, (m, g.id) ∈ trace.ran from
      before.imp fun m ran => Trace.ran_cons ran
    rcases (Config.moves_step stepped).sets active there with same | sets
    · exact driving.gens i t same p g routine driven
    · cases sets with
      | spawned p' new =>
          cases routine
          cases p with
          | guest b => contradiction
          | library q =>
              have idle := (Process.hears_of_young (after.fresh i q there)).2.2
              exact absurd (driven.symm.trans idle) (by simp)
      | ending | begun => contradiction
      | suspends stack signal turn same =>
          cases routine
          exact driving.turn stack signal rfl rfl rfl (turn ▸ rfl) driven
      | hands stack signal same =>
          cases routine
          exact driving.stack _ (by rw [stack]; exact .head _) p g rfl driven

end Driving

theorem RunOf.driving (genuine : ∀ trace c, rule trace c → Genuine trace c)
    (run : RunOf rule trace c) : Driving trace c := by
  induction run with
  | start fresh => exact .of_fresh fresh
  | step before lawful stepped ih =>
      exact ih.step (before.placed genuine) ((before.step lawful stepped).placed genuine)
        (before.standing genuine).active stepped

end OneShot
