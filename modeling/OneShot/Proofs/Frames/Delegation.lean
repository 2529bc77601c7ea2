import OneShot.Proofs.Frames.Standing

/-!
# Delegation

Which generators are advanced, closed and delegated to in a run, and how their
statuses say so.  A generator that is not running keeps its status, unless it is
advanced or closed.
-/

namespace OneShot

variable {G : Guest} {trace : Trace G} {c d : Config G}

/-! ## Events -/

namespace Config

/-- The generator that is advanced next. -/
def entered? (c : Config G) : Option Gen :=
  match c.signal with
  | .advance g _ => some g
  | _ => none

/-- The generator that is closed next. -/
def closed? (c : Config G) : Option Gen :=
  match c.signal with
  | .close g => some g
  | _ => none

/-- A generator that has another one run in its place from the next step on, and that one. -/
def delegated? (c : Config G) : Option (Gen × Gen) :=
  match c.stack, c.signal, c.step with
  | .running g _ :: _, .reply _, .ok ⟨_, .relaying _ _ e :: _, .advance _ _⟩ => some (g, e)
  | _, _, _ => none

theorem stack_of_delegated {g e : Gen} (h : c.delegated? = some (g, e)) :
    ∃ p rest, c.stack = .running g p :: rest := by
  unfold delegated? at h
  split at h
  · rename_i stack signal step
    cases h
    exact ⟨_, _, stack⟩
  · contradiction

end Config

namespace Trace

def entered (trace : Trace G) : List Nat := trace.filterMap fun c => c.entered?.map (·.id)

def closed (trace : Trace G) : List Nat := trace.filterMap fun c => c.closed?.map (·.id)

def delegated (trace : Trace G) : List (Nat × Nat) :=
  trace.filterMap fun c => c.delegated?.map fun q => (q.1.id, q.2.id)

theorem mem_entered_cons {i : Nat} :
    i ∈ Trace.entered (c :: trace) ↔ (∃ g j, c.signal = .advance g j ∧ g.id = i) ∨ i ∈ trace.entered := by
  obtain ⟨w, stack, signal⟩ := c
  cases signal <;> simp [entered, Config.entered?, eq_comm]

theorem mem_closed_cons {i : Nat} :
    i ∈ Trace.closed (c :: trace) ↔ (∃ g, c.signal = .close g ∧ g.id = i) ∨ i ∈ trace.closed := by
  obtain ⟨w, stack, signal⟩ := c
  cases signal <;> simp [closed, Config.closed?, eq_comm]

theorem mem_delegated_cons {q : Nat × Nat} :
    q ∈ Trace.delegated (c :: trace) ↔
      (∃ g e, c.delegated? = some (g, e) ∧ (g.id, e.id) = q) ∨ q ∈ trace.delegated := by
  cases made : c.delegated? with
  | none => simp [delegated, made]
  | some p =>
      obtain ⟨g, e⟩ := p
      simp [delegated, made, eq_comm]

end Trace

/--
What the program does next is in order, and it delegates to each generator once, before
anything else advances it, and leaves advancing it to that.
-/
structure Tidy (trace : Trace G) (c : Config G) : Prop extends Orderly trace c where
  delegated : ∀ g e, c.delegated? = some (g, e) →
    e.id < c.world.gens.size ∧ e.id ∉ trace.framed ∧ e.id ∉ trace.entered
  sole : ∀ g i j, c.signal = .advance g i → (j, g.id) ∈ trace.delegated →
    ∃ h p, c.stack.head? = some (.relaying h p g) ∧ h.id = j

/-! ## How statuses change -/

/-- What the status of a generator is set to in a step, and why. -/
inductive Sets (c : Config G) (i : Nat) : Status G → Prop
  | spawned (p : Routine G) (new : i = c.world.gens.size) : Sets c i (.fresh p)
  | ending (why : c.world.gens[i]? = some .running ∨ (∃ g j, c.signal = .advance g j ∧ g.id = i) ∨
      ∃ g, c.signal = .close g ∧ g.id = i) : Sets c i .finished
  | begun (why : (∃ g j, c.signal = .advance g j ∧ g.id = i) ∨ ∃ g p, c.signal = .close g ∧
      g.id = i ∧ ((∃ how, c.world.gens[i]? = some (.suspended p how)) ∨
        ∃ e, c.world.gens[i]? = some (.delegating p e))) : Sets c i .running
  | suspends {g : Gen} {p p' : Routine G} {r : Reply} {rest : List (Activation G)} {u : Val}
      {how : Suspension} (stack : c.stack = .running g p :: rest) (signal : c.signal = .reply r)
      (turn : (p.step c.world r).2 = .ask (.yield u how) p') (same : g.id = i) :
      Sets c i (.suspended p' how)
  | hands {g e : Gen} {p : Routine G} {rest : List (Activation G)} {v : Val}
      (stack : c.stack = .relaying g p e :: rest) (signal : c.signal = .reply (.yielded v))
      (same : g.id = i) : Sets c i (.delegating p e)

/-- The status of a generator after a step is what it was, or what it was set to. -/
theorem Moves.sets (moves : Moves c d) (active : c.Active) {i : Nat} {t : Status G}
    (there : d.world.gens[i]? = some t) : c.world.gens[i]? = some t ∨ Sets c i t := by
  have set {w : World G} {g : Gen} {u : Status G} (why : g.id = i → Sets c i u)
      (now : (w.setStatus g u).gens[i]? = some t) : w.gens[i]? = some t ∨ Sets c i t := by
    rcases World.getElem?_of_setStatus now with ⟨same, rfl⟩ | before
    · exact .inr (why same.symm)
    · exact .inl before
  have running {g : Gen} {p : Routine G} {rest : List (Activation G)}
      (stack : c.stack = .running g p :: rest) (same : g.id = i) :
      c.world.gens[i]? = some .running := by
    refine (active.running i).2 ?_
    rw [stack, active_cons_of_some rfl, same]
    exact List.mem_cons_self
  cases moves with
  | @spawns w stack f args caller store memory p kind name calls spawned =>
      rcases World.getElem?_of_spawn kind name there with ⟨rfl, rfl⟩ | before
      · exact .inr (.spawned p rfl)
      · exact .inl before
  | breaks x quiet status => exact set (fun same => .ending (.inr (.inl ⟨_, _, rfl, same⟩))) there
  | begins status => exact set (fun same => .begun (.inl ⟨_, _, rfl, same⟩)) there
  | resumes quiet status => exact set (fun same => .begun (.inl ⟨_, _, rfl, same⟩)) there
  | relays status => exact set (fun same => .begun (.inl ⟨_, _, rfl, same⟩)) there
  | exits x status => exact set (fun same => .begun (.inl ⟨_, _, rfl, same⟩)) there
  | discards status => exact set (fun same => .ending (.inr (.inr ⟨_, rfl, same⟩))) there
  | @interrupts w stack g p how store x quiet status =>
      have before := World.getElem?_of_status status (by simp)
      refine set (w := w) (fun same => .begun (.inr ⟨g, p, rfl, same, .inl ⟨how, ?_⟩⟩)) there
      rw [← same]
      exact before
  | @pursues w stack g e p store x quiet status =>
      have before := World.getElem?_of_status status (by simp)
      refine set (w := w) (fun same => .begun (.inr ⟨g, p, rfl, same, .inr ⟨e, ?_⟩⟩)) there
      rw [← same]
      exact before
  | goes stack stepped answer =>
      rw [Routine.step_gens stepped] at there
      exact .inl there
  | delegates stepped passes =>
      rw [Routine.step_gens stepped] at there
      exact .inl there
  | suspends stepped =>
      have turn := congrArg Prod.snd stepped
      refine (set (fun same => .suspends rfl rfl turn same) there).imp_left fun before => ?_
      rwa [Routine.step_gens stepped] at before
  | ends stepped ending quiet final =>
      refine (set (fun same => .ending (.inl (running rfl same))) there).imp_left fun before => ?_
      rwa [Routine.step_gens stepped] at before
  | returns stepped ending quiet final =>
      refine .inl ?_
      have same := Routine.step_gens stepped
      rwa [← same]
  | hands v => exact set (fun same => .hands rfl rfl same) there
  | _ => exact .inl there

/-- A generator that is not running keeps its status, unless it is advanced or closed. -/
theorem Moves.status_of_idle (moves : Moves c d) (active : c.Active) {i : Nat} {t : Status G}
    (there : c.world.gens[i]? = some t) (idle : t ≠ .running) :
    d.world.gens[i]? = some t ∨ (∃ g j, c.signal = .advance g j ∧ g.id = i) ∨
      ∃ g, c.signal = .close g ∧ g.id = i := by
  have inside : i < c.world.gens.size := (Array.getElem?_eq_some_iff.1 there).1
  have still {g : Gen} {a : Activation G} {rest : List (Activation G)} (stack : c.stack = a :: rest)
      (body : a.active? = some g) : g.id ≠ i := by
    rintro rfl
    have running : c.world.gens[g.id]? = some .running := by
      refine (active.running g.id).2 ?_
      rw [stack, active_cons_of_some body]
      exact List.mem_cons_self
    rw [there] at running
    exact idle (Option.some.inj running)
  obtain ⟨u, now⟩ : ∃ u, d.world.gens[i]? = some u :=
    ⟨_, Array.getElem?_eq_getElem (Nat.lt_of_lt_of_le inside moves.size_gens)⟩
  rcases moves.sets active now with before | sets
  · rw [there] at before
    cases before
    exact .inl now
  · cases sets with
    | spawned p new => omega
    | ending why =>
        rcases why with running | other
        · rw [there] at running
          exact absurd (Option.some.inj running) idle
        · exact .inr other
    | begun why =>
        rcases why with entered | ⟨g, p, closed, same, -⟩
        · exact .inr (.inl entered)
        · exact .inr (.inr ⟨g, closed, same⟩)
    | suspends stack signal turn same => exact absurd same (still stack rfl)
    | hands stack signal same => exact absurd same (still stack rfl)

/-! ## How activations come -/

/-- What is on the stack after a step and was not there before. -/
inductive Pushes (c : Config G) : Activation G → Prop
  | calls {f : Val} {args : List Val} {caller : Caller} (p : Routine G)
      (signal : c.signal = .call f args caller) : Pushes c (.calling p)
  | goes {p p' : Routine G} {r : Reply} {rest : List (Activation G)}
      (stack : c.stack = .calling p :: rest) (signal : c.signal = .reply r)
      (next : (p.step c.world r).2.next? = some p') : Pushes c (.calling p')
  | closing (g : Gen) : Pushes c (.closing g)
  | enters {g : Gen} {p : Routine G}
      (status : c.world.status g = .fresh p ∨ ∃ how, c.world.status g = .suspended p how) :
      Pushes c (.running g p)
  | relays {g e : Gen} {p : Routine G} (status : c.world.status g = .delegating p e) :
      Pushes c (.relaying g p e)
  | exits {g e : Gen} {p : Routine G} (x : Exc) (status : c.world.status g = .delegating p e) :
      Pushes c (.exiting g p x)
  | turns {g : Gen} {p p' : Routine G} {r : Reply} {rest : List (Activation G)}
      (stack : c.stack = .running g p :: rest) (signal : c.signal = .reply r)
      (next : (p.step c.world r).2.next? = some p') : Pushes c (.running g p')
  | delegates {g e : Gen} {p p' : Routine G} {r : Reply} {rest : List (Activation G)} {a : Ask}
      (stack : c.stack = .running g p :: rest) (signal : c.signal = .reply r)
      (turn : (p.step c.world r).2 = .ask a p') (passes : (∃ u, a = .delegate u) ∨ ∃ u, a = .await u)
      (made : c.delegated? = some (g, e)) : Pushes c (.relaying g p' e)
  | regains {g e : Gen} {p : Routine G} {rest : List (Activation G)}
      (stack : c.stack = .relaying g p e :: rest) : Pushes c (.running g p)
  | leaves {g : Gen} {p : Routine G} {x : Exc} {rest : List (Activation G)}
      (stack : c.stack = .exiting g p x :: rest) : Pushes c (.running g p)

/-- What is on the stack after a step was there before, or has come in one of these ways. -/
theorem Config.pushes_step (stepped : c.step = .ok d) {a : Activation G} (mem : a ∈ d.stack) :
    a ∈ c.stack ∨ Pushes c a := by
  have top {b : Activation G} {rest : List (Activation G)} (sub : rest ⊆ c.stack)
      (pushes : Pushes c b) (mem : a ∈ b :: rest) : a ∈ c.stack ∨ Pushes c a := by
    rcases List.mem_cons.1 mem with rfl | below
    · exact .inr pushes
    · exact .inl (sub below)
  have moves := Config.moves_step stepped
  cases moves with
  | enters calls entered => exact top (fun _ => id) (.calls _ rfl) mem
  | begins status => exact top (fun _ => id) (.enters (.inl status)) mem
  | resumes quiet status => exact top (fun _ => id) (.enters (.inr ⟨_, status⟩)) mem
  | relays status => exact top (fun _ => id) (.relays status) mem
  | exits x status => exact top (fun _ => id) (.exits x status) mem
  | interrupts x quiet status =>
      rcases List.mem_cons.1 mem with rfl | mem
      · exact .inr (.enters (.inr ⟨_, status⟩))
      · exact top (fun _ => id) (.closing _) mem
  | pursues x quiet status =>
      rcases List.mem_cons.1 mem with rfl | mem
      · exact .inr (.exits x status)
      · exact top (fun _ => id) (.closing _) mem
  | @goes w v seat p p' r turn store signal stack turned answer =>
      refine top (List.subset_cons_self _ _) ?_ mem
      cases seat with
      | none =>
          refine .goes rfl rfl ?_
          rw [turned]
          exact answer.next?
      | some g =>
          refine .turns rfl rfl ?_
          rw [turned]
          exact answer.next?
  | delegates turned passes =>
      have turn := congrArg Prod.snd turned
      refine top (List.subset_cons_self _ _) (.delegates rfl rfl turn passes ?_) mem
      simp [Config.delegated?, stepped]
  | suspends turned => exact .inl (List.mem_cons_of_mem _ mem)
  | ends turned ending quiet final => exact .inl (List.mem_cons_of_mem _ mem)
  | returns turned ending quiet final => exact .inl (List.mem_cons_of_mem _ mem)
  | hands v => exact .inl (List.mem_cons_of_mem _ mem)
  | regains => exact top (List.subset_cons_self _ _) (.regains rfl) mem
  | closes quiet final => exact .inl (List.mem_cons_of_mem _ mem)
  | leaves y => exact top (List.subset_cons_self _ _) (.leaves rfl) mem
  | _ => exact .inl mem

/-! ## What statuses say -/

/-- A machine is run by a new generator. -/
theorem Config.gens_of_ran {m : Nat} (ran : c.signal.ran? = some m) (stepped : c.step = .ok d) :
    d.world.gens = c.world.gens.push (.fresh (.library (.machine m .start))) := by
  obtain ⟨w, stack, signal⟩ := c
  unfold Signal.ran? at ran
  split at ran
  · rename_i signal m' caller made
    cases ran
    dsimp only at made
    subst made
    cases stepped
    rfl
  · rename_i signal m' caller made
    cases ran
    dsimp only at made
    subst made
    cases stepped
    rfl
  · contradiction

/-- A generator runs the machine `m`, if it runs anything. -/
def Status.Mans (m : Nat) : Status G → Prop
  | .fresh p | .suspended p _ => ∃ q, p = .library (.machine m q)
  | .delegating _ _ => False
  | .running | .finished => True

/-- The machine of a generator that there was before was run before. -/
theorem Trace.ran_before {m i : Nat} (ran : (m, i) ∈ Trace.ran (c :: trace))
    (inside : i < c.world.gens.size) : (m, i) ∈ trace.ran := by
  rcases Trace.mem_ran_cons ran with now | before
  · obtain ⟨m', -, same⟩ := Option.map_eq_some_iff.1 now
    cases same
    omega
  · exact before

/-- A generator that was made for a machine runs nothing else. -/
structure Manned (trace : Trace G) (c : Config G) : Prop where
  known : ∀ m i, (m, i) ∈ trace.ran → i < c.world.gens.size
  alone : ∀ m n i, (m, i) ∈ trace.ran → (n, i) ∈ trace.ran → m = n
  manned : ∀ m i t, (m, i) ∈ trace.ran → c.world.gens[i]? = some t → t.Mans m
  bodies : ∀ m g a, (m, g.id) ∈ trace.ran → a ∈ c.stack → a.active? = some g →
    ∃ p, a = .running g (.library (.machine m p))

/-- What the events of a run say of generators. -/
structure Recorded (trace : Trace G) (c : Config G) : Prop extends Manned trace c where
  entered : ∀ i t, c.world.gens[i]? = some t →
    (∃ p, t = .fresh p) ∨ t = .finished ∨ i ∈ trace.entered
  delegating : ∀ i p e, c.world.gens[i]? = some (.delegating p e) → (i, e.id) ∈ trace.delegated
  relaying : ∀ g p e, .relaying g p e ∈ c.stack → (g.id, e.id) ∈ trace.delegated
  stepped : ∀ m i, (m, i) ∈ trace.ran → m ∈ trace.stepped → i ∈ trace.entered
  entries : ∀ i ∈ trace.entered, i ∈ trace.framed ∨ i ∈ trace.advanced

namespace Manned

theorem of_fresh (fresh : c.Fresh) : Manned [] c := by
  constructor <;> simp [Trace.ran, fresh.gens, fresh.stack]

/-- A body that is on the stack is running. -/
theorem running (active : c.Active) {a : Activation G} {g : Gen} (mem : a ∈ c.stack)
    (body : a.active? = some g) : c.world.gens[g.id]? = some .running :=
  (active.running g.id).2 (List.mem_filterMap.2 ⟨a, mem, by simp [body]⟩)

/-- A machine that is on the stack goes on as the same one, and has nothing run in its place. -/
theorem machine_next (standing : Standing trace c) {m : Nat} {p : Machine.Phase} {g : Gen}
    {rest : List (Activation G)} {r : Reply} {p' : Routine G}
    (stack : c.stack = .running g (.library (.machine m p)) :: rest) (signal : c.signal = .reply r)
    (next : ((Routine.library (.machine m p)).step c.world r).2.next? = some p') :
    ∃ a q, p' = .library (.machine m q) ∧ Machine.Asks a q ∧
      ((Routine.library (.machine m p)).step c.world r).2 = .ask a p' := by
  have turning := standing.sound.turning standing.seated
  obtain ⟨w, _, _⟩ := c
  cases stack
  cases signal
  obtain ⟨t, moved, does, -, turn⟩ := turning.does
    (Prod.eta ((Routine.library (.machine m p)).step w r)).symm
  rw [turn] at next
  obtain ⟨q', made, rfl⟩ := Turn.next?_map next
  obtain ⟨q, made', rfl⟩ := Turn.next?_map made
  rcases does.asks with ending | ⟨a, q'', rfl, asks⟩
  · rw [ending] at made'
    contradiction
  · cases made'
    exact ⟨a, q, rfl, asks, turn⟩

section Step

variable (manned : Manned trace c) (standing : Standing trace c) (stepped : c.step = .ok d)

include manned in
/-- The body of the generator of a machine is that machine. -/
theorem body (active : c.Active) {m : Nat} {g : Gen} {a : Activation G}
    (ran : (m, g.id) ∈ Trace.ran (c :: trace)) (mem : a ∈ c.stack) (body : a.active? = some g) :
    ∃ p, a = .running g (.library (.machine m p)) := by
  have inside := (Array.getElem?_eq_some_iff.1 (running active mem body)).1
  exact manned.bodies m g a (Trace.ran_before ran inside) mem body

include manned in
/-- So it is with what it has as its status. -/
theorem mans {m : Nat} {g : Gen} {t : Status G} (ran : (m, g.id) ∈ Trace.ran (c :: trace))
    (status : c.world.status g = t) (other : t ≠ .finished) : t.Mans m := by
  have there := World.getElem?_of_status status other
  have inside := (Array.getElem?_eq_some_iff.1 there).1
  exact manned.manned m _ t (Trace.ran_before ran inside) there

include manned in
theorem alone_step {m n i : Nat} (first : (m, i) ∈ Trace.ran (c :: trace))
    (second : (n, i) ∈ Trace.ran (c :: trace)) : m = n := by
  by_cases inside : i < c.world.gens.size
  · exact manned.alone m n i (Trace.ran_before first inside) (Trace.ran_before second inside)
  · have now {m : Nat} (ran : (m, i) ∈ Trace.ran (c :: trace)) : c.ran? = some (m, i) :=
      (Trace.mem_ran_cons ran).resolve_right fun before => inside (manned.known m i before)
    have same := (now first).symm.trans (now second)
    cases same
    rfl

include manned stepped

theorem known_step {m i : Nat} (ran : (m, i) ∈ Trace.ran (c :: trace)) :
    i < d.world.gens.size := by
  rcases Trace.mem_ran_cons ran with now | before
  · obtain ⟨m', ran', same⟩ := Option.map_eq_some_iff.1 now
    cases same
    simp [Config.gens_of_ran ran' stepped]
  · exact Nat.lt_of_lt_of_le (manned.known m i before) (Config.moves_step stepped).size_gens

include standing

theorem manned_step {m i : Nat} {t : Status G} (ran : (m, i) ∈ Trace.ran (c :: trace))
    (there : d.world.gens[i]? = some t) : t.Mans m := by
  rcases Trace.mem_ran_cons ran with now | before
  · obtain ⟨m', ran', same⟩ := Option.map_eq_some_iff.1 now
    cases same
    simp only [Config.gens_of_ran ran' stepped, Array.getElem?_push_size, Option.some.injEq] at there
    exact there ▸ ⟨_, rfl⟩
  · rcases (Config.moves_step stepped).sets standing.active there with same | sets
    · exact manned.manned m i t before same
    · cases sets with
      | spawned p new => exact absurd (manned.known m i before) (by omega)
      | ending why => trivial
      | begun why => trivial
      | @suspends g p p' r rest u how stack signal turn same =>
          subst same
          obtain ⟨q, same⟩ := manned.bodies m g _ before (by rw [stack]; exact .head _) rfl
          cases same
          obtain ⟨a, q', rfl, -⟩ := machine_next standing stack signal (by rw [turn]; rfl)
          exact ⟨q', rfl⟩
      | hands stack signal same =>
          subst same
          obtain ⟨q, same⟩ := manned.bodies m _ _ before (by rw [stack]; exact .head _) rfl
          cases same

theorem bodies_step {m : Nat} {g : Gen} {a : Activation G}
    (ran : (m, g.id) ∈ Trace.ran (c :: trace)) (mem : a ∈ d.stack) (here : a.active? = some g) :
    ∃ p, a = .running g (.library (.machine m p)) := by
  rcases Config.pushes_step stepped mem with before | pushes
  · exact manned.body standing.active ran before here
  · cases pushes with
    | calls | goes => contradiction
    | closing h => contradiction
    | enters status =>
        cases here
        rcases status with status | ⟨how, status⟩
        · obtain ⟨q, rfl⟩ := manned.mans ran status (by simp)
          exact ⟨q, rfl⟩
        · obtain ⟨q, rfl⟩ := manned.mans ran status (by simp)
          exact ⟨q, rfl⟩
    | relays status =>
        cases here
        exact (manned.mans ran status (by simp)).elim
    | exits x status =>
        cases here
        exact (manned.mans ran status (by simp)).elim
    | turns stack signal next =>
        cases here
        obtain ⟨q, same⟩ := manned.body standing.active ran (by rw [stack]; exact .head _) rfl
        cases same
        obtain ⟨a, q', rfl, -⟩ := machine_next standing stack signal next
        exact ⟨q', rfl⟩
    | delegates stack signal turn passes made =>
        cases here
        obtain ⟨q, same⟩ := manned.body standing.active ran (by rw [stack]; exact .head _) rfl
        cases same
        obtain ⟨b, q', rfl, asks, turn'⟩ := machine_next standing stack signal (by rw [turn]; rfl)
        rw [turn] at turn'
        cases turn'
        rcases passes with ⟨u, rfl⟩ | ⟨u, rfl⟩
        · exact absurd rfl (asks.kept u).1
        · exact absurd rfl (asks.kept u).2
    | regains stack =>
        cases here
        obtain ⟨q, same⟩ := manned.body standing.active ran (by rw [stack]; exact .head _) rfl
        cases same
    | leaves stack =>
        cases here
        obtain ⟨q, same⟩ := manned.body standing.active ran (by rw [stack]; exact .head _) rfl
        cases same

theorem step : Manned (c :: trace) d where
  known _ _ := manned.known_step stepped
  alone _ _ _ := manned.alone_step
  manned _ _ _ := manned.manned_step standing stepped
  bodies _ _ _ := manned.bodies_step standing stepped

end Step

end Manned

theorem RunOf.manned {rule : Trace G → Config G → Prop}
    (genuine : ∀ trace c, rule trace c → Genuine trace c) (run : RunOf rule trace c) :
    Manned trace c := by
  induction run with
  | start fresh => exact .of_fresh fresh
  | step before lawful stepped ih => exact ih.step (before.standing genuine) stepped

namespace Recorded

theorem of_fresh (fresh : c.Fresh) : Recorded [] c where
  toManned := .of_fresh fresh
  entered := by simp [fresh.gens]
  delegating := by simp [fresh.gens]
  relaying := by simp [fresh.stack]
  stepped := by simp [Trace.ran]
  entries := by simp [Trace.entered]

section Step

variable (recorded : Recorded trace c) (standing : Standing trace c) (stepped : c.step = .ok d)

include recorded stepped

theorem relaying_step {g e : Gen} {p : Routine G} (mem : .relaying g p e ∈ d.stack) :
    (g.id, e.id) ∈ Trace.delegated (c :: trace) := by
  rcases Config.pushes_step stepped mem with before | pushes
  · exact Trace.mem_delegated_cons.2 (.inr (recorded.relaying g p e before))
  · cases pushes with
    | relays status =>
        have there := World.getElem?_of_status status (by simp)
        exact Trace.mem_delegated_cons.2 (.inr (recorded.delegating _ p e there))
    | delegates stack signal turn passes made =>
        exact Trace.mem_delegated_cons.2 (.inl ⟨g, e, made, rfl⟩)

include standing

theorem entered_step {i : Nat} {t : Status G} (there : d.world.gens[i]? = some t) :
    (∃ p, t = .fresh p) ∨ t = .finished ∨ i ∈ Trace.entered (c :: trace) := by
  have before {u : Status G} (there : c.world.gens[i]? = some u) (begun : ∀ p, u ≠ .fresh p)
      (other : u ≠ .finished) : i ∈ Trace.entered (c :: trace) := by
    rcases recorded.entered i u there with ⟨p, same⟩ | same | entered
    · exact absurd same (begun p)
    · exact absurd same other
    · exact Trace.mem_entered_cons.2 (.inr entered)
  have active {g : Gen} {a : Activation G} {rest : List (Activation G)}
      (stack : c.stack = a :: rest) (body : a.active? = some g) (same : g.id = i) :
      i ∈ Trace.entered (c :: trace) := by
    subst same
    exact before (Manned.running standing.active (by rw [stack]; exact .head _) body) (by simp) (by simp)
  rcases (Config.moves_step stepped).sets standing.active there with same | sets
  · exact (recorded.entered i t same).imp_right
      (.imp_right fun entered => Trace.mem_entered_cons.2 (.inr entered))
  · cases sets with
    | spawned p new => exact .inl ⟨p, rfl⟩
    | ending why => exact .inr (.inl rfl)
    | begun why =>
        refine .inr (.inr ?_)
        rcases why with entered | ⟨g, p, -, -, ⟨how, was⟩ | ⟨e, was⟩⟩
        · exact Trace.mem_entered_cons.2 (.inl entered)
        · exact before was (by simp) (by simp)
        · exact before was (by simp) (by simp)
    | suspends stack signal turn same => exact .inr (.inr (active stack rfl same))
    | hands stack signal same => exact .inr (.inr (active stack rfl same))

theorem delegating_step {i : Nat} {p : Routine G} {e : Gen}
    (there : d.world.gens[i]? = some (.delegating p e)) :
    (i, e.id) ∈ Trace.delegated (c :: trace) := by
  rcases (Config.moves_step stepped).sets standing.active there with same | sets
  · exact Trace.mem_delegated_cons.2 (.inr (recorded.delegating i p e same))
  · cases sets with
    | hands stack signal same =>
        subst same
        have before := recorded.relaying _ p e (by rw [stack]; exact .head _)
        exact Trace.mem_delegated_cons.2 (.inr before)

omit stepped in
theorem stepped_step (starting : Starting trace c) (genuine : Genuine trace c) {m i : Nat}
    (ran : (m, i) ∈ Trace.ran (c :: trace)) (begun : m ∈ Trace.stepped (c :: trace)) :
    i ∈ Trace.entered (c :: trace) := by
  refine Trace.mem_entered_cons.2 (.inr ?_)
  rcases Trace.mem_stepped_cons begun with here | past
  · obtain ⟨a, rest, r, p, stack, signal, machine⟩ := Config.stepped?_eq_some here
    have mem : a ∈ c.stack := by simp [stack]
    obtain ⟨g, rfl, made, -⟩ := standing.seated.machine mem machine
    have before : (m, i) ∈ trace.ran := by
      rcases Trace.mem_ran_cons ran with now | before
      · exact absurd made ((genuine.ran m i now).2 _)
      · exact before
    obtain rfl := standing.seated.once m i g.id before made
    rcases recorded.entered _ _ (Manned.running standing.active mem rfl) with ⟨_, same⟩ | same | entered
    · cases same
    · cases same
    · exact entered
  · rcases Trace.mem_ran_cons ran with now | before
    · obtain ⟨j, made⟩ := starting.inside m past
      exact absurd made ((genuine.ran m i now).2 j)
    · exact recorded.stepped m i before past

omit stepped in
/-- A machine advances only what is in a frame. -/
theorem entries_step (starting : Starting trace c) {i : Nat} (mem : i ∈ Trace.entered (c :: trace)) :
    i ∈ Trace.framed (c :: trace) ∨ i ∈ Trace.advanced (c :: trace) := by
  rcases Trace.mem_entered_cons.1 mem with ⟨g, j, asked, rfl⟩ | before
  · cases machine : c.stack.head?.bind Activation.machine? with
    | none => exact .inr (Trace.advanced_here (by simp [Config.advanced?, asked, machine]))
    | some q =>
        obtain ⟨b, head, machine⟩ := Option.bind_eq_some_iff.1 machine
        have mem := List.mem_of_mem_head? head
        obtain ⟨h, rfl, -⟩ := standing.seated.machine mem machine
        have waits := standing.aligned.advances _ g j head rfl asked
        obtain ⟨m, p⟩ := q
        cases p with
        | advancing content =>
            obtain ⟨g', t, rest, rfl, top⟩ := standing.aligned.held _ mem m _ rfl
            cases waits
            exact .inl (Trace.framed_cons (starting.stacked m g t (by simp [top])))
        | _ => contradiction
  · exact (recorded.entries i before).imp Trace.framed_cons Trace.advanced_cons

theorem step (starting : Starting trace c) (genuine : Genuine trace c) :
    Recorded (c :: trace) d where
  toManned := recorded.toManned.step standing stepped
  entered _ _ := recorded.entered_step standing stepped
  delegating _ _ _ := recorded.delegating_step standing stepped
  relaying _ _ _ := recorded.relaying_step stepped
  stepped _ _ := recorded.stepped_step standing starting genuine
  entries _ := recorded.entries_step standing starting

end Step

end Recorded
end OneShot
