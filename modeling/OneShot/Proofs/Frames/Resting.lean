import OneShot.Proofs.Frames.Spent

/-!
# Generators at rest

A generator in a frame that is not on top of its stack is at rest: it waits for the
frames above, or for the continuation that has it.  What it delegates to is at rest
as well, and if that is a machine, it is spent.  Only a generator that was closed may
have gone on in the meantime.
-/

namespace OneShot

open Store (Quietly)

variable {G : Guest} {trace : Trace G} {c d : Config G}

/-- A generator waits at a suspension point, and what it delegates to does so too. -/
inductive Rests (trace : Trace G) (c : Config G) : Gen → Prop
  | spent {g : Gen} {m : Nat} (ran : (m, g.id) ∈ trace.ran) (spent : Spent c g m)
      (still : c.world.status g = .suspended (.library (.machine m .resent)) .inner ∨
        g.id ∈ trace.closed) : Rests trace c g
  | closed {g : Gen} (closed : g.id ∈ trace.closed) (inside : g.id < c.world.gens.size)
      (other : ∀ m, (m, g.id) ∉ trace.ran) : Rests trace c g
  | waits {g : Gen} {p : Routine G} {how : Suspension} (status : c.world.status g = .suspended p how)
      (other : ∀ m, (m, g.id) ∉ trace.ran) : Rests trace c g
  | relays {g e : Gen} {p : Routine G} (status : c.world.status g = .delegating p e)
      (inner : Rests trace c e) : Rests trace c g

/-- What is in a frame is at rest. -/
def Val.Rests (trace : Trace G) (c : Config G) (v : Val) : Prop :=
  ∀ g t, v = .frame (.generator (.gen g) t) → OneShot.Rests trace c g

/--
A frame is on a stack, but not on top unless the machine waits for a clause; or in a
continuation that is not taken, or whose request was not answered yet.
-/
inductive Buried (trace : Trace G) (c : Config G) (v : Val) : Prop
  | stacked {m : Nat} (mem : v ∈ (c.world.store.stack m).tail) : Buried trace c v
  | calling {a : Activation G} {m : Nat} (waits : a ∈ c.stack)
      (machine : a.machine? = some (m, .calling)) (mem : v ∈ c.world.store.stack m) :
      Buried trace c v
  | slices {k : Cont} (kept : c.world.store.isTaken k = false ∨ ∃ q ∈ trace.outstanding, q.2 = k)
      (mem : v ∈ c.world.store.frames k) : Buried trace c v

/-! ## Generators that stay at rest -/

/-- A generator that is not running is at rest as before, unless it is advanced, or it was closed. -/
theorem Rests.step (rests : Rests trace c g) (ordered : Ordered trace c)
    (recorded : Recorded trace c) (tidy : Tidy trace c) (stepped : c.step = .ok d)
    (unasked : ∀ h i, c.signal = .advance h i → h.id ≠ g.id) : Rests (c :: trace) d g := by
  have moves := Config.moves_step stepped
  have active := ordered.active
  have unran {g : Gen} (inside : g.id < c.world.gens.size) (other : ∀ m, (m, g.id) ∉ trace.ran)
      (m : Nat) : (m, g.id) ∉ Trace.ran (c :: trace) :=
    fun ran => other m (Trace.ran_before ran inside)
  have now {g : Gen} {t : Status G} (status : c.world.status g = t) (idle : t ≠ .running)
      (begun : t ≠ .finished) (unasked : ∀ h i, c.signal = .advance h i → h.id ≠ g.id) :
      d.world.status g = t ∨ g.id ∈ Trace.closed (c :: trace) := by
    have there := World.getElem?_of_status status begun
    rcases moves.status_of_idle active there idle with same | ⟨h, i, asked, same⟩ | closed
    · exact .inl (World.status_of same)
    · exact absurd same (unasked h i asked)
    · exact .inr (Trace.mem_closed_cons.2 (.inl closed))
  have shut {g : Gen} (closed : g.id ∈ Trace.closed (c :: trace)) (inside : g.id < c.world.gens.size)
      (other : ∀ m, (m, g.id) ∉ trace.ran) : Rests (c :: trace) d g :=
    .closed closed (Nat.lt_of_lt_of_le inside moves.size_gens) (unran inside other)
  have lt {g : Gen} {t : Status G} (status : c.world.status g = t) (begun : t ≠ .finished) :
      g.id < c.world.gens.size :=
    (Array.getElem?_eq_some_iff.1 (World.getElem?_of_status status begun)).1
  induction rests with
  | spent ran spent still =>
      refine .spent (Trace.ran_cons ran)
        (spent.step ordered.toStanding recorded tidy.toGenuine ran stepped) ?_
      rcases still with suspended | closed
      · exact now suspended (by simp) (by simp) unasked
      · exact .inr (Trace.mem_closed_cons.2 (.inr closed))
  | closed closed inside other => exact shut (Trace.mem_closed_cons.2 (.inr closed)) inside other
  | waits status other =>
      rcases now status (by simp) (by simp) unasked with same | closed
      · exact .waits same (unran (lt status (by simp)) other)
      · exact shut closed (lt status (by simp)) other
  | @relays g e p status inner ih =>
      have there := World.getElem?_of_status status (by simp)
      -- only what delegates to it advances it, and that is not running
      have inner_unasked (h : Gen) (i : Input) (asked : c.signal = .advance h i) : h.id ≠ e.id := by
        intro same
        have delegated := recorded.delegating g.id p e there
        rw [← same] at delegated
        obtain ⟨j, q, head, same'⟩ := tidy.sole h i g.id asked delegated
        have running := Manned.running active (List.mem_of_mem_head? head) rfl
        rw [same', there] at running
        cases running
      rcases now status (by simp) (by simp) unasked with same | closed
      · exact .relays same (ih inner_unasked)
      · refine shut closed (lt status (by simp)) fun m ran => ?_
        exact (recorded.manned m _ _ ran there).elim

/-- No generator in a buried frame is advanced. -/
theorem Buried.unasked {g h : Gen} {t : Tag} {i : Input}
    (buried : Buried trace c (.frame (.generator (.gen g) t))) (ordered : Ordered trace c)
    (orderly : Orderly trace c) (asked : c.signal = .advance h i) : h.id ≠ g.id := by
  intro same
  have framed : h.id ∈ trace.framed := by
    rw [same]
    cases buried with
    | stacked mem => exact ordered.starting.stacked _ g t (List.mem_of_mem_tail mem)
    | calling waits machine mem => exact ordered.starting.stacked _ g t mem
    | slices kept mem => exact ordered.starting.sliced _ g t mem
  -- so a machine advances it, on top of whose stack it is
  cases machine : c.stack.head?.bind Activation.machine? with
  | none =>
      refine orderly.advanced h ?_ framed
      simp [Config.advanced?, asked, machine]
  | some q =>
      obtain ⟨b, head, machine⟩ := Option.bind_eq_some_iff.1 machine
      obtain ⟨rest, stack⟩ := List.head?_eq_some_iff.1 head
      have mem_b : b ∈ c.stack := List.mem_of_mem_head? head
      obtain ⟨j, rfl, ran, -⟩ := ordered.seated.machine mem_b machine
      have inside := ordered.sound.ran q.1 _ ran
      have waits := ordered.aligned.advances _ h i head rfl asked
      obtain ⟨m, p⟩ := q
      cases p with
      | advancing content =>
          obtain ⟨h', u, below, rfl, top⟩ := ordered.aligned.held _ mem_b m _ rfl
          cases waits
          have here : Key.gen h.id ∈ (c.world.store.stack m).flatMap Val.keys := by
            simp [top, Val.keys]
          have key : Key.gen h.id ∈ Val.keys (.frame (.generator (.gen g) t)) := by
            simp [Val.keys, same]
          cases buried with
          | @stacked n mem =>
              have there : Key.gen h.id ∈ (c.world.store.stack n).flatMap Val.keys :=
                List.mem_flatMap.2 ⟨_, List.mem_of_mem_tail mem, key⟩
              have known : n < c.world.store.machines.size := by
                by_contra outside
                simp [Store.stack, Array.getElem?_eq_none (Nat.not_lt.1 outside)] at mem
              obtain rfl := ordered.owning.unique inside known here there
              have once := ordered.owning.once_stacked inside
              rw [top] at mem once
              rw [List.flatMap_cons] at once
              refine (List.nodup_append.1 once).2.2 (.gen h.id) (by simp [Val.keys]) (.gen h.id) ?_ rfl
              exact List.mem_flatMap.2 ⟨_, mem, key⟩
          | @calling b n mem_b machine' mem =>
              have there : Key.gen h.id ∈ (c.world.store.stack n).flatMap Val.keys :=
                List.mem_flatMap.2 ⟨_, mem, key⟩
              obtain ⟨j', rfl, ran', -⟩ := ordered.seated.machine mem_b machine'
              obtain rfl := ordered.owning.unique inside (ordered.sound.ran n _ ran') here there
              rw [stack] at mem_b
              rcases List.mem_cons.1 mem_b with same | mem_b
              · cases same
              · exact ordered.seated.alone ordered.active (stack.trans (List.nil_append _).symm)
                  mem_b rfl rfl
          | slices kept mem =>
              refine ordered.owning.apart inside here kept ?_
              exact List.mem_flatMap.2 ⟨_, mem, key⟩
      | _ => contradiction

/-! ## Turns of machines -/

namespace Machine

variable {s t : Store} {m : Nat} {p : Phase} {r : Reply} {P : Val → Prop}

/--
What holds of all frames that are buried holds of them again after an outcome was
delivered; only what is on top may be different, and it was on top before.
-/
theorem Delivered.buries {o : Outcome} {base left : List Val} {turn : Turn Phase}
    (h : Delivered o base left turn) (tail : ∀ v ∈ base.tail, P v) :
    (∀ v ∈ left.tail, P v) ∧ (∀ a, turn = .ask a .calling → ∀ v ∈ left, P v) ∧
      ∀ f rest, left = f :: rest → P f ∨ base.head? = some f := by
  induction h with
  | finish o => exact ⟨by simp, by simp, by simp⟩
  | returns h t v rest =>
      refine ⟨fun v mem => tail v (List.mem_of_mem_tail mem), fun a _ => tail, fun f rest' same => ?_⟩
      exact .inl (tail f (by simp [same]))
  | passes h t below ih =>
      obtain ⟨tail', calling, top⟩ := ih fun v mem => tail v (List.mem_of_mem_tail mem)
      refine ⟨tail', calling, fun f rest' same => .inl ?_⟩
      rcases top f rest' same with fine | head
      · exact fine
      · exact tail f (List.mem_of_mem_head? head)
  | advances o g t rest => exact ⟨tail, by simp, fun f rest' same => .inr (by simp [same])⟩

/-- What a turn leaves buried, if the frames that `P` holds of are buried before. -/
structure Buries (P : Val → Prop) (s t : Store) (m : Nat) (p : Phase) (r : Reply)
    (moved : Turn Phase) : Prop where
  tail : ∀ v ∈ (t.stack m).tail, P v
  calling : ∀ a, moved = .ask a .calling → ∀ v ∈ t.stack m, P v
  top : ∀ f rest, t.stack m = f :: rest → P f ∨ (s.stack m).head? = some f ∨
    ∃ g u, f = .frame (.generator (.gen g) u) ∧ (Process.machine m p).framed? r = some g
  slices : ∀ k : Cont, s.conts.size ≤ k.index → ∀ v ∈ t.frames k, P v

theorem Buries.of_sets {left : List Val} {moved : Turn Phase} (sets : Store.Sets s t m left none)
    (tail : ∀ v ∈ left.tail, P v) (calling : ∀ a, moved = .ask a .calling → ∀ v ∈ left, P v)
    (top : ∀ f rest, left = f :: rest → P f ∨ (s.stack m).head? = some f ∨
      ∃ g u, f = .frame (.generator (.gen g) u) ∧ (Process.machine m p).framed? r = some g) :
    Buries P s t m p r moved := by
  refine ⟨sets.stack_eq ▸ tail, sets.stack_eq ▸ calling, sets.stack_eq ▸ top, fun k out v mem => ?_⟩
  rw [sets.frames] at mem
  have none_there : s.frames k = [] := by
    simp [Store.frames, Array.getElem?_eq_none out]
  simp [none_there] at mem

/-- The top of a stack is buried only after it has yielded, and not an escape. -/
theorem Does.buries {moved : Turn Phase} (does : Does s m p r t moved) (own : s.Own)
    (inside : m < s.machines.size) (tail : ∀ v ∈ (s.stack m).tail, P v)
    (calling : p = .calling → ∀ v ∈ s.stack m, P v)
    (received : ∀ op, received? p r = some op → (∀ id action, op ≠ .escape id action) →
      ∀ v ∈ s.stack m, P v)
    (pushed : ∀ q, pushed? p r = some q → ∀ v ∈ s.frames q.2, P v)
    (pending : ∀ k, s.isTaken k = false → ∀ v ∈ s.frames k, P v) : Buries P s t m p r moved := by
  cases does with
  | @settles _ _ o base left u _ _ delivers delivered after =>
      have sets := delivers.sets own inside after
      have of_base (tail : ∀ v ∈ base.tail, P v)
          (top : ∀ f, base.head? = some f → P f ∨ (s.stack m).head? = some f ∨
            ∃ g u, f = .frame (.generator (.gen g) u) ∧ (Process.machine m p).framed? r = some g) :
          Buries P s t m p r moved := by
        obtain ⟨tail', calling', top'⟩ := delivered.buries tail
        refine .of_sets sets tail' calling' fun f rest same => ?_
        exact (top' f rest same).elim .inl (top f)
      have of_stack (same : base = s.stack m) : Buries P s t m p r moved := by
        subst same
        exact of_base tail fun f head => .inr (.inl head)
      have of_all (all : ∀ v ∈ base, P v) : Buries P s t m p r moved :=
        of_base (fun v mem => all v (List.mem_of_mem_tail mem))
          fun f head => .inl (all f (List.mem_of_mem_head? head))
      cases delivers with
      | start r => exact of_stack rfl
      | answered r v waits => exact of_stack rfl
      | raised x waits => exact of_stack rfl
      | discarded op r x => exact of_stack rfl
      | @pushed _ w g value made =>
          refine of_base (calling rfl) fun f head => .inr (.inr ?_)
          cases head
          refine ⟨g, _, rfl, ?_⟩
          rcases value with rfl | rfl <;> exact made
      | ended c w stack value =>
          rw [stack] at tail
          exact of_all tail
      | broken c x stack =>
          rw [stack] at tail
          exact of_all tail
      | resumed c id k v e =>
          refine of_all fun w mem => ?_
          rcases List.mem_append.1 mem with slice | here
          · exact pushed (id, k) rfl w slice
          · exact received _ rfl (by simp) w here
  | halts left after ending unasked begun =>
      refine .of_sets (sets_of_take left own after) tail (fun a same => ?_) fun f rest same =>
        .inr (.inl (by simp [same]))
      rw [same] at ending
      contradiction
  | escapes c id action =>
      exact .of_sets (.refl own m) tail (by simp) fun f rest same => .inr (.inl (by simp [same]))
  | @closes _ _ v rest x contents =>
      exact .of_sets (.refl own m) tail (by cases v <;> simp [Ask.closing])
        fun f rest same => .inr (.inl (by simp [same]))
  | @discards c op v rest stack unasked =>
      rw [stack] at tail
      exact .of_sets (.setStack own inside rest) (fun v mem => tail v (List.mem_of_mem_tail mem))
        (by cases c <;> simp [Ask.closing]) fun f rest' same => .inl (tail f (by simp [same]))
  | @captures c op i above below brought inner u t turn invoked whole brings after directs =>
      have all := received op rfl (by rintro id action rfl; cases invoked)
      have sets := brings.sets own inside after
      have left : ∀ v ∈ below, P v := fun v mem => all v (by simp [whole, mem])
      refine ⟨sets.stack_eq ▸ fun v mem => left v (List.mem_of_mem_tail mem),
        sets.stack_eq ▸ fun a _ => left,
        sets.stack_eq ▸ fun f rest same => .inl (left f (by simp [same])), fun k out v mem => ?_⟩
      rw [sets.frames] at mem
      split at mem
      · rcases List.mem_append.1 mem with came | here
        · cases brings with
          | invocation id i => simp at came
          | resend id e args k context waiting => exact pending k waiting v came
        · exact all v (by simp [whole, here])
      · have none_there : s.frames k = [] := by
          simp [Store.frames, Array.getElem?_eq_none out]
        simp [none_there] at mem

end Machine

/-! ## Runs -/

namespace Config

variable {g : Gen} {p p' : Routine G} {rest : List (Activation G)} {v : Val}

theorem status_of_yield {r : Reply} {how : Suspension} (stack : c.stack = .running g p :: rest)
    (signal : c.signal = .reply r) (turn : (p.step c.world r).2 = .ask (.yield v how) p')
    (active : c.Active) (stepped : c.step = .ok d) : d.world.status g = .suspended p' how := by
  have running := Manned.running active (by rw [stack]; exact .head _) rfl
  have inside := (Array.getElem?_eq_some_iff.1 running).1
  obtain ⟨w, _, _⟩ := c
  cases stack
  cases signal
  cases stepped
  have same : (p.step w r).1.gens = w.gens := Routine.step_gens (Prod.eta _).symm
  simp only [deliver, turn, turnOf, reply]
  exact World.status_setStatus (same ▸ inside) _

theorem status_of_relay {e : Gen} (stack : c.stack = .relaying g p e :: rest)
    (signal : c.signal = .reply (.yielded v)) (active : c.Active) (stepped : c.step = .ok d) :
    d.world.status g = .delegating p e := by
  have running := Manned.running active (by rw [stack]; exact .head _) rfl
  have inside := (Array.getElem?_eq_some_iff.1 running).1
  obtain ⟨w, _, _⟩ := c
  cases stack
  cases signal
  cases stepped
  exact World.status_setStatus inside _

end Config

/-- A machine that waits for a clause did so before, or has made the step. -/
theorem Standing.calling_before (standing : Standing trace c) (after : Seated (c :: trace) d)
    (stepped : c.step = .ok d) {a : Activation G} {n : Nat} (mem : a ∈ d.stack)
    (machine : a.machine? = some (n, .calling)) : a ∈ c.stack ∨ c.stepped? = some n := by
  rcases Config.pushes_step stepped mem with before | pushes
  · exact .inl before
  · obtain ⟨g, rfl, -⟩ := after.machine mem machine
    cases pushes with
    | enters status =>
        rcases status with status | ⟨how, status⟩
        · have fair := standing.seated.gens _ _ (World.getElem?_of_status status (by simp))
          rcases fair with plain | ⟨m, q, same, rfl, -⟩
          · exact absurd plain.machine? (by simp [Routine.machine?])
          · cases same
        · have fair := standing.seated.gens _ _ (World.getElem?_of_status status (by simp))
          rcases fair with plain | ⟨m, q, same, rfl | rfl, -⟩
          · exact absurd plain.machine? (by simp [Routine.machine?])
          · cases same
          · cases same
    | @turns g p p' r rest stack signal next =>
        rcases standing.seated.stack (.running g p) (by simp [stack]) with plain | ⟨m, q, rfl, -⟩
        · have plain' := Routine.Plain.next plain (Prod.eta _).symm next
          exact absurd plain'.machine? (by simp [Routine.machine?])
        · obtain ⟨a, q', same, -⟩ := Manned.machine_next standing stack signal next
          cases same
          exact .inr (Config.stepped?_machine stack signal)
    | @regains g e p rest stack =>
        have top := List.mem_of_mem_head? (congrArg List.head? stack)
        have plain : (Routine.library (.machine n .calling) : Routine G).Plain :=
          standing.seated.stack _ top
        exact absurd plain.machine? (by simp [Routine.machine?])
    | @leaves g p x rest stack =>
        have top := List.mem_of_mem_head? (congrArg List.head? stack)
        have plain : (Routine.library (.machine n .calling) : Routine G).Plain :=
          standing.seated.stack _ top
        exact absurd plain.machine? (by simp [Routine.machine?])

/-- The machine that has made a turn waits for a clause only if it has asked for that. -/
theorem Machine.Followed.calling {w : World G} {g i : Gen} {m : Nat} {rest : List (Activation G)}
    {t : Store} {moved : Turn Machine.Phase} (followed : Followed w g m rest t moved d)
    (alone : .running i (.library (.machine m .calling)) ∉ rest)
    (waits : .running i (.library (.machine m .calling)) ∈ d.stack) :
    ∃ a, moved = .ask a .calling := by
  have top {q : Machine.Phase} {a : Ask} (there : Activation.running i
      (.library (.machine m .calling)) ∈ .running g (.library (.machine m q)) :: rest) :
      ∃ b, Turn.ask a q = .ask b .calling := by
    rcases List.mem_cons.1 there with same | there
    · cases same
      exact ⟨a, rfl⟩
    · exact absurd there alone
  cases followed with
  | calls f args q => exact top waits
  | advances h j q => exact top waits
  | closes h q => exact top waits
  | yields w how q => exact absurd waits alone
  | ends ending quiet final => exact absurd waits alone

/-- What is not taken after a step was not taken before, if it is not new. -/
theorem Config.isTaken_before (stepped : c.step = .ok d) {k : Cont}
    (known : k.index < c.world.store.conts.size) (pending : d.world.store.isTaken k = false) :
    c.world.store.isTaken k = false := by
  have taken := (Config.takes_step stepped).taken k known
  rw [pending] at taken
  cases before : c.world.store.isTaken k with
  | false => rfl
  | true => simp [before] at taken

/-- What is buried after a step that no machine makes was buried before. -/
theorem Buried.before {g : Gen} {t : Tag} (buried : Buried (c :: trace) d (.frame (.generator (.gen g) t)))
    (ordered : Ordered trace c) (orderly : Orderly trace c) (stepped : c.step = .ok d)
    (idle : c.stepped? = none) : Buried trace c (.frame (.generator (.gen g) t)) := by
  have after := (ordered.toStanding.step orderly.toGenuine stepped).seated
  have shift := ordered.toStanding.shift orderly.toGenuine stepped
  have adds : d.world.store.frames = c.world.store.frames ∧ ∀ m,
      d.world.store.stack m = c.world.store.stack m ∨
        ∀ v ∈ (d.world.store.stack m).tail, v.IsHandler := by
    rcases shift.changes ordered.sound ordered.seated with
      ⟨-, adds | ⟨_, _, _, -, proper, adds⟩⟩ | ⟨m, p, r, g, rest, _, _, stack, signal, -⟩
    · exact ⟨adds.frames, fun m => .inl (by simp [adds.onStacks])⟩
    · refine ⟨adds.frames, fun m => ?_⟩
      rw [adds.onStacks]
      split
      · exact .inr proper
      · exact .inl rfl
    · rw [Config.stepped?_machine stack signal] at idle
      contradiction
  cases buried with
  | @stacked m mem =>
      rcases adds.2 m with same | handlers
      · exact .stacked (same ▸ mem)
      · obtain ⟨h, u, same⟩ := handlers _ mem
        cases same
  | @calling a n waits machine mem =>
      rcases ordered.toStanding.calling_before after stepped waits machine with before | now
      · obtain ⟨i, -, ran, -⟩ := ordered.seated.machine before machine
        refine .calling before machine ?_
        rwa [shift.stack_eq ordered.sound ordered.seated (ordered.sound.ran n _ ran)
          (by simp [idle])] at mem
      · rw [idle] at now
        contradiction
  | @slices k kept mem =>
      rw [adds.1] at mem
      refine .slices ?_ mem
      rcases kept with pending | ⟨q, asked, rfl⟩
      · have known : k.index < c.world.store.conts.size := by
          by_contra outside
          simp [Store.frames, Array.getElem?_eq_none (Nat.not_lt.1 outside)] at mem
        exact .inl (Config.isTaken_before stepped known pending)
      · rcases Trace.mem_outstanding_cons asked with now | before
        · exact .inl (Config.requested?_eq_some now).2
        · exact .inr ⟨q, before, rfl⟩

/-- Whether a property holds of the generator that a frame holds, if it holds one. -/
def Val.Holding (Q : Gen → Prop) (v : Val) : Prop :=
  ∀ g t, v = .frame (.generator (.gen g) t) → Q g

/--
What is known of the generators in buried frames, and of what has just yielded, unless
that is an escape.
-/
structure Keeps (Q : Gen → Prop) (trace : Trace G) (c : Config G) : Prop where
  buried : ∀ g t, Buried trace c (.frame (.generator (.gen g) t)) → Q g
  yielded : ∀ g v, Yields trace g v → (∀ id action, v ≠ .escape id action) → Q g

namespace Keeps

variable {Q : Gen → Prop}

theorem holding (keeps : Keeps Q trace c) {v : Val} (buried : Buried trace c v) : v.Holding Q := by
  rintro g t rfl
  exact keeps.buried g t buried

/-- What the topmost machine has received has not left anything on its stack unsettled. -/
theorem received (keeps : Keeps Q trace c) (standing : Standing trace c) {m : Nat} {g : Gen}
    {p : Machine.Phase} {r : Reply} {rest : List (Activation G)} {op : Val}
    (stack : c.stack = .running g (.library (.machine m p)) :: rest) (signal : c.signal = .reply r)
    (got : Machine.received? p r = some op) (other : ∀ id action, op ≠ .escape id action) :
    ∀ v ∈ c.world.store.stack m, v.Holding Q := by
  have got' := (Config.received?_machine stack signal).trans got
  obtain ⟨g', m', i, t, below, rest', stack', -, top, yields⟩ := standing.received got'
  rw [stack] at stack'
  cases stack'
  intro v mem h u same
  rw [top] at mem
  rcases List.mem_cons.1 mem with rfl | mem
  · cases same
    exact keeps.yielded _ op yields other
  · exact keeps.buried h u (.stacked (m := m) (by rw [top]; exact same ▸ mem))

/-- What a machine leaves buried is at rest. -/
theorem buries (keeps : Keeps Q trace c) (ordered : Ordered trace c) (tidy : Tidy trace c)
    {m : Nat} {g : Gen} {p : Machine.Phase} {r : Reply} {rest : List (Activation G)} {t : Store}
    {moved : Turn Machine.Phase} (stack : c.stack = .running g (.library (.machine m p)) :: rest)
    (signal : c.signal = .reply r) (does : Machine.Does c.world.store m p r t moved) :
    Machine.Buries (fun v => v.Holding Q) c.world.store t m p r moved := by
  have mem_top : Activation.running g (.library (.machine m p)) ∈ c.stack := by simp [stack]
  obtain ⟨_, -, ran, -⟩ := ordered.seated.machine mem_top rfl
  refine does.buries ordered.sound.own (ordered.sound.ran m _ ran) ?_ ?_ ?_ ?_ ?_
  · exact fun v mem => keeps.holding (.stacked mem)
  · rintro rfl v mem
    exact keeps.holding (.calling mem_top rfl mem)
  · exact fun op got other => keeps.received ordered.toStanding stack signal got other
  · intro q asked v mem
    have outstanding := tidy.pushed q (Config.pushed?_machine stack signal ▸ asked)
    exact keeps.holding (.slices (.inr ⟨q, outstanding, rfl⟩) mem)
  · exact fun k pending v mem => keeps.holding (.slices (.inl pending) mem)

theorem buried_machine (keeps : Keeps Q trace c) (ordered : Ordered trace c)
    (tidy : Tidy trace c) (stepped : c.step = .ok d) {m : Nat} {g : Gen}
    {p : Machine.Phase} {r : Reply} {rest : List (Activation G)}
    (stack : c.stack = .running g (.library (.machine m p)) :: rest) (signal : c.signal = .reply r)
    {v : Val} (buried : Buried (c :: trace) d v) : v.Holding Q := by
  have own := ordered.sound.own
  have mem_top : Activation.running g (.library (.machine m p)) ∈ c.stack := by simp [stack]
  obtain ⟨_, -, ran, -⟩ := ordered.seated.machine mem_top rfl
  have inside := ordered.sound.ran m _ ran
  have shift := ordered.toStanding.shift tidy.toGenuine stepped
  have after := (ordered.toStanding.step tidy.toGenuine stepped).seated
  obtain ⟨t, moved, -, does, followed⟩ := ordered.sound.follows ordered.seated stack signal stepped
  have buries := keeps.buries ordered tidy stack signal does
  have store := followed.quiet
  have same : d.world.store.stack m = t.stack m :=
    (does.own own inside).stack_eq (Store.machines_of_engine store.engine) m
  have frames := Store.frames_of_conts (Store.conts_of_engine store.engine)
  have elsewhere {n : Nat} (ne : n ≠ m) (known : n < c.world.store.machines.size) :
      d.world.store.stack n = c.world.store.stack n := by
    refine shift.stack_eq ordered.sound ordered.seated known ?_
    rw [Config.stepped?_machine stack signal]
    exact fun here => ne (Option.some.inj here).symm
  have slice {k : Cont} (mem : v ∈ d.world.store.frames k)
      (kept : k.index < c.world.store.conts.size → c.world.store.isTaken k = false ∨
        ∃ q ∈ trace.outstanding, q.2 = k) : v.Holding Q := by
    by_cases known : k.index < c.world.store.conts.size
    · rw [shift.frames_eq ordered.sound ordered.seated known] at mem
      exact keeps.holding (.slices (kept known) mem)
    · exact buries.slices k (Nat.not_lt.1 known) v (frames ▸ mem)
  cases buried with
  | @stacked n mem =>
      by_cases here : n = m
      · subst here
        exact buries.tail v (same ▸ mem)
      · have known : n < c.world.store.machines.size := by
          obtain ⟨_, _, sets⟩ := does.sets own inside
          have size := (sets.after store).size
          by_contra outside
          rw [← size] at outside
          simp [Store.stack, Array.getElem?_eq_none (Nat.not_lt.1 outside)] at mem
        rw [elsewhere here known] at mem
        exact keeps.holding (.stacked mem)
  | @calling a n waits machine mem =>
      obtain ⟨i, rfl, -⟩ := after.machine waits machine
      by_cases here : n = m
      · subst here
        have alone : Activation.running i (.library (.machine n .calling)) ∉ rest := fun there =>
          ordered.seated.alone ordered.active (stack.trans (List.nil_append _).symm) there rfl rfl
        obtain ⟨a, asks⟩ := followed.calling alone waits
        exact buries.calling a asks v (same ▸ mem)
      · have before : Activation.running i (.library (.machine n .calling)) ∈ c.stack := by
          refine (ordered.toStanding.calling_before after stepped waits machine).resolve_right ?_
          rw [Config.stepped?_machine stack signal]
          exact fun same => here (Option.some.inj same).symm
        obtain ⟨_, -, ran', -⟩ := ordered.seated.machine before machine
        rw [elsewhere here (ordered.sound.ran n _ ran')] at mem
        exact keeps.holding (.calling before machine mem)
  | @slices k kept mem =>
      refine slice mem fun known => ?_
      rcases kept with pending | ⟨q, asked, rfl⟩
      · exact .inl (Config.isTaken_before stepped known pending)
      · rcases Trace.mem_outstanding_cons asked with now | before
        · obtain ⟨⟨_, request, -⟩, -⟩ := Config.requested?_eq_some now
          rw [signal] at request
          contradiction
        · exact .inr ⟨q, before, rfl⟩

/-- It was known before of what is buried after a step, and the step does not advance that. -/
theorem after (keeps : Keeps Q trace c) (ordered : Ordered trace c) (tidy : Tidy trace c)
    (stepped : c.step = .ok d) {g : Gen} {t : Tag}
    (buried : Buried (c :: trace) d (.frame (.generator (.gen g) t))) :
    Q g ∧ ∀ h i, c.signal = .advance h i → h.id ≠ g.id := by
  rcases (ordered.toStanding.shift tidy.toGenuine stepped).changes ordered.sound ordered.seated with
    ⟨idle, -⟩ | ⟨m, p, r, i, rest, _, _, stack, signal, -⟩
  · have before := buried.before ordered tidy.toOrderly stepped idle
    exact ⟨keeps.buried g t before, fun h i asked => before.unasked ordered tidy.toOrderly asked⟩
  · exact ⟨keeps.buried_machine ordered tidy stepped stack signal buried g t rfl, by simp [signal]⟩

end Keeps

/-- What is buried is at rest, and so is what has just yielded, unless that is an escape. -/
structure Resting (trace : Trace G) (c : Config G) : Prop where
  buried : ∀ v, Buried trace c v → v.Rests trace c
  yielded : ∀ g v, Yields trace g v → (∀ id action, v ≠ .escape id action) →
    OneShot.Rests trace c g

namespace Resting

theorem yielded_step (resting : Resting trace c) (ordered : Ordered trace c)
    (recorded : Recorded trace c) (tidy : Tidy trace c) (stepped : c.step = .ok d) {g : Gen}
    {v : Val} (yields : Yields (c :: trace) g v) (other : ∀ id action, v ≠ .escape id action) :
    OneShot.Rests (c :: trace) d g := by
  cases yields with
  | @itself _ _ _ p p' r rest _ how stack signal turn =>
      have mem : Activation.running g p ∈ c.stack := by simp [stack]
      rcases ordered.seated.stack _ mem with plain | ⟨m, q, rfl, -, ran, -⟩
      · have status := Config.status_of_yield stack signal turn ordered.active stepped
        refine .waits status fun n ran => ?_
        obtain ⟨q, same⟩ := recorded.body ordered.active ran mem rfl
        cases same
        exact absurd plain.machine? (by simp [Routine.machine?])
      · obtain ⟨spent, status⟩ := ordered.toStanding.spent stepped stack signal turn other
        exact .spent (Trace.ran_cons ran) spent (.inl status)
  | relayed inner stack signal =>
      have before := resting.yielded _ v inner other
      refine .relays (Config.status_of_relay stack signal ordered.active stepped) ?_
      exact before.step ordered recorded tidy stepped (by simp [signal])

theorem keeps (resting : Resting trace c) : Keeps (OneShot.Rests trace c) trace c :=
  ⟨fun g t buried => resting.buried _ buried g t rfl, resting.yielded⟩

theorem step (resting : Resting trace c) (ordered : Ordered trace c) (recorded : Recorded trace c)
    (tidy : Tidy trace c) (stepped : c.step = .ok d) : Resting (c :: trace) d := by
  refine ⟨fun v buried g t same => ?_, fun g v yields other =>
    resting.yielded_step ordered recorded tidy stepped yields other⟩
  subst same
  obtain ⟨rests, unasked⟩ := resting.keeps.after ordered tidy stepped buried
  exact rests.step ordered recorded tidy stepped unasked

theorem of_fresh (fresh : c.Fresh) : Resting [] c := by
  refine ⟨fun v buried => ?_, fun g v yields => by cases yields⟩
  cases buried with
  | stacked mem => simp [Store.stack, fresh.machines] at mem
  | calling waits machine mem => simp [fresh.stack] at waits
  | slices kept mem => simp [Store.frames, fresh.conts] at mem

end Resting
end OneShot
