import OneShot.Proofs.Frames.Alignment

/-!
# Generators that were not started

A generator that is put into a frame may not have been started yet.  It is on top
of its stack then, and the machine starts it before it does anything else: so
nothing but none is sent into it first.
-/

namespace OneShot

open Store (Quietly)

variable {G : Guest}

/-- A generator that was not advanced yet. -/
def World.Unstarted (w : World G) (i : Nat) : Prop := ∃ p, w.gens[i]? = some (.fresh p)

/-- A generator that is not started was so before and is not being started, or is new. -/
theorem Moves.unstarted {c d : Config G} (moves : Moves c d) {i : Nat}
    (unstarted : d.world.Unstarted i) :
    (c.world.Unstarted i ∧ ∀ h, c.signal = .advance h (.send .none) → h.id ≠ i) ∨
      i = c.world.gens.size := by
  obtain ⟨p, there⟩ := unstarted
  have kept (same : d.world.gens = c.world.gens) (other : ∀ h i, c.signal ≠ .advance h i) :
      (c.world.Unstarted i ∧ ∀ h, c.signal = .advance h (.send .none) → h.id ≠ i) ∨
        i = c.world.gens.size :=
    .inl ⟨⟨p, same ▸ there⟩, fun h asked => absurd asked (other h _)⟩
  -- the status of a generator is set, from one that was not fresh if it was being started
  have set {w : World G} {g : Gen} {t : Status G} (other : ∀ q, t ≠ .fresh q)
      (now : (w.setStatus g t).gens[i]? = some (.fresh p)) : w.Unstarted i ∧ g.id ≠ i := by
    have before := World.getElem?_of_setStatus now
    refine ⟨?_, ?_⟩
    · rcases before with ⟨-, same⟩ | before
      · exact absurd same.symm (other p)
      · exact ⟨p, before⟩
    · rintro rfl
      simp only [World.setStatus, Array.getElem?_modify, if_true, Option.map_eq_some_iff] at now
      obtain ⟨-, -, same⟩ := now
      exact other p same
  cases moves with
  | answers calls => exact kept rfl (by simp)
  | enters calls entered => exact kept rfl (by simp)
  | @spawns w stack f args caller store memory q kind name calls spawned =>
      rcases World.getElem?_of_spawn kind name there with ⟨rfl, -⟩ | before
      · exact .inr rfl
      · exact .inl ⟨⟨p, before⟩, by simp⟩
  | forwards calls => exact kept rfl (by simp)
  | @stays w stack g i' store r quiet unmoved =>
      refine .inl ⟨⟨p, there⟩, fun h asked same => ?_⟩
      subst same
      have fresh := World.status_of there
      cases asked
      cases unmoved with
      | running i x status => exact absurd (status.symm.trans fresh) (by simp)
      | finished i status final => exact absurd (status.symm.trans fresh) (by simp)
      | unstarted x status other => exact other rfl
  | breaks x quiet status => exact .inl ⟨(set (by simp) there).1, by simp⟩
  | begins status =>
      obtain ⟨before, other⟩ := set (by simp) there
      exact .inl ⟨before, by rintro h ⟨⟩; exact other⟩
  | resumes quiet status =>
      obtain ⟨before, other⟩ := set (by simp) there
      exact .inl ⟨before, by rintro h ⟨⟩; exact other⟩
  | relays status =>
      obtain ⟨before, other⟩ := set (by simp) there
      exact .inl ⟨before, by rintro h ⟨⟩; exact other⟩
  | exits x status => exact .inl ⟨(set (by simp) there).1, by simp⟩
  | spares quiet final => exact kept rfl (by simp)
  | discards status => exact .inl ⟨(set (by simp) there).1, by simp⟩
  | interrupts x quiet status => exact .inl ⟨(set (by simp) there).1, by simp⟩
  | pursues x quiet status => exact .inl ⟨(set (by simp) there).1, by simp⟩
  | goes stack stepped answer =>
      have same := Routine.step_gens stepped
      exact kept same (by simp)
  | delegates stepped passes => exact kept (Routine.step_gens stepped) (by simp)
  | suspends stepped =>
      obtain ⟨⟨q, before⟩, -⟩ := set (by simp) there
      rw [Routine.step_gens stepped] at before
      exact .inl ⟨⟨q, before⟩, by simp⟩
  | ends stepped ending quiet final =>
      obtain ⟨⟨q, before⟩, -⟩ := set (by simp) there
      rw [Routine.step_gens stepped] at before
      exact .inl ⟨⟨q, before⟩, by simp⟩
  | returns stepped ending quiet final =>
      have same := Routine.step_gens stepped
      exact kept same (by simp)
  | hands v => exact .inl ⟨(set (by simp) there).1, by simp⟩
  | regains => exact kept rfl (by simp)
  | closes quiet final => exact kept rfl (by simp)
  | leaves y => exact kept rfl (by simp)

/-- Generators are only added. -/
theorem Moves.size_gens {c d : Config G} (moves : Moves c d) :
    c.world.gens.size ≤ d.world.gens.size := by
  have set (w : World G) (g : Gen) (t : Status G) : (w.setStatus g t).gens.size = w.gens.size := by
    simp [World.setStatus]
  cases moves with
  | spawns => simp [World.spawn]
  | goes stack stepped answer =>
      have same := Routine.step_gens stepped
      exact Nat.le_of_eq (by rw [same])
  | delegates stepped passes => exact Nat.le_of_eq (by rw [Routine.step_gens stepped])
  | suspends stepped => exact Nat.le_of_eq (by rw [set, Routine.step_gens stepped])
  | @ends w v stack g p r r' turn store stepped ending quiet final =>
      have same := set v g .finished
      rw [Routine.step_gens stepped] at same
      exact Nat.le_of_eq same.symm
  | returns stepped ending quiet final =>
      have same := Routine.step_gens stepped
      exact Nat.le_of_eq (by rw [same])
  | begins | resumes | relays | exits | discards | interrupts | pursues | breaks | hands =>
      exact Nat.le_of_eq (set _ _ _).symm
  | _ => exact Nat.le_refl _

/-! ## Turns of machines -/

namespace Machine

open Store (Sets)

variable {s t : Store} {m : Nat} {p : Phase} {r : Reply} {P : Val → Prop}

/-- Only what is on top may be different, and then it is started. -/
def Started (P : Val → Prop) (stack : List Val) (turn : Turn Phase) : Prop :=
  (∀ v ∈ stack.tail, P v) ∧ ∀ f rest, stack = f :: rest → P f ∨ ∃ g t,
    f = .frame (.generator (.gen g) t) ∧ turn = .ask (.advance g (.send .none)) (.advancing (.gen g))

theorem started_of_all {stack : List Val} (all : ∀ v ∈ stack, P v) (turn : Turn Phase) :
    Started P stack turn :=
  ⟨fun v mem => all v (List.mem_of_mem_tail mem), fun f rest same => .inl (all f (by simp [same]))⟩

theorem Delivered.started {o : Outcome} {base left : List Val} {turn : Turn Phase}
    (h : Delivered o base left turn) (tail : ∀ v ∈ base.tail, P v)
    (whole : o = .ok .none ∨ ∀ v ∈ base, P v) : Started P left turn := by
  induction h with
  | finish o => exact started_of_all (by simp) _
  | returns h t v rest => exact started_of_all tail _
  | passes h t below ih =>
      have all := whole.resolve_left (by simp)
      exact ih (fun v mem => tail v (List.mem_of_mem_tail mem)) (.inr tail)
  | advances o g t rest =>
      refine ⟨tail, fun f rest' same => ?_⟩
      cases same
      rcases whole with rfl | all
      · exact .inr ⟨g, t, rfl, rfl⟩
      · exact .inl (all _ List.mem_cons_self)

/-- What holds of all frames but those of generators that are to be started stays so. -/
theorem Does.started {moved : Turn Phase} (does : Does s m p r t moved) (own : s.Own)
    (inside : m < s.machines.size) (slices : ∀ k, ∀ v ∈ s.frames k, P v)
    (tail : ∀ v ∈ (s.stack m).tail, P v) (whole : p ≠ .start → ∀ v ∈ s.stack m, P v)
    (begun : p = .start → ∀ x, r ≠ .raised x) :
    Started P (t.stack m) moved ∧ ∀ k, ∀ v ∈ t.frames k, P v := by
  have of_sets {left : List Val} (sets : Sets s t m left none) (fine : Started P left moved) :
      Started P (t.stack m) moved ∧ ∀ k, ∀ v ∈ t.frames k, P v := by
    refine ⟨sets.stack_eq ▸ fine, fun k => ?_⟩
    rw [sets.frames]
    simpa using slices k
  cases does with
  | @settles _ _ o base left u _ _ delivers delivered after =>
      refine of_sets (delivers.sets own inside after) ?_
      have kept (other : p ≠ .start) (same : base = s.stack m) : Started P left moved := by
        subst same
        exact delivered.started tail (.inr (whole other))
      cases delivers with
      | start r => exact delivered.started tail (.inl rfl)
      | answered r v waits => exact kept (by rcases waits with rfl | rfl | rfl <;> simp) rfl
      | raised x waits => exact kept (by rcases waits with rfl | rfl | rfl <;> simp) rfl
      | discarded op r x => exact kept (by simp) rfl
      | pushed value made => exact delivered.started (whole (by simp)) (.inl rfl)
      | ended c w stack value =>
          have all := whole (by simp)
          rw [stack] at all tail
          exact delivered.started (fun v mem => tail v (List.mem_of_mem_tail mem)) (.inr tail)
      | broken c x stack =>
          have all := whole (by simp)
          rw [stack] at all tail
          exact delivered.started (fun v mem => tail v (List.mem_of_mem_tail mem)) (.inr tail)
      | resumed c id k v e =>
          have all : ∀ v ∈ s.frames k ++ s.stack m, P v := by
            intro v mem
            rcases List.mem_append.1 mem with slice | mem
            · exact slices k v slice
            · exact whole (by simp) v mem
          exact delivered.started (fun v mem => all v (List.mem_of_mem_tail mem)) (.inr all)
  | halts left after ending unasked began =>
      refine of_sets (sets_of_take left own after) (started_of_all (whole fun start => ?_) _)
      obtain ⟨x, raised⟩ := began start
      exact begun start x raised
  | escapes c id action => exact of_sets (.refl own m) (started_of_all (whole (by simp)) _)
  | closes contents =>
      refine of_sets (.refl own m) (started_of_all (whole ?_) _)
      rcases contents with ⟨rfl, -⟩ | rfl <;> simp
  | discards stack unasked =>
      refine of_sets (.setStack own inside _) (started_of_all ?_ _)
      rwa [stack] at tail
  | captures invoked stack brings after directs =>
      have all := whole (by simp)
      have sets := brings.sets own inside after
      refine ⟨started_of_all ?_ _, fun k v mem => ?_⟩
      · rw [sets.stack_eq]
        exact fun v mem => all v (by simp [stack, mem])
      · rw [sets.frames] at mem
        split at mem
        · rcases List.mem_append.1 mem with brought | here
          · exact brings.forall slices v brought
          · exact all v (by simp [stack, here])
        · exact slices k v mem

theorem Followed.advance {w : World G} {g h : Gen} {i : Input} {rest : List (Activation G)}
    {d : Config G} (followed : Followed w g m rest t (.ask (.advance h i) p) d) :
    d.signal = .advance h i := by
  cases followed with
  | advances => rfl
  | ends ending quiet final => contradiction

end Machine

/-- A frame of a generator that was not started. -/
def Val.Idle (w : World G) (v : Val) : Prop :=
  ∃ g t, v = .frame (.generator (.gen g) t) ∧ w.Unstarted g.id

/-- Generators in frames that were not started are on top of stacks, and started first. -/
structure Starting (trace : Trace G) (c : Config G) : Prop where
  known : ∀ i ∈ trace.framed, i < c.world.gens.size
  inside : ∀ m ∈ trace.stepped, ∃ i, (m, i) ∈ trace.ran
  stacked : ∀ m g t, .frame (.generator (.gen g) t) ∈ c.world.store.stack m →
    g.id ∈ trace.framed
  sliced : ∀ k g t, .frame (.generator (.gen g) t) ∈ c.world.store.frames k →
    g.id ∈ trace.framed
  slices : ∀ k, ∀ v ∈ c.world.store.frames k, ¬ v.Idle c.world
  buried : ∀ m, ∀ v ∈ (c.world.store.stack m).tail, ¬ v.Idle c.world
  top : ∀ m g t rest, c.world.store.stack m = .frame (.generator (.gen g) t) :: rest →
    c.world.Unstarted g.id → m ∉ trace.stepped ∨ c.signal = .advance g (.send .none)

namespace Starting

variable {trace : Trace G} {c d : Config G}

/-- The stack of a machine that has made a step holds no idle generators when it makes another. -/
theorem busy (starting : Starting trace c) {m : Nat} {r : Reply} (stepped : m ∈ trace.stepped)
    (signal : c.signal = .reply r) : ∀ v ∈ c.world.store.stack m, ¬ v.Idle c.world := by
  intro v mem idle
  cases stack : c.world.store.stack m with
  | nil => simp [stack] at mem
  | cons f rest =>
      rw [stack] at mem
      rcases List.mem_cons.1 mem with rfl | mem
      · obtain ⟨g, t, rfl, unstarted⟩ := idle
        rcases starting.top m g t rest stack unstarted with other | asked
        · exact other stepped
        · rw [signal] at asked
          contradiction
      · exact starting.buried m v (by rw [stack]; exact mem) idle

/-- A frame that is idle was so before. -/
theorem idle_before (moves : Moves c d) {g : Gen} (known : g.id < c.world.gens.size)
    (unstarted : d.world.Unstarted g.id) :
    c.world.Unstarted g.id ∧ c.signal ≠ .advance g (.send .none) := by
  rcases moves.unstarted unstarted with ⟨before, other⟩ | new
  · exact ⟨before, fun asked => other g asked rfl⟩
  · omega

/-- Every step in which generators that exist are framed keeps what is started in its place. -/
theorem step (starting : Starting trace c) (aligned : Aligned trace c) (seated : Seated trace c)
    (sound : Sound trace c) (genuine : Genuine trace c)
    (bounded : ∀ g, c.framed? = some g → g.id < c.world.gens.size) (stepped : c.step = .ok d) :
    Starting (c :: trace) d := by
  have moves := Config.moves_step stepped
  have shift := Config.shift_step seated genuine (sound.turning seated) moves
  have known (i : Nat) (mem : i ∈ Trace.framed (c :: trace)) : i < c.world.gens.size := by
    rcases Trace.mem_framed_cons mem with ⟨g, framed, rfl⟩ | before
    · exact bounded g framed
    · exact starting.known i before
  obtain ⟨stacked, sliced⟩ := shift.forall_frames (P := fun v => ∀ g t,
    v = .frame (.generator (.gen g) t) → g.id ∈ Trace.framed (c :: trace)) sound seated
    (fun m v mem g t same => Trace.framed_cons (starting.stacked m g t (same ▸ mem)))
    (fun k v mem g t same => Trace.framed_cons (starting.sliced k g t (same ▸ mem)))
    (fun g t framed h u same => by cases same; exact Trace.framed_here framed)
    (fun h t g u same => by cases same)
  have ran (m : Nat) (mem : m ∈ Trace.stepped (c :: trace)) :
      ∃ i, (m, i) ∈ Trace.ran (c :: trace) := by
    rcases Trace.mem_stepped_cons mem with here | before
    · obtain ⟨a, rest, r, p, stack, -, machine⟩ := Config.stepped?_eq_some here
      obtain ⟨g, -, made, -⟩ := seated.machine (a := a) (by simp [stack]) machine
      exact ⟨_, Trace.ran_cons made⟩
    · obtain ⟨i, made⟩ := starting.inside m before
      exact ⟨i, Trace.ran_cons made⟩
  -- a frame that is not idle stays so
  have kept (v : Val) (framed : ∀ g t, v = .frame (.generator (.gen g) t) →
      g.id ∈ Trace.framed (c :: trace)) (busy : ¬ v.Idle c.world) : ¬ v.Idle d.world := by
    rintro ⟨g, t, same, unstarted⟩
    exact busy ⟨g, t, same, (idle_before moves (known _ (framed g t same)) unstarted).1⟩
  suffices rests : (∀ k, ∀ v ∈ d.world.store.frames k, ¬ v.Idle d.world) ∧
      (∀ m, ∀ v ∈ (d.world.store.stack m).tail, ¬ v.Idle d.world) ∧
      ∀ m g t rest, d.world.store.stack m = .frame (.generator (.gen g) t) :: rest →
        d.world.Unstarted g.id →
          m ∉ Trace.stepped (c :: trace) ∨ d.signal = .advance g (.send .none) from
    ⟨fun i mem => Nat.lt_of_lt_of_le (known i mem) moves.size_gens, ran,
      fun m g t mem => stacked m _ mem g t rfl, fun k g t mem => sliced k _ mem g t rfl,
      rests.1, rests.2.1, rests.2.2⟩
  have unmoved (m : Nat) (g : Gen) (t : Tag) (rest : List Val) (idle : c.stepped? ≠ some m)
      (same : d.world.store.stack m = c.world.store.stack m)
      (stack : d.world.store.stack m = .frame (.generator (.gen g) t) :: rest)
      (unstarted : d.world.Unstarted g.id) :
      m ∉ Trace.stepped (c :: trace) ∨ d.signal = .advance g (.send .none) := by
    have framed := stacked m (.frame (.generator (.gen g) t)) (by simp [stack]) g t rfl
    obtain ⟨before, unasked⟩ := idle_before moves (known _ framed) unstarted
    have other := (starting.top m g t rest (same ▸ stack) before).resolve_right unasked
    exact .inl fun mem => (Trace.mem_stepped_cons mem).elim idle other
  rcases shift.changes sound seated with ⟨idle, adds⟩ |
    ⟨n, p, r, g, rest, -, -, stack, signal, there, -, -⟩
  · have slices : ∀ k, ∀ v ∈ d.world.store.frames k, ¬ v.Idle d.world := by
      intro k v mem
      refine kept v (sliced k v mem) ?_
      rcases adds with adds | ⟨_, _, _, -, -, adds⟩
      · exact starting.slices k v (adds.frames ▸ mem)
      · exact starting.slices k v (adds.frames ▸ mem)
    refine ⟨slices, fun m v mem => ?_, fun m g t rest stack unstarted => ?_⟩
    · refine kept v (stacked m v (List.mem_of_mem_tail mem)) ?_
      rcases adds with adds | ⟨_, _, _, -, proper, adds⟩
      · rw [adds.onStacks] at mem
        exact starting.buried m v (by simpa using mem)
      · rw [adds.onStacks] at mem
        split at mem
        · obtain ⟨h, t, rfl⟩ := proper v mem
          rintro ⟨g, u, same, -⟩
          cases same
        · exact starting.buried m v mem
    · by_cases inside : m < c.world.store.machines.size
      · exact unmoved m g t rest (by simp [idle]) (shift.stack_eq sound seated inside (by simp [idle]))
          stack unstarted
      · refine .inl fun mem => inside ?_
        rcases Trace.mem_stepped_cons mem with here | before
        · rw [idle] at here
          contradiction
        · obtain ⟨i, made⟩ := starting.inside m before
          exact sound.ran m i made
  · obtain ⟨t, moved, -, does, followed⟩ := sound.follows seated stack signal stepped
    have top : Activation.running g (.library (.machine n p)) ∈ c.stack := by simp [stack]
    have whole (other : p ≠ .start) : ∀ v ∈ c.world.store.stack n, ¬ v.Idle c.world := by
      refine starting.busy ?_ signal
      rcases seated.stack _ top with plain | ⟨m, q, same, -, -, started⟩
      · exact absurd plain.machine? (by simp [Routine.machine?])
      · cases same
        exact started.resolve_left other
    have begun (start : p = .start) (x : Exc) : r ≠ .raised x := by
      subst start
      obtain ⟨v, replied⟩ := aligned.begun _ n (congrArg List.head? stack) rfl
      rw [signal] at replied
      cases replied
      simp
    obtain ⟨⟨tail, head⟩, slices⟩ := does.started sound.own there starting.slices
      (starting.buried n) whole begun
    have own := does.own sound.own there
    have machines := Store.machines_of_engine followed.quiet.engine
    have same (m : Nat) := own.stack_eq machines m
    have frames := Store.frames_of_conts (Store.conts_of_engine followed.quiet.engine)
    refine ⟨fun k v mem => kept v (sliced k v mem) (slices k v (frames ▸ mem)),
      fun m v mem => kept v (stacked m v (List.mem_of_mem_tail mem)) ?_,
      fun m h u rest stack' unstarted => ?_⟩
    · by_cases turning : m = n
      · subst turning
        exact tail v (same m ▸ mem)
      · obtain ⟨_, _, sets⟩ := does.sets sound.own there
        refine starting.buried m v ?_
        rwa [← sets.others m turning, ← same]
    · by_cases turning : m = n
      · subst turning
        rcases head _ rest (same m ▸ stack') with busy | ⟨h', u', here, rfl⟩
        · have framed := stacked m (.frame (.generator (.gen h) u)) (by simp [stack']) h u rfl
          exact absurd ⟨h, u, rfl, (idle_before moves (known _ framed) unstarted).1⟩ busy
        · cases here
          exact .inr followed.advance
      · obtain ⟨_, _, sets⟩ := does.sets sound.own there
        have other : c.stepped? ≠ some m := by
          rw [Config.stepped?_machine stack signal]
          exact fun same => turning (Option.some.inj same).symm
        exact unmoved m h u rest other ((same m).trans (sets.others m turning)) stack' unstarted

theorem of_fresh (fresh : c.Fresh) : Starting [] c := by
  refine ⟨by simp [Trace.framed], by simp [Trace.stepped], ?_, ?_, ?_, ?_, ?_⟩ <;>
    simp [Store.stack, Store.frames, fresh.machines, fresh.conts]

end Starting
end OneShot
