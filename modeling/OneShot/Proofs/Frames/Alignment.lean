import OneShot.Proofs.Frames.Asking

/-!
# Alignment

What stands above an activation on the stack of the kernel is what it waits for: a
machine that advances a generator, a generator that delegates to another one, and
whatever closes a generator have the body of that generator above them.  So what
is yielded to a machine was yielded by the generator on top of its stack.
-/

namespace OneShot

variable {G : Guest}

namespace Activation

/-- The generator that an activation waits for. -/
def waits? : Activation G → Option Gen
  | .relaying _ _ d => some d
  | .closing g => some g
  | .running _ (.library (.machine _ (.advancing (.gen g)))) => some g
  | _ => none

/-- Whether an activation advances nothing but the generator that it waits for. -/
def relays : Activation G → Bool
  | .relaying .. | .running _ (.library (.machine ..)) => true
  | _ => false

/-- What may stand directly above another activation, which has begun. -/
structure Above (a b : Activation G) : Prop where
  waits : ∀ g, b.waits? = some g → a.active? = some g
  begun : ∀ m, b.machine? ≠ some (m, .start)

theorem Above.of_active {a a' b : Activation G} (h : Above a b) (same : a'.active? = a.active?) :
    Above a' b := ⟨fun g waits => same.trans (h.waits g waits), h.begun⟩

end Activation

/-- A routine that is no machine waits for nobody in particular. -/
theorem Routine.waits?_of_machine? {p : Routine G} (h : p.machine? = none) (seat : Option Gen) :
    (Activation.of seat p).waits? = none ∧ (Activation.of seat p).relays = false ∧
      (Activation.of seat p).machine? = none := by
  cases seat <;> cases p with
  | guest b => exact ⟨rfl, rfl, rfl⟩
  | library q => cases q <;> first | exact ⟨rfl, rfl, rfl⟩ | contradiction

theorem Process.machine?_of_plain {q : Process} (h : q.plain) :
    (Routine.library q : Routine G).machine? = none := by
  cases q <;> first | rfl | contradiction

theorem Routine.Plain.machine? {p : Routine G} (plain : p.Plain) : p.machine? = none := by
  cases p with
  | guest b => rfl
  | library q => exact Process.machine?_of_plain plain.1

/-- A plain function goes on as one. -/
theorem Routine.machine?_next {trace : Trace G} {w v : World G} {p p' : Routine G} {r : Reply}
    {turn : Turn (Routine G)} (fair : (Activation.calling p).Fair trace)
    (stepped : p.step w r = (v, turn)) (next : turn.next? = some p') : p'.machine? = none := by
  cases p with
  | guest b =>
      obtain ⟨b', rfl⟩ := Routine.next_guest stepped next
      rfl
  | library q =>
      obtain ⟨q', rfl, made⟩ := Routine.next_library stepped next
      exact Process.machine?_of_plain (Process.plain_step fair made).1

/-- The generator that suspends in the next step, by itself or by what it delegates to. -/
def Config.yields? (c : Config G) : Option (Gen × Val) :=
  match c.stack, c.signal with
  | .running g p :: _, .reply r =>
      match (p.step c.world r).2 with
      | .ask (.yield v _) _ => some (g, v)
      | _ => none
  | .relaying g _ _ :: _, .reply (.yielded v) => some (g, v)
  | _, _ => none

/-- The step before was the suspension of a generator with a value. -/
def Trace.Yielded (trace : Trace G) (g : Gen) (v : Val) : Prop :=
  ∃ c rest, trace = c :: rest ∧ c.yields? = some (g, v)

/-- Activations stand above what waits for them, and the signal is from or for the topmost one. -/
structure Aligned (trace : Trace G) (c : Config G) : Prop where
  above : c.stack.IsChain Activation.Above
  held : ∀ a ∈ c.stack, ∀ m p, a.machine? = some (m, p) → p.Holding (c.world.store.stack m)
  asked : ∀ b g, c.stack.head? = some b → b.waits? = some g →
    (b.relays = true ∧ ∃ i, c.signal = .advance g i) ∨
      ∃ r, c.signal = .reply r ∧ ∀ v, r = .yielded v → trace.Yielded g v
  advances : ∀ b g i, c.stack.head? = some b → b.relays = true → c.signal = .advance g i →
    b.waits? = some g
  begun : ∀ b m, c.stack.head? = some b → b.machine? = some (m, .start) →
    ∃ v, c.signal = .reply (.value v)

section Steps

variable {trace : Trace G} {c d : Config G}

/-- The machine that makes a turn asks for something that is in keeping with its stack. -/
theorem Aligned.turned (aligned : Aligned trace c) (seated : Seated trace c)
    (sound : Sound trace c) {g : Gen} {p p' : Routine G} {r : Reply} {rest : List (Activation G)}
    {v : World G} {turn : Turn (Routine G)} (stack : c.stack = .running g p :: rest)
    (signal : c.signal = .reply r) (stepped : p.step c.world r = (v, turn))
    (next : turn.next? = some p') :
    p'.Plain ∨ ∃ m phase phase' a, p = .library (.machine m phase) ∧
      p' = .library (.machine m phase') ∧ turn = .ask a p' ∧ (m, g.id) ∈ trace.ran ∧
      Machine.Does c.world.store m phase r v.store (.ask a phase') ∧
      Machine.Asked m c.world.store v.store a phase' := by
  have mem : Activation.running g p ∈ c.stack := by simp [stack]
  rcases seated.stack _ mem with plain | ⟨m, phase, rfl, -, ran, -⟩
  · exact .inl (plain.next stepped next)
  · obtain ⟨w, _, _⟩ := c
    cases stack
    cases signal
    obtain ⟨t, moved, does, rfl, rfl⟩ := (sound.turning seated).does stepped
    obtain ⟨q, made, rfl⟩ := Turn.next?_map next
    obtain ⟨phase', made', rfl⟩ := Turn.next?_map made
    rcases does.asks with ending | ⟨a, phase'', rfl, -⟩
    · rw [ending] at made'
      contradiction
    · cases made'
      refine .inr ⟨m, phase, phase', a, rfl, rfl, rfl, ran, does, ?_⟩
      have holding := aligned.held _ mem m phase rfl
      exact does.asked sound.own (sound.ran m _ ran) (sound.onStacks m) holding

/-- A machine that does not make the step keeps its stack. -/
theorem Sound.stack_eq (sound : Sound trace c) (seated : Seated trace c) (genuine : Genuine trace c)
    (moves : Moves c d) {m i : Nat} (ran : (m, i) ∈ trace.ran) (other : c.stepped? ≠ some m) :
    d.world.store.stack m = c.world.store.stack m :=
  (Config.shift_step seated genuine (sound.turning seated) moves).stack_eq sound seated
    (sound.ran m i ran) other

/-- The stack of a machine that waits is the same after a step. -/
theorem Aligned.held_below (aligned : Aligned trace c) (seated : Seated trace c)
    (sound : Sound trace c) (active : c.Active) (genuine : Genuine trace c) (moves : Moves c d)
    {b : Activation G} (mem : b ∈ c.stack) (waiting : (∀ r, c.signal ≠ .reply r) ∨ b ∈ c.stack.tail)
    {m : Nat} {p : Machine.Phase} (here : b.machine? = some (m, p)) :
    p.Holding (d.world.store.stack m) := by
  obtain ⟨g, -, ran, -⟩ := seated.machine mem here
  have other : c.stepped? ≠ some m := by
    rcases waiting with unreplied | below
    · simp [Config.stepped?_of_signal unreplied]
    · exact seated.waiting active below here
  rw [sound.stack_eq seated genuine moves ran other]
  exact aligned.held b mem m p here

/-- The stack as it was is in keeping with what a signal other than a reply does. -/
theorem Aligned.held_unreplied (aligned : Aligned trace c) (seated : Seated trace c)
    (sound : Sound trace c) (active : c.Active) (genuine : Genuine trace c) (moves : Moves c d)
    (unreplied : ∀ r, c.signal ≠ .reply r) :
    ∀ a ∈ c.stack, ∀ m p, a.machine? = some (m, p) → p.Holding (d.world.store.stack m) :=
  fun _ mem _ _ here => aligned.held_below seated sound active genuine moves mem (.inl unreplied) here

/-- What waits on top has asked for its generator, unless it has a reply. -/
theorem Aligned.asking (aligned : Aligned trace c) (unreplied : ∀ r, c.signal ≠ .reply r)
    {b : Activation G} {g : Gen} (head : c.stack.head? = some b) (waits : b.waits? = some g) :
    b.relays = true ∧ ∃ i, c.signal = .advance g i := by
  rcases aligned.asked b g head waits with asked | ⟨r, replied, -⟩
  · exact asked
  · exact absurd replied (unreplied r)

/-- What takes the place of the topmost activation has the same generator. -/
theorem Activation.Above.of_head {a b : Activation G} {rest : List (Activation G)}
    (h : (a :: rest).IsChain Activation.Above) (same : b.active? = a.active?) :
    (b :: rest).IsChain Activation.Above := by
  cases rest with
  | nil => exact .singleton b
  | cons z rest =>
      obtain ⟨first, below⟩ := List.isChain_cons_cons.1 h
      exact .cons_cons (first.of_active same) below

/-- Something is put on the stack that is above what has asked for it. -/
theorem Aligned.above_asking (aligned : Aligned trace c) (unreplied : ∀ r, c.signal ≠ .reply r)
    {a : Activation G} (active : ∀ g i, c.signal = .advance g i → a.active? = some g) :
    (a :: c.stack).IsChain Activation.Above := by
  cases made : c.stack with
  | nil => exact .singleton a
  | cons b rest =>
      refine .cons_cons ⟨fun g waits => ?_, fun m here => ?_⟩ (made ▸ aligned.above)
      · obtain ⟨-, i, asked⟩ := aligned.asking unreplied (by simp [made]) waits
        exact active g i asked
      · obtain ⟨v, replied⟩ := aligned.begun b m (by simp [made]) here
        exact unreplied _ replied

/-- The stack is as it was, and the signal that was no reply is answered or goes on as a call. -/
theorem Aligned.of_same (aligned : Aligned trace c) (unreplied : ∀ r, c.signal ≠ .reply r)
    (held : ∀ a ∈ c.stack, ∀ m p, a.machine? = some (m, p) → p.Holding (d.world.store.stack m))
    (stack : d.stack = c.stack) (unasked : ∀ g i, d.signal ≠ .advance g i)
    (answered : ∀ g i, c.signal = .advance g i → ∃ r, d.signal = .reply r ∧ r.Final) :
    Aligned (c :: trace) d := by
  refine ⟨stack ▸ aligned.above, stack ▸ held, fun b g head waits => ?_,
    fun b g i _ _ asked => absurd asked (unasked g i), fun b m head here => ?_⟩
  · obtain ⟨-, i, asked⟩ := aligned.asking unreplied (stack ▸ head) waits
    obtain ⟨r, replied, final⟩ := answered g i asked
    exact .inr ⟨r, replied, fun v same => absurd same (final v)⟩
  · obtain ⟨v, replied⟩ := aligned.begun b m (stack ▸ head) here
    exact absurd replied (unreplied _)

/-- Something is on top of the rest of a stack, as there was before or newly. -/
theorem Aligned.of_top {a : Activation G} {rest : List (Activation G)} (stack : d.stack = a :: rest)
    (above : (a :: rest).IsChain Activation.Above)
    (held : ∀ b ∈ rest, ∀ m p, b.machine? = some (m, p) → p.Holding (d.world.store.stack m))
    (ready : ∀ m p, a.machine? = some (m, p) → p.Holding (d.world.store.stack m) ∧
      (p = .start → ∃ v, d.signal = .reply (.value v)))
    (asked : ∀ g, a.waits? = some g → a.relays = true ∧ ∃ i, d.signal = .advance g i)
    (advances : ∀ g i, a.relays = true → d.signal = .advance g i → a.waits? = some g) :
    Aligned (c :: trace) d := by
  refine ⟨stack ▸ above, fun b mem => ?_, fun b g head waits => ?_,
    fun b g i head relays same => ?_, fun b m head here => ?_⟩
  · rw [stack] at mem
    rcases List.mem_cons.1 mem with rfl | below
    · exact fun m p here => (ready m p here).1
    · exact held b below
  · rw [stack] at head
    cases head
    exact .inl (asked g waits)
  · rw [stack] at head
    cases head
    exact advances g i relays same
  · rw [stack] at head
    cases head
    exact (ready m .start here).2 rfl

/-- The topmost activation is gone, and what is below it has a reply. -/
theorem Aligned.of_pop (aligned : Aligned trace c) {a : Activation G} {rest : List (Activation G)}
    {r : Reply} (before : c.stack = a :: rest) (stack : d.stack = rest) (signal : d.signal = .reply r)
    (held : ∀ b ∈ rest, ∀ m p, b.machine? = some (m, p) → p.Holding (d.world.store.stack m))
    (yielded : ∀ g v, a.active? = some g → r = .yielded v → c.yields? = some (g, v)) :
    Aligned (c :: trace) d := by
  have above := aligned.above
  rw [before] at above
  have chain : rest.IsChain Activation.Above := by
    cases rest with
    | nil => exact .nil
    | cons b rest => exact (List.isChain_cons_cons.1 above).2
  refine ⟨stack ▸ chain, stack ▸ held, fun b g head waits => .inr ⟨r, signal, fun v same => ?_⟩,
    fun b g i _ _ same => ?_, fun b m head here => ?_⟩
  · rw [stack] at head
    obtain ⟨below, rfl⟩ := List.head?_eq_some_iff.1 head
    have active := (List.isChain_cons_cons.1 above).1.waits g waits
    exact ⟨c, trace, rfl, yielded g v active same⟩
  · rw [signal] at same
    contradiction
  · rw [stack] at head
    obtain ⟨below, rfl⟩ := List.head?_eq_some_iff.1 head
    exact absurd here ((List.isChain_cons_cons.1 above).1.begun m)

/-- What is on top is no machine, and advances nothing. -/
theorem Aligned.of_idle (seat : Option Gen) {p : Routine G} {rest : List (Activation G)}
    (stack : d.stack = .of seat p :: rest) (idle : p.machine? = none)
    (above : (.of seat p :: rest).IsChain Activation.Above)
    (held : ∀ b ∈ rest, ∀ m p, b.machine? = some (m, p) → p.Holding (d.world.store.stack m)) :
    Aligned (c :: trace) d := by
  obtain ⟨waits, relays, machine⟩ := Routine.waits?_of_machine? idle seat
  exact .of_top stack above held (by simp [machine]) (by simp [waits]) (by simp [relays])

/-- The topmost routine makes a turn and goes on. -/
theorem Aligned.of_turn {w v : World G} {seat : Option Gen} {p p' : Routine G} {r : Reply}
    {turn : Turn (Routine G)} {store : Store} {signal : Signal} (stack : List (Activation G))
    (aligned : Aligned trace ⟨w, .of seat p :: stack, .reply r⟩)
    (seated : Seated trace ⟨w, .of seat p :: stack, .reply r⟩)
    (sound : Sound trace ⟨w, .of seat p :: stack, .reply r⟩)
    (stepped : p.step w r = (v, turn)) (answer : Answer seat v.store turn p' store signal)
    (above : (.of seat p' :: stack).IsChain Activation.Above)
    (held : ∀ b ∈ stack, ∀ m p, b.machine? = some (m, p) → p.Holding (store.stack m)) :
    Aligned (⟨w, .of seat p :: stack, .reply r⟩ :: trace)
      ⟨{ v with store }, .of seat p' :: stack, signal⟩ := by
  cases seat with
  | none =>
      have fair := seated.stack (.calling p) List.mem_cons_self
      exact .of_idle none rfl (Routine.machine?_next fair stepped answer.next?) above held
  | some g =>
      rcases aligned.turned seated sound rfl rfl stepped answer.next? with
        plain | ⟨m, phase, phase', a, rfl, rfl, rfl, -, -, asked⟩
      · exact .of_idle (some g) rfl plain.machine? above held
      · have ready (m' : Nat) (q : Machine.Phase)
            (here : (Routine.library (.machine m phase') : Routine G).machine? = some (m', q)) :
            q.Holding (v.store.stack m') ∧ (q = .start → ∃ v, signal = .reply (.value v)) := by
          cases here
          exact ⟨asked.holding, fun start => absurd start asked.begun⟩
        cases answer with
        | call f args _ =>
            cases asked
            exact .of_top rfl above held ready (by simp [Activation.of, Activation.waits?]) (by simp)
        | advance h i _ =>
            cases asked
            refine .of_top rfl above held ready ?_ ?_
            · rintro h' waits
              cases waits
              exact ⟨rfl, _, rfl⟩
            · rintro h' i' - same
              cases same
              rfl
        | close h _ =>
            cases asked with
            | discards op top set =>
                exact .of_top rfl above held ready (by simp [Activation.of, Activation.waits?]) (by simp)
            | closes x same here closes =>
                exact .of_top rfl above held ready (by simp [Activation.of, Activation.waits?]) (by simp)
        | refused x quiet unfit =>
            rcases unfit with ⟨u, how, -, other⟩ | ⟨u, rfl⟩ | ⟨u, rfl⟩
            · contradiction
            · cases asked
            · cases asked

/-- A machine that begins or goes on after a suspension waits for nothing, as does what is plain. -/
theorem Routine.Serves.idle {i : Nat} {ok : Machine.Phase → Prop} {p : Routine G}
    (serves : p.Serves trace i ok) (rests : ∀ q, ok q → q = .start ∨ q = .escaped ∨ q = .resent)
    (g : Gen) (s : Store) :
    (Activation.running g p).waits? = none ∧ ∀ m q,
      (Activation.running g p).machine? = some (m, q) → q.Holding (s.stack m) ∧ ok q := by
  rcases serves with plain | ⟨m, q, rfl, fit, -⟩
  · obtain ⟨waits, -, machine⟩ := Routine.waits?_of_machine? plain.machine? (some g)
    refine ⟨waits, fun m q here => ?_⟩
    have here : (Activation.of (some g) p).machine? = some (m, q) := here
    rw [machine] at here
    contradiction
  · refine ⟨?_, fun m' q' here => ?_⟩
    · rcases rests q fit with rfl | rfl | rfl <;> rfl
    · cases here
      refine ⟨?_, fit⟩
      rcases rests q fit with rfl | rfl | rfl <;> trivial

/-- Alignment is kept by every genuine step. -/
theorem Aligned.step (aligned : Aligned trace c) (seated : Seated trace c) (sound : Sound trace c)
    (active : c.Active) (genuine : Genuine trace c) (moves : Moves c d) :
    Aligned (c :: trace) d := by
  have kept := aligned.held_unreplied seated sound active genuine moves
  have below (b : Activation G) (mem : b ∈ c.stack.tail) (m : Nat) (p : Machine.Phase)
      (here : b.machine? = some (m, p)) : p.Holding (d.world.store.stack m) :=
    aligned.held_below seated sound active genuine moves (List.mem_of_mem_tail mem) (.inr mem) here
  cases moves with
  -- the stack stays as it is
  | answers calls =>
      exact aligned.of_same (by simp) (kept (by simp)) rfl (by simp) (by simp)
  | spawns kind name calls spawned =>
      exact aligned.of_same (by simp) (kept (by simp)) rfl (by simp) (by simp)
  | forwards calls =>
      exact aligned.of_same (by simp) (kept (by simp)) rfl (by simp) (by simp)
  | @stays w stack g i store r quiet unmoved =>
      refine aligned.of_same (by simp) (kept (by simp)) rfl (by simp) fun _ _ _ => ⟨r, rfl, ?_⟩
      cases unmoved with
      | finished i status final => exact final
      | _ => exact fun v => by simp
  | breaks x quiet status =>
      exact aligned.of_same (by simp) (kept (by simp)) rfl (by simp)
        fun _ _ _ => ⟨_, rfl, fun v => by simp⟩
  | spares quiet final =>
      exact aligned.of_same (by simp) (kept (by simp)) rfl (by simp) (by simp)
  | discards status =>
      exact aligned.of_same (by simp) (kept (by simp)) rfl (by simp) (by simp)
  -- something is put on top
  | @enters w stack f args caller store memory p calls entered =>
      have idle : p.machine? = none := by
        cases p with
        | guest b => rfl
        | library q => exact Process.machine?_of_plain (entered genuine.unbuilt).1
      exact .of_top rfl (aligned.above_asking (by simp) (by simp)) (kept (by simp))
        (by simp [Activation.machine?, idle]) (by simp [Activation.waits?]) (by simp)
  | @begins w stack g p status =>
      obtain ⟨waits, holding⟩ := Routine.Serves.idle
        (seated.gens _ _ (World.getElem?_of_status status (by simp)))
        (fun q start => .inl start) g (w.setStatus g .running).store
      refine .of_top rfl (aligned.above_asking (by simp) ?_) (kept (by simp))
        (fun m q here => ⟨(holding m q here).1, fun _ => ⟨_, rfl⟩⟩) (by simp [waits]) (by simp)
      rintro h i same
      cases same
      rfl
  | @resumes w stack g i p how store r quiet status =>
      obtain ⟨waits, holding⟩ := Routine.Serves.idle
        (seated.gens _ _ (World.getElem?_of_status status (by simp))) (fun q => .inr) g store
      refine .of_top rfl (aligned.above_asking (by simp) ?_) (kept (by simp))
        (fun m q here => ⟨(holding m q here).1, fun start => ?_⟩) (by simp [waits]) (by simp)
      rotate_left
      · exact absurd (holding m q here).2 (by simp [start])
      rintro h i same
      cases same
      rfl
  | @relays w stack g d i p status =>
      refine .of_top rfl (aligned.above_asking (by simp) ?_) (kept (by simp)) (by simp [Activation.machine?]) ?_ ?_
      · rintro h i same
        cases same
        rfl
      · rintro h waits
        cases waits
        exact ⟨rfl, _, rfl⟩
      · rintro h i - same
        cases same
        rfl
  | @exits w stack g d p v x status =>
      refine .of_top rfl (aligned.above_asking (by simp) ?_) (kept (by simp)) (by simp [Activation.machine?])
        (by simp [Activation.waits?]) (by simp)
      rintro h i same
      cases same
      rfl
  | @interrupts w stack g p how store x quiet status =>
      obtain ⟨waits, holding⟩ := Routine.Serves.idle
        (seated.gens _ _ (World.getElem?_of_status status (by simp))) (fun q => .inr) g store
      have above := aligned.above_asking (a := .closing g) (by simp) (by simp)
      refine .of_top rfl (.cons_cons ⟨?_, by simp [Activation.machine?]⟩ above) ?_
        (fun m q here => ⟨(holding m q here).1, fun start => ?_⟩) (by simp [waits]) (by simp)
      rotate_left 2
      · exact absurd (holding m q here).2 (by simp [start])
      · rintro h same
        cases same
        rfl
      · simp only [List.forall_mem_cons]
        exact ⟨by simp [Activation.machine?], kept (by simp)⟩
  | @pursues w stack g d p store x quiet status =>
      have above := aligned.above_asking (a := .closing g) (by simp) (by simp)
      refine .of_top rfl (.cons_cons ⟨?_, by simp [Activation.machine?]⟩ above) ?_
        (by simp [Activation.machine?]) (by simp [Activation.waits?]) (by simp)
      · rintro h same
        cases same
        rfl
      · simp only [List.forall_mem_cons]
        exact ⟨by simp [Activation.machine?], kept (by simp)⟩
  -- something takes the place of the topmost activation
  | @goes w v seat p p' r turn store signal stack stepped answer =>
      have above := Activation.Above.of_head aligned.above (b := .of seat p') (by cases seat <;> rfl)
      exact .of_turn stack aligned seated sound stepped answer above below
  | @delegates w v stack g d p p' r a stepped passes =>
      have above := Activation.Above.of_head aligned.above (b := .relaying g p' d) rfl
      refine .of_top rfl above below (by simp [Activation.machine?]) ?_ ?_
      · rintro h waits
        cases waits
        exact ⟨rfl, _, rfl⟩
      · rintro h i - same
        cases same
        rfl
  | @regains w stack g d p r r' =>
      have above := Activation.Above.of_head aligned.above (b := .running g p) rfl
      have plain : p.Plain := seated.stack (.relaying g p d) (by simp)
      exact .of_idle (some g) rfl plain.machine? above below
  | @leaves w stack g p x r y =>
      have above := Activation.Above.of_head aligned.above (b := .running g p) rfl
      have plain : p.Plain := seated.stack (.exiting g p x) (by simp)
      exact .of_idle (some g) rfl plain.machine? above below
  -- the topmost activation goes
  | @suspends w v stack g p p' r u how stepped =>
      refine aligned.of_pop rfl rfl rfl below fun h y same yielded => ?_
      cases same
      cases yielded
      simp [Config.yields?, stepped]
  | @ends w v stack g p r r' turn store stepped ending quiet final =>
      exact aligned.of_pop rfl rfl rfl below fun _ y _ yielded => absurd yielded (final y)
  | @returns w v stack p r r' turn store stepped ending quiet final =>
      exact aligned.of_pop rfl rfl rfl below fun _ y _ yielded => absurd yielded (final y)
  | @hands w stack g d p u =>
      refine aligned.of_pop rfl rfl rfl below fun h y same yielded => ?_
      cases same
      cases yielded
      rfl
  | @closes w stack g r r' store quiet final =>
      exact aligned.of_pop rfl rfl rfl below fun _ y _ yielded => absurd yielded (final y)

theorem Aligned.of_fresh (fresh : c.Fresh) : Aligned [] c := by
  refine ⟨?_, ?_, ?_, ?_, ?_⟩ <;> simp [fresh.stack]

end Steps
end OneShot
