import OneShot.Proofs.Frames.Ownership
import OneShot.Proofs.Frames.Starting

/-!
# The chain of activations

In a lawful run the body of a generator is above the machine that advances it, or
above what closes it, or the generator was advanced other than for a machine.  When
a machine goes on without the generator on top of its stack, that generator has
ended, unless it was running already.
-/

namespace OneShot

open Store (Quietly)

variable {G : Guest}

/-- Whatever is thrown is an exception. -/
def Input.Raisable (i : Input) : Prop := ∀ v, i = .throw v → ∃ x, v = .exc x

/-- The generator that a machine has closed is nowhere, or on its stack. -/
def Machine.Phase.Closes (trace : Trace G) (c : Config G) (m : Nat) (g : Gen) :
    Machine.Phase → Prop
  | .discarding _ => g.id ∈ trace.framed ∧ c.holds trace (.gen g.id) = 0
  | .closing _ _ => Key.gen g.id ∈ (c.world.store.stack m).flatMap Val.keys
  | _ => False

/-- The generator that is advanced for a machine or is being closed. -/
def Activation.pursued? : Activation G → Option Gen
  | .closing g => some g
  | .running _ (.library (.machine _ (.advancing (.gen g)))) => some g
  | _ => none

theorem Activation.waits?_of_pursued? {a : Activation G} {g : Gen} (h : a.pursued? = some g) :
    a.waits? = some g := by
  unfold pursued? at h
  split at h
  · exact h
  · exact h
  · contradiction

/-- A routine that is no machine pursues nothing. -/
theorem Routine.pursued?_of_machine? {p : Routine G} (h : p.machine? = none) (seat : Option Gen) :
    (Activation.of seat p).pursued? = none := by
  cases seat <;> cases p with
  | guest b => rfl
  | library q => cases q <;> first | rfl | contradiction

theorem Routine.Plain.pursued? {p : Routine G} (plain : p.Plain) (seat : Option Gen) :
    (Activation.of seat p).pursued? = none :=
  Routine.pursued?_of_machine? plain.machine? seat

theorem Routine.Serves.pursued? {trace : Trace G} {i : Nat} {ok : Machine.Phase → Prop}
    {p : Routine G} (serves : p.Serves trace i ok)
    (rests : ∀ q, ok q → q = .start ∨ q = .escaped ∨ q = .resent) (g : Gen) :
    (Activation.running g p).pursued? = none := by
  rcases serves with plain | ⟨m, q, rfl, fit, -⟩
  · exact plain.pursued? (some g)
  · rcases rests q fit with rfl | rfl | rfl <;> rfl

/-- How an activation is owed to what is below it. -/
structure Fits (trace : Trace G) (c : Config G) (a : Activation G)
    (below : Option (Activation G)) : Prop where
  active : ∀ g, a.active? = some g →
    g.id ∈ trace.advanced ∨ ∃ b, below = some b ∧ b.pursued? = some g
  closing : ∀ g b m p, a = .closing g → below = some b → b.machine? = some (m, p) →
    p.Closes trace c m g

/-- Each activation of a list fits the one below it. -/
def Linked (trace : Trace G) (c : Config G) : List (Activation G) → Prop
  | [] => True
  | a :: rest => Fits trace c a rest.head? ∧ Linked trace c rest

/-- The signal is what the topmost activation has asked for, or a reply to that. -/
structure Attends (trace : Trace G) (c : Config G) : Prop where
  raisable : ∀ a m p g i, c.stack.head? = some a → a.machine? = some (m, p) →
    c.signal = .advance g i → i.Raisable
  closes : ∀ a m p g, c.stack.head? = some a → a.machine? = some (m, p) →
    c.signal = .close g → p.Closes trace c m g
  ending : ∀ a g r, c.stack.head? = some a → a.pursued? = some g → c.signal = .reply r →
    r.Final → c.world.status g = .finished ∨ c.world.status g = .running

/-- What is known of the activations of a configuration. -/
structure Chained (trace : Trace G) (c : Config G) : Prop where
  linked : Linked trace c c.stack
  attends : Attends trace c

/-- From `c` to `d` nothing happens to machines that do not make the step. -/
structure Undisturbed (trace : Trace G) (c d : Config G) : Prop where
  stack : ∀ m i, (m, i) ∈ trace.ran → c.stepped? ≠ some m →
    d.world.store.stack m = c.world.store.stack m
  unheld : ∀ i, i ∈ trace.framed → c.holds trace (.gen i) = 0 →
    d.holds (c :: trace) (.gen i) = 0

section Keeping

variable {trace : Trace G} {c d : Config G}

theorem Machine.Phase.Closes.keep {m : Nat} {g : Gen} {p : Machine.Phase}
    (h : p.Closes trace c m g) (und : Undisturbed trace c d)
    (stack : d.world.store.stack m = c.world.store.stack m) : p.Closes (c :: trace) d m g := by
  cases p with
  | discarding op => exact ⟨Trace.framed_cons h.1, und.unheld _ h.1 h.2⟩
  | closing rest x =>
      unfold Closes at h ⊢
      rwa [stack]
  | _ => exact h

/-- The machine below keeps its stack, if there is one. -/
theorem Fits.keep {a : Activation G} {below : Option (Activation G)} (h : Fits trace c a below)
    (und : Undisturbed trace c d) (stack : ∀ b m p, below = some b → b.machine? = some (m, p) →
      d.world.store.stack m = c.world.store.stack m) : Fits (c :: trace) d a below where
  active g here := (h.active g here).imp Trace.advanced_cons id
  closing g b m p here there machine :=
    (h.closing g b m p here there machine).keep und (stack b m p there machine)

/-- Another activation of the same generator fits the same. -/
theorem Fits.swap {a b : Activation G} {below : Option (Activation G)} (h : Fits trace c a below)
    (same : b.active? = a.active?) (open_ : ∀ g, b ≠ .closing g) : Fits trace c b below where
  active g here := h.active g (same ▸ here)
  closing g _ _ _ here := absurd here (open_ g)

/-- Activations stay linked while their machines keep their stacks. -/
theorem Linked.keep {l : List (Activation G)} (h : Linked trace c l) (und : Undisturbed trace c d)
    (stack : ∀ a ∈ l, ∀ m p, a.machine? = some (m, p) →
      d.world.store.stack m = c.world.store.stack m) : Linked (c :: trace) d l := by
  induction l with
  | nil => trivial
  | cons a rest ih =>
      refine ⟨h.1.keep und fun b m p head here => ?_, ih h.2 fun b mem => stack b (.tail a mem)⟩
      exact stack b (.tail a (List.mem_of_mem_head? head)) m p here

theorem undisturbed (owning : Owning trace c) (seated : Seated trace c) (lawful : Lawful trace c)
    (moves : Moves c d) : Undisturbed trace c d := by
  have shift := Config.shift_step seated lawful.toGenuine (owning.sound.turning seated) moves
  obtain ⟨made, handlers, gains⟩ := owning.gains seated lawful.handed shift
  refine ⟨fun m i ran other => ?_, fun i framed unheld => ?_⟩
  · exact shift.stack_eq owning.sound seated (owning.sound.ran m i ran) other
  · rcases owning.holds_of_gains lawful.handed gains (.gen i) with
      fewer | ⟨-, -, ⟨other, -⟩ | ⟨g, same, made⟩⟩
    · omega
    · contradiction
    · cases same
      exact absurd framed (lawful.framed g made).2.1

/-- The activations that there are stay linked under a signal other than a reply. -/
theorem Chained.keep (chained : Chained trace c) (seated : Seated trace c)
    (und : Undisturbed trace c d) (unreplied : ∀ r, c.signal ≠ .reply r) :
    Linked (c :: trace) d c.stack := by
  refine chained.linked.keep und fun a mem m p here => ?_
  obtain ⟨h, -, ran, -⟩ := seated.machine mem here
  exact und.stack m _ ran (by simp [Config.stepped?_of_signal unreplied])

/-- The activations below the topmost one stay linked, and it fits them as before. -/
theorem Chained.below (chained : Chained trace c) (seated : Seated trace c) (active : c.Active)
    (und : Undisturbed trace c d) {a : Activation G} {rest : List (Activation G)}
    (stack : c.stack = a :: rest) :
    Linked (c :: trace) d rest ∧ Fits (c :: trace) d a rest.head? := by
  have linked := chained.linked
  rw [stack] at linked
  have kept (b : Activation G) (mem : b ∈ rest) (m : Nat) (p : Machine.Phase)
      (here : b.machine? = some (m, p)) : d.world.store.stack m = c.world.store.stack m := by
    have mem' : b ∈ c.stack := by simp [stack, mem]
    obtain ⟨h, -, ran, -⟩ := seated.machine mem' here
    exact und.stack m _ ran (seated.waiting active (by simp [stack, mem]) here)
  refine ⟨linked.2.keep und kept, linked.1.keep und fun b m p head here => ?_⟩
  exact kept b (List.mem_of_mem_head? head) m p here

/-- What a machine has on its stack is owned. -/
theorem Config.holds_of_stack {m : Nat} (inside : m < c.world.store.machines.size) {x : Key}
    (here : x ∈ (c.world.store.stack m).flatMap Val.keys) : 0 < c.holds trace x := by
  obtain ⟨v, mem, key⟩ := List.mem_flatMap.1 here
  have owned : v ∈ c.world.store.owned trace.outstanding := by
    refine List.mem_append_left _ (List.mem_append_left _ ?_)
    exact List.mem_flatMap.2 ⟨m, List.mem_range.2 inside, mem⟩
  have counted : 0 < (c.world.store.owned trace.outstanding).countP x.within :=
    List.countP_pos_iff.2 ⟨v, owned, by simpa [Key.within] using key⟩
  unfold Config.holds
  omega

/-! ## Signals other than replies -/

/-- What is put on the stack fits what was on top. -/
theorem Chained.fits (chained : Chained trace c) (aligned : Aligned trace c) (seated : Seated trace c)
    (und : Undisturbed trace c d) (unreplied : ∀ r, c.signal ≠ .reply r) {a : Activation G}
    (active : ∀ g, a.active? = some g → ∃ i, c.signal = .advance g i)
    (closing : ∀ g, a = .closing g → c.signal = .close g) :
    Fits (c :: trace) d a c.stack.head? := by
  refine ⟨fun g here => ?_, fun g b m p here head machine => ?_⟩
  · obtain ⟨i, asked⟩ := active g here
    by_cases machine : (c.stack.head?.bind Activation.machine?).isSome
    · obtain ⟨⟨m, p⟩, made⟩ := Option.isSome_iff_exists.1 machine
      obtain ⟨b, head, made⟩ := Option.bind_eq_some_iff.1 made
      obtain ⟨h, rfl, -⟩ := seated.machine (List.mem_of_mem_head? head) made
      have waits := aligned.advances _ g i head rfl asked
      refine .inr ⟨_, head, ?_⟩
      unfold Activation.waits? at waits
      split at waits
      · contradiction
      · contradiction
      · rename_i same
        rw [same]
        exact waits
      · contradiction
    · refine .inl (Trace.advanced_here (c := c) ?_)
      unfold Config.advanced?
      rw [asked]
      simp [machine]
  · obtain ⟨h, -, ran, -⟩ := seated.machine (List.mem_of_mem_head? head) machine
    refine (chained.attends.closes b m p g head machine (closing g here)).keep und ?_
    exact und.stack m _ ran (by simp [Config.stepped?_of_signal unreplied])

/-- The signal is answered at once, or goes on as a call. -/
theorem Chained.of_same (chained : Chained trace c) (seated : Seated trace c)
    (und : Undisturbed trace c d) (unreplied : ∀ r, c.signal ≠ .reply r) (stack : d.stack = c.stack)
    (called : (∃ r, d.signal = .reply r) ∨ ∃ f args caller, d.signal = .call f args caller)
    (ending : ∀ a g r, c.stack.head? = some a → a.pursued? = some g → d.signal = .reply r →
      r.Final → d.world.status g = .finished ∨ d.world.status g = .running) :
    Chained (c :: trace) d where
  linked := stack ▸ chained.keep seated und unreplied
  attends := by
    refine ⟨fun a m p g i _ _ asked => ?_, fun a m p g _ _ asked => ?_, stack ▸ ending⟩
    · rcases called with ⟨r, same⟩ | ⟨f, args, caller, same⟩ <;> rw [asked] at same <;> contradiction
    · rcases called with ⟨r, same⟩ | ⟨f, args, caller, same⟩ <;> rw [asked] at same <;> contradiction

/-- On top is what waits for nobody, and it is no machine that asks for something. -/
theorem Chained.of_top {a : Activation G} {rest : List (Activation G)} (stack : d.stack = a :: rest)
    (fits : Fits trace d a rest.head?) (linked : Linked trace d rest)
    (alone : a.pursued? = none)
    (unasked : a.machine? = none ∨ ∃ r, d.signal = .reply r) : Chained trace d where
  linked := stack ▸ ⟨fits, linked⟩
  attends := by
    have head {b : Activation G} (h : d.stack.head? = some b) : b = a := by
      rw [stack] at h
      exact (Option.some.inj h).symm
    refine ⟨fun b m p g i here machine asked => ?_, fun b m p g here machine asked => ?_,
      fun b g r here pursued => ?_⟩
    · obtain rfl := head here
      rcases unasked with none | ⟨r, same⟩
      · rw [none] at machine
        contradiction
      · rw [same] at asked
        contradiction
    · obtain rfl := head here
      rcases unasked with none | ⟨r, same⟩
      · rw [none] at machine
        contradiction
      · rw [same] at asked
        contradiction
    · obtain rfl := head here
      rw [alone] at pursued
      contradiction

/-- The topmost activation is gone, and what is below it has a reply. -/
theorem Chained.of_pop (chained : Chained trace c) (aligned : Aligned trace c)
    (seated : Seated trace c) (active : c.Active) (und : Undisturbed trace c d) {a : Activation G}
    {rest : List (Activation G)} {r : Reply} (before : c.stack = a :: rest) (stack : d.stack = rest)
    (signal : d.signal = .reply r)
    (ended : ∀ g, a.active? = some g → r.Final → d.world.status g = .finished) :
    Chained (c :: trace) d where
  linked := stack ▸ (chained.below seated active und before).1
  attends := by
    refine ⟨fun _ _ _ _ _ _ _ asked => ?_, fun _ _ _ _ _ _ asked => ?_,
      fun b g r' head pursued same final => ?_⟩
    · rw [signal] at asked
      contradiction
    · rw [signal] at asked
      contradiction
    · rw [signal] at same
      cases same
      rw [stack] at head
      obtain ⟨below, rfl⟩ := List.head?_eq_some_iff.1 head
      have above := aligned.above
      rw [before] at above
      have here := (List.isChain_cons_cons.1 above).1.waits g (Activation.waits?_of_pursued? pursued)
      exact .inl (ended g here final)

/-! ## Turns of machines -/

namespace Machine

variable {s t : Store} {m : Nat} {p p' : Phase} {r : Reply}

theorem Delivers.raisable {u : Store} {o : Outcome} {base : List Val}
    (h : Delivers s m p r u o base)
    (thrown : ∀ id k v e, received? p r = some (.resumption id ⟨.cont k, v, e⟩) →
      e = .none ∨ ∃ x, e = .exc x) : o.input.Raisable := by
  intro v same
  cases h with
  | resumed c id k w e =>
      rcases thrown id k w e rfl with rfl | ⟨x, rfl⟩
      · cases same
      · cases same
        exact ⟨x, rfl⟩
  | raised x waits =>
      cases same
      exact ⟨x, rfl⟩
  | discarded op r x =>
      cases same
      exact ⟨x, rfl⟩
  | broken c x stack =>
      cases same
      exact ⟨x, rfl⟩
  | _ => cases same

theorem Delivered.input {o : Outcome} {base left : List Val} {g : Gen} {i : Input}
    (h : Delivered o base left (.ask (.advance g i) p')) : i = o.input := by
  generalize made : Turn.ask (.advance g i) p' = turn at h
  induction h with
  | finish o => cases o with
    | ok v => cases made
    | failed v => cases v <;> cases made
  | returns h tag v rest => cases made
  | passes h tag below ih => exact ih made
  | advances o g tag rest =>
      cases made
      rfl

/-- A machine throws only exceptions, unless something else was thrown into a continuation. -/
theorem Does.raisable {g : Gen} {i : Input} (does : Does s m p r t (.ask (.advance g i) p'))
    (thrown : ∀ id k v e, received? p r = some (.resumption id ⟨.cont k, v, e⟩) →
      e = .none ∨ ∃ x, e = .exc x) : i.Raisable := by
  generalize made : Turn.ask (.advance g i) p' = turn at does
  cases does with
  | settles delivers delivered after =>
      subst made
      rw [delivered.input]
      exact delivers.raisable thrown
  | halts left after ending unasked =>
      subst made
      contradiction
  | escapes c id action => cases made
  | @closes _ _ v rest x contents => cases v <;> cases made
  | @discards c op v rest stack unasked => cases c <;> cases made
  | captures invoked stack brings after directs => cases directs <;> cases made

end Machine

theorem Lawful.thrown_machine (lawful : Lawful trace c) {m : Nat} {p : Machine.Phase} {r : Reply}
    {g : Gen} {rest : List (Activation G)}
    (stack : c.stack = .running g (.library (.machine m p)) :: rest) (signal : c.signal = .reply r)
    (id : Nat) (k : Cont) (v e : Val)
    (received : Machine.received? p r = some (.resumption id ⟨.cont k, v, e⟩)) :
    e = .none ∨ ∃ x, e = .exc x := by
  refine lawful.thrown e ?_
  have here : c.received? = Machine.received? p r := by
    obtain ⟨w, _, _⟩ := c
    cases stack
    cases signal
    rfl
  unfold Config.thrown?
  rw [here, received]
  rfl

/-- A generator that is discarded is owned no more. -/
theorem unheld_of_discard (owning : Owning trace c) (lawful : Lawful trace c) {m : Nat}
    {p : Machine.Phase} {r : Reply} {i g : Gen} {rest : List (Activation G)} {tag : Tag}
    {frames : List Val} (inside : m < c.world.store.machines.size)
    (stack : c.stack = .running i (.library (.machine m p)) :: rest) (signal : c.signal = .reply r)
    (top : c.world.store.stack m = .frame (.generator (.gen g) tag) :: frames)
    (set : d.world.store = c.world.store.setStack m frames)
    (same : reserved d.stack = reserved c.stack) : d.holds (c :: trace) (.gen g.id) = 0 := by
  have once := owning.once (.gen g.id)
  have answered := Machine.countP_answered (s := d.world.store) (p := p) (r := r)
    (fun q asked => lawful.pushed q (Config.pushed?_machine stack signal ▸ asked))
    (Key.gen g.id).within
  have changed := owning.sound.own.countP_setStack (Key.gen g.id).within trace.outstanding
    inside frames
  have here : (Key.gen g.id).within (.frame (.generator (.gen g) tag)) = true := by
    simp [Key.within, Val.keys]
  rw [top, List.countP_cons, if_pos here, ← set] at changed
  unfold Config.holds at once ⊢
  rw [Config.outstanding_machine trace stack signal, same]
  omega

/-- The topmost machine makes a turn and asks for something. -/
theorem Chained.of_machine (chained : Chained trace c) (seated : Seated trace c) (active : c.Active) (owning : Owning trace c) (lawful : Lawful trace c)
    (und : Undisturbed trace c d) {m : Nat} {p p' : Machine.Phase} {r : Reply} {g : Gen} {a : Ask}
    {rest : List (Activation G)} {t : Store}
    (stack : c.stack = .running g (.library (.machine m p)) :: rest) (signal : c.signal = .reply r)
    (does : Machine.Does c.world.store m p r t (.ask a p'))
    (asked : Machine.Asked m c.world.store t a p') (store : d.world.store = t)
    (after : d.stack = .running g (.library (.machine m p')) :: rest)
    (advances : ∀ h i, d.signal = .advance h i → a = .advance h i)
    (closes : ∀ h, d.signal = .close h → a = .close h) (unreplied : ∀ r, d.signal ≠ .reply r) :
    Chained (c :: trace) d := by
  obtain ⟨linked, fits⟩ := chained.below seated active und stack
  obtain ⟨g', -, ran, -⟩ := seated.machine (a := .running g (.library (.machine m p)))
    (by simp [stack]) rfl
  have inside := owning.sound.ran m _ ran
  refine ⟨after ▸ ⟨fits.swap rfl (by simp), linked⟩, fun b n q h i head machine same => ?_,
    fun b n q h head machine same => ?_, fun _ _ r _ _ same => absurd same (unreplied r)⟩
  · have made := advances h i same
    subst made
    rw [after] at head
    cases head
    cases machine
    exact does.raisable (lawful.thrown_machine stack signal)
  · have made := closes h same
    subst made
    rw [after] at head
    cases head
    cases machine
    cases asked with
    | @discards _ tag frames op top set =>
        have framed : h.id ∈ trace.framed := by
          refine owning.gens _ ?_
          exact Config.holds_of_stack inside (by simp [top, Val.keys])
        refine ⟨Trace.framed_cons framed, ?_⟩
        refine unheld_of_discard owning lawful inside stack signal top (store.trans set) ?_
        rw [after, stack]
        simp [reserved_cons, Activation.tag?]
    | closes x same here holding =>
        rw [← store] at here
        exact here

/-- A generator that is advanced for a machine is answered for when it has ended or is running. -/
theorem Chained.over_of_stays {w : World G} {stack : List (Activation G)} {h : Gen} {i : Input}
    {r : Reply} (chained : Chained trace ⟨w, stack, .advance h i⟩)
    (aligned : Aligned trace ⟨w, stack, .advance h i⟩)
    (seated : Seated trace ⟨w, stack, .advance h i⟩)
    (starting : Starting trace ⟨w, stack, .advance h i⟩) (unmoved : Unmoved w h i r)
    {a : Activation G} {g : Gen} (head : stack.head? = some a) (pursued : a.pursued? = some g) :
    w.status g = .finished ∨ w.status g = .running := by
  have waits := Activation.waits?_of_pursued? pursued
  obtain ⟨relays, j, same⟩ := aligned.asking (by simp) head waits
  cases same
  unfold Activation.pursued? at pursued
  split at pursued
  · contradiction
  · rename_i i' m g'
    cases pursued
    have mem := List.mem_of_mem_head? head
    cases unmoved with
    | running i x status => exact .inr status
    | finished i status final => exact .inl status
    | @unstarted v p x status other =>
        obtain ⟨h, t, rest, same, top⟩ := aligned.held _ mem m _ rfl
        cases same
        have there := World.getElem?_of_status status (by simp)
        rcases seated.stack _ mem with plain | ⟨n, q, same, -, -, started⟩
        · exact absurd plain.machine? (by simp [Routine.machine?])
        · cases same
          rcases starting.top m _ t rest top ⟨p, there⟩ with unstepped | asked
          · exact absurd (started.resolve_left (by simp)) unstepped
          · cases asked
            exact absurd rfl other
    | refused x other =>
        obtain ⟨y, same⟩ := chained.attends.raisable _ m _ _ _ head rfl rfl _ rfl
        exact absurd same (other y)
  · contradiction

/-- Chaining is kept by every lawful step. -/
theorem Chained.step (chained : Chained trace c) (aligned : Aligned trace c)
    (seated : Seated trace c) (starting : Starting trace c) (active : c.Active)
    (owning : Owning trace c) (lawful : Lawful trace c) (moves : Moves c d) :
    Chained (c :: trace) d := by
  have und := undisturbed owning seated lawful moves
  have kept := chained.keep seated und
  have fits (unreplied : ∀ r, c.signal ≠ .reply r) {a : Activation G} :=
    chained.fits (a := a) aligned seated und unreplied
  -- a signal other than an advance is not what anybody waits for
  have unasked (unreplied : ∀ r, c.signal ≠ .reply r) (other : ∀ g i, c.signal ≠ .advance g i)
      {a : Activation G} {g : Gen} (head : c.stack.head? = some a) (pursued : a.pursued? = some g) :
      False := by
    obtain ⟨-, i, asked⟩ := aligned.asking unreplied head (Activation.waits?_of_pursued? pursued)
    exact other g i asked
  cases moves with
  -- the stack stays as it is
  | answers calls =>
      exact chained.of_same seated und (by simp) rfl (.inl ⟨_, rfl⟩)
        fun _ _ _ head pursued => (unasked (by simp) (by simp) head pursued).elim
  | spawns kind name calls spawned =>
      exact chained.of_same seated und (by simp) rfl (.inl ⟨_, rfl⟩)
        fun _ _ _ head pursued => (unasked (by simp) (by simp) head pursued).elim
  | forwards calls =>
      exact chained.of_same seated und (by simp) rfl (.inr ⟨_, _, _, rfl⟩)
        fun _ _ _ head pursued => (unasked (by simp) (by simp) head pursued).elim
  | stays quiet unmoved =>
      refine chained.of_same seated und (by simp) rfl (.inl ⟨_, rfl⟩) fun a g _ head pursued _ _ => ?_
      exact chained.over_of_stays aligned seated starting unmoved head pursued
  | @breaks w stack h v store x quiet status =>
      refine chained.of_same seated und (by simp) rfl (.inl ⟨_, rfl⟩) fun a g _ head pursued _ _ => ?_
      obtain ⟨-, i, same⟩ := aligned.asking (by simp) head (Activation.waits?_of_pursued? pursued)
      cases same
      exact .inl (World.status_setStatus_finished w h)
  | spares quiet final =>
      exact chained.of_same seated und (by simp) rfl (.inl ⟨_, rfl⟩)
        fun _ _ _ head pursued => (unasked (by simp) (by simp) head pursued).elim
  | discards status =>
      exact chained.of_same seated und (by simp) rfl (.inl ⟨_, rfl⟩)
        fun _ _ _ head pursued => (unasked (by simp) (by simp) head pursued).elim
  -- something is put on top
  | enters calls entered =>
      exact .of_top rfl (fits (by simp) (by simp) (by simp)) (kept (by simp)) rfl (.inr ⟨_, rfl⟩)
  | @begins w stack g p status =>
      refine .of_top rfl (fits (by simp) ?_ (by simp)) (kept (by simp)) ?_ (.inr ⟨_, rfl⟩)
      · rintro h ⟨⟩
        exact ⟨_, rfl⟩
      · have serves := seated.gens _ _ (World.getElem?_of_status status (by simp))
        exact serves.pursued? (fun q => .inl) g
  | @resumes w stack g i p how store r quiet status =>
      refine .of_top rfl (fits (by simp) ?_ (by simp)) (kept (by simp)) ?_ (.inr ⟨_, rfl⟩)
      · rintro h ⟨⟩
        exact ⟨_, rfl⟩
      · have serves := seated.gens _ _ (World.getElem?_of_status status (by simp))
        exact serves.pursued? (fun q => .inr) g
  | relays status =>
      refine .of_top rfl (fits (by simp) ?_ (by simp)) (kept (by simp)) rfl (.inl rfl)
      rintro h ⟨⟩
      exact ⟨_, rfl⟩
  | exits x status =>
      refine .of_top rfl (fits (by simp) ?_ (by simp)) (kept (by simp)) rfl (.inl rfl)
      rintro h ⟨⟩
      exact ⟨_, rfl⟩
  | @interrupts w stack g p how store x quiet status =>
      have above := fits (a := .closing g) (by simp) (by simp) (by rintro h ⟨⟩; rfl)
      refine .of_top rfl ⟨?_, by simp⟩ ⟨above, kept (by simp)⟩ ?_ (.inr ⟨_, rfl⟩)
      · rintro h ⟨⟩
        exact .inr ⟨_, rfl, rfl⟩
      · have serves := seated.gens _ _ (World.getElem?_of_status status (by simp))
        exact serves.pursued? (fun q => .inr) g
  | @pursues w stack g d p store x quiet status =>
      have above := fits (a := .closing g) (by simp) (by simp) (by rintro h ⟨⟩; rfl)
      refine .of_top rfl ⟨?_, by simp⟩ ⟨above, kept (by simp)⟩ rfl (.inl rfl)
      rintro h ⟨⟩
      exact .inr ⟨_, rfl, rfl⟩
  -- something takes the place of the topmost activation
  | @goes w v seat p p' r turn store signal stack stepped answer =>
      obtain ⟨linked, fits⟩ := chained.below seated active und rfl
      have swapped := fits.swap (b := .of seat p') (by cases seat <;> rfl) (by cases seat <;> simp [Activation.of])
      have idle (none_here : p'.machine? = none) :
          Chained (⟨w, .of seat p :: stack, .reply r⟩ :: trace)
            ⟨{ v with store }, .of seat p' :: stack, signal⟩ :=
        .of_top rfl swapped linked (Routine.pursued?_of_machine? none_here seat)
          (.inl (Routine.waits?_of_machine? none_here seat).2.2)
      cases seat with
      | none =>
          have fair := seated.stack (.calling p) List.mem_cons_self
          exact idle (Routine.machine?_next fair stepped answer.next?)
      | some g =>
          rcases aligned.turned seated owning.sound rfl rfl stepped answer.next? with
            plain | ⟨m, phase, phase', a, rfl, rfl, rfl, -, does, asked⟩
          · exact idle plain.machine?
          · cases answer with
            | call f args _ =>
                exact chained.of_machine seated active owning lawful und rfl rfl does asked rfl rfl
                  (by simp) (by simp) (by simp)
            | advance h i _ =>
                exact chained.of_machine seated active owning lawful und rfl rfl does asked rfl rfl
                  (by rintro h i ⟨⟩; rfl) (by simp) (by simp)
            | close h _ =>
                exact chained.of_machine seated active owning lawful und rfl rfl does asked rfl rfl
                  (by simp) (by rintro h ⟨⟩; rfl) (by simp)
            | refused x quiet unfit =>
                rcases unfit with ⟨u, how, -, other⟩ | ⟨u, rfl⟩ | ⟨u, rfl⟩
                · contradiction
                · cases asked
                · cases asked
  | delegates stepped passes =>
      obtain ⟨linked, fits⟩ := chained.below seated active und rfl
      exact .of_top rfl (fits.swap rfl (by simp)) linked rfl (.inl rfl)
  | @regains w stack g d p r r' =>
      obtain ⟨linked, fits⟩ := chained.below seated active und rfl
      have plain : p.Plain := seated.stack (.relaying g p d) (by simp)
      exact .of_top rfl (fits.swap rfl (by simp)) linked (plain.pursued? (some g)) (.inr ⟨_, rfl⟩)
  | @leaves w stack g p x r y =>
      obtain ⟨linked, fits⟩ := chained.below seated active und rfl
      have plain : p.Plain := seated.stack (.exiting g p x) (by simp)
      exact .of_top rfl (fits.swap rfl (by simp)) linked (plain.pursued? (some g)) (.inr ⟨_, rfl⟩)
  -- the topmost activation goes
  | suspends stepped =>
      exact chained.of_pop aligned seated active und rfl rfl rfl
        fun _ _ final => absurd rfl (final _)
  | @ends w v stack g p r r' turn store stepped ending quiet final =>
      refine chained.of_pop aligned seated active und rfl rfl rfl ?_
      rintro h ⟨⟩ -
      exact World.status_setStatus_finished v g
  | returns stepped ending quiet final =>
      exact chained.of_pop aligned seated active und rfl rfl rfl (by simp)
  | hands v =>
      exact chained.of_pop aligned seated active und rfl rfl rfl
        fun _ _ final => absurd rfl (final _)
  | closes quiet final =>
      exact chained.of_pop aligned seated active und rfl rfl rfl (by simp)

theorem Chained.of_fresh (fresh : c.Fresh) : Chained [] c := by
  refine ⟨by rw [fresh.stack]; trivial, ?_, ?_, ?_⟩ <;> simp [fresh.stack]

end Keeping
end OneShot
