import OneShot.Proofs.Frames.Chain
import OneShot.Proofs.Frames.Following
import OneShot.Proofs.Frames.Standing

/-!
# Linearity

In every configuration of a lawful run each frame is in one place, and so is each
generator that a frame holds.  A frame leaves the stack of a machine only into a
continuation, or when there is nothing left for it to do.  So no machine advances
a generator that is running, unless that is being closed by something else.
-/

namespace OneShot

variable {G : Guest} {trace : Trace G} {c d : Config G}

/-- What is kept in every lawful run. -/
structure Kept (trace : Trace G) (c : Config G) : Prop extends Ordered trace c where
  chained : Chained trace c

theorem Run.kept (run : Run trace c) : Kept trace c := by
  induction run with
  | start fresh => exact ⟨.of_fresh fresh, .of_fresh fresh⟩
  | @step trace c d before lawful stepped ih =>
      refine ⟨ih.toOrdered.step lawful.toOrderly stepped, ?_⟩
      exact ih.chained.step ih.aligned ih.seated ih.starting ih.active ih.owning lawful
        (Config.moves_step stepped)

/-! ## Running generators -/

theorem Linked.at {a : Activation G} {above below : List (Activation G)}
    (linked : Linked trace c (above ++ a :: below)) : Fits trace c a below.head? := by
  induction above with
  | nil => exact linked.1
  | cons b above ih => exact ih linked.2

/-- A generator in the topmost frame of a waiting machine that runs is being closed by hand. -/
theorem Kept.closedByHand (kept : Kept trace c) {a : Activation G} {rest : List (Activation G)}
    {m : Nat} {p : Machine.Phase} {g : Gen} (stack : c.stack = a :: rest)
    (machine : a.machine? = some (m, p))
    (here : Key.gen g.id ∈ (c.world.store.stack m).flatMap Val.keys)
    (running : c.world.status g = .running) : ClosedByHand c.stack g := by
  obtain ⟨i, -, ran, -⟩ := kept.seated.machine (a := a) (by simp [stack]) machine
  have inside := kept.owning.sound.ran m _ ran
  -- another machine does not have the generator, and this one has no other activation
  have elsewhere {b : Activation G} {n : Nat} {q : Machine.Phase} (mem : b ∈ rest)
      (other : b.machine? = some (n, q))
      (there : Key.gen g.id ∈ (c.world.store.stack n).flatMap Val.keys) : False := by
    obtain ⟨j, -, ran', -⟩ := kept.seated.machine (a := b) (by simp [stack, mem]) other
    have same := kept.owning.unique inside (kept.owning.sound.ran n _ ran') here there
    subst same
    exact kept.seated.alone kept.active (stack.trans (List.nil_append _).symm) mem machine other
  have active : g.id ∈ OneShot.active c.stack := by
    have there := World.getElem?_of_status running (by simp)
    exact (kept.active.running g.id).1 there
  obtain ⟨b, mem, found⟩ := List.mem_filterMap.1 active
  obtain ⟨h, body, same⟩ := Option.map_eq_some_iff.1 found
  obtain ⟨above, below, split⟩ := List.append_of_mem mem
  have linked := kept.chained.linked
  rw [split] at linked
  have tail {x : Activation G} (mem : x ∈ below) : x ∈ rest := by
    rw [stack] at split
    cases above with
    | nil =>
        cases split
        exact mem
    | cons y above =>
        cases split
        simp [mem]
  rcases linked.at.active h body with advanced | ⟨x, under, pursued⟩
  · obtain ⟨f, mem', key⟩ := List.mem_flatMap.1 here
    cases kept.owning.sound.onStacks m f mem' with
    | generator g' t =>
        have same' : g'.id = g.id := by simpa [Val.keys, eq_comm] using key
        have framed := kept.starting.stacked m g' t mem'
        rw [same', ← same] at framed
        exact absurd advanced (kept.apart _ framed)
    | handler h t => simp [Val.keys] at key
  · obtain ⟨below', rfl⟩ := List.head?_eq_some_iff.1 under
    unfold Activation.pursued? at pursued
    split at pursued
    · rename_i h'
      cases pursued
      refine ⟨above ++ [b], h, below', by simp [split], same, fun y head => ?_⟩
      by_contra some_machine
      obtain ⟨⟨n, q⟩, found⟩ := Option.ne_none_iff_exists'.1 some_machine
      have inner : Linked trace c ((above ++ [b]) ++ .closing h :: below') := by simpa using linked
      have closes := inner.at.closing h y n q rfl head found
      have mem' : y ∈ rest := tail (List.mem_cons_of_mem _ (List.mem_of_mem_head? head))
      cases q with
      | discarding op =>
          have held : 0 < c.holds trace (.gen g.id) := Config.holds_of_stack inside here
          rw [← same, closes.2] at held
          omega
      | closing vs x => exact elsewhere mem' found (same ▸ closes)
      | _ => exact closes
    · rename_i i' n h'
      cases pursued
      have mem' : Activation.running i' (.library (.machine n (.advancing (.gen h)))) ∈ rest :=
        tail (by simp)
      obtain ⟨g', t, frames, same', top⟩ := kept.aligned.held _ (by rw [stack]; exact .tail a mem') n _ rfl
      cases same'
      exact (elsewhere mem' rfl (by simp [top, Val.keys, same])).elim
    · contradiction

/-! ## Leaving a stack -/

/-- The frame of a generator that a machine goes on without. -/
theorem Kept.leaves_top (kept : Kept trace c) {m : Nat} {content : Val} {r : Reply} {g : Gen}
    {rest : List (Activation G)} {v : Val} {below : List Val}
    (stack : c.stack = .running g (.library (.machine m (.advancing content))) :: rest)
    (signal : c.signal = .reply r) (final : r.Final)
    (top : c.world.store.stack m = v :: below) : Leaves c d m v := by
  obtain ⟨h, t, frames, rfl, held⟩ := kept.aligned.held _ (by rw [stack]; exact .head _) m _ rfl
  rw [top] at held
  cases held
  rcases kept.chained.attends.ending _ h r (congrArg List.head? stack) rfl signal final with
    finished | running
  · exact .finished t finished
  · refine .interrupted t running (kept.closedByHand stack rfl ?_ running)
    simp [top, Val.keys]

/-- A frame that is gone from the stack of a machine has left it for a reason. -/
theorem Kept.leaves (kept : Kept trace c) (lawful : Lawful trace c) (stepped : c.step = .ok d)
    {m : Nat} {v : Val} (mem : v ∈ c.world.store.stack m) (gone : v ∉ d.world.store.stack m) :
    Leaves c d m v := by
  have sound := kept.owning.sound
  have shift := Config.shift_step kept.seated lawful.toGenuine (sound.turning kept.seated)
    (Config.moves_step stepped)
  have inside : m < c.world.store.machines.size := by
    by_contra outside
    simp [Store.stack, Array.getElem?_eq_none (Nat.not_lt.1 outside)] at mem
  have turning : c.stepped? = some m := by
    by_contra other
    exact gone (shift.stack_eq sound kept.seated inside other ▸ mem)
  obtain ⟨a, rest, r, p, stack, signal, machine⟩ := Config.stepped?_eq_some turning
  obtain ⟨g, rfl, -⟩ := kept.seated.machine (a := a) (by simp [stack]) machine
  obtain ⟨t, moved, -, does, followed⟩ := sound.follows kept.seated stack signal stepped
  have store := followed.quiet
  -- an outcome has passed handlers on the stack as it was
  have passed {ending left : List Val} (whole : c.world.store.stack m = ending ++ left)
      (after : d.world.store.stack m = left)
      (handlers : v ∈ ending → ∃ content tag, v = .frame (.handler content tag)) :
      Leaves c d m v := by
    have here : v ∈ ending := (List.mem_append.1 (whole ▸ mem)).resolve_right (after ▸ gone)
    obtain ⟨content, tag, rfl⟩ := handlers here
    obtain ⟨above, below, rfl⟩ := List.append_of_mem here
    cases sound.onStacks m _ mem with
    | handler h _ =>
        have split : c.world.store.stack m = above ++ .frame (.handler (.handler h) tag) :: (below ++ left) := by
          simp [whole]
        exact .passed turning split (after ▸ List.suffix_append below left)
  cases does with
  | @settles _ _ o base left u _ _ delivers delivered after =>
      have kept_left := ((delivers.sets sound.own inside after).after store).stack_eq
      obtain ⟨above, whole, handlers⟩ := delivered.passed
      cases delivers with
      | start r => exact passed whole kept_left (handlers v)
      | answered r w waits => exact passed whole kept_left (handlers v)
      | raised x waits => exact passed whole kept_left (handlers v)
      | discarded op r x => exact passed whole kept_left (handlers v)
      | pushed value made =>
          cases delivered
          exact absurd (kept_left ▸ List.mem_cons_of_mem _ mem) gone
      | @ended w base r content x top value =>
          by_cases here : v = w
          · exact here ▸ kept.leaves_top stack signal value top
          · have all : c.world.store.stack m = (w :: above) ++ left := by rw [top, whole]; rfl
            refine passed all kept_left fun ending => ?_
            exact handlers v ((List.mem_cons.1 ending).resolve_left here)
      | @broken w base content x top =>
          by_cases here : v = w
          · exact here ▸ kept.leaves_top stack signal (fun v => by simp) top
          · have all : c.world.store.stack m = (w :: above) ++ left := by rw [top, whole]; rfl
            refine passed all kept_left fun ending => ?_
            exact handlers v ((List.mem_cons.1 ending).resolve_left here)
      | resumed content id k w e =>
          rcases List.append_eq_append_iff.1 whole with ⟨ending, split, rest⟩ | ⟨slice, -, rest⟩
          · exact passed rest kept_left fun here => handlers v (by simp [split, here])
          · exact absurd (kept_left ▸ rest ▸ List.mem_append_right slice mem) gone
  | halts left after ending unasked begun =>
      have sets := (Machine.sets_of_take left sound.own (m := m) after).after store
      exact absurd (sets.stack_eq ▸ mem) gone
  | escapes content id action =>
      exact absurd (((Store.Sets.refl sound.own m).after store).stack_eq ▸ mem) gone
  | closes contents =>
      exact absurd (((Store.Sets.refl sound.own m).after store).stack_eq ▸ mem) gone
  | @discards content op w below top unasked =>
      have sets := (Store.Sets.setStack sound.own inside below).after store
      rw [top] at mem
      obtain rfl := (List.mem_cons.1 mem).resolve_right (sets.stack_eq ▸ gone)
      obtain ⟨h, tag, frames, rfl, held⟩ := kept.aligned.held _ (by rw [stack]; exact .head _) m _ rfl
      rw [top] at held
      cases held
      cases followed with
      | closes h q => exact .closing tag rfl rfl
      | ends ending quiet final => contradiction
  | @captures content op i above below brought inner u t turn invoked whole brings after directs =>
      have sets := (brings.sets sound.own inside after).after store
      rw [whole] at mem
      have captured := (List.mem_append.1 mem).resolve_right (sets.stack_eq ▸ gone)
      refine .captured ⟨c.world.store.conts.size, false⟩ rfl (brings.pending (after.trans store) _) ?_
      rw [sets.frames, if_pos rfl]
      exact List.mem_append_right _ captured

/-- A machine that advances a generator has it on top of its stack. -/
theorem Kept.advanced_by (kept : Kept trace c) {a : Activation G} {m : Nat} {p : Machine.Phase}
    {g : Gen} {i : Input} (head : c.stack.head? = some a) (machine : a.machine? = some (m, p))
    (signal : c.signal = .advance g i) :
    ∃ t below, c.world.store.stack m = .frame (.generator (.gen g) t) :: below := by
  have mem := List.mem_of_mem_head? head
  obtain ⟨h, rfl, -⟩ := kept.seated.machine mem machine
  have waits := kept.aligned.advances _ g i head rfl signal
  unfold Activation.waits? at waits
  split at waits
  · contradiction
  · contradiction
  · rename_i same
    cases same
    cases waits
    obtain ⟨h, t, below, same, held⟩ := kept.aligned.held _ mem m _ rfl
    cases same
    exact ⟨t, below, held⟩
  · contradiction

/--
In a lawful run no frame is in two places, and none leaves a stack without a reason.
A machine advances a running generator only while that is being closed by hand.
-/
theorem Run.linear (run : Run trace c) : Linear trace c ∧
    (∀ d m v, Lawful trace c → c.step = .ok d → v ∈ c.world.store.stack m →
      v ∉ d.world.store.stack m → Leaves c d m v) ∧
    ∀ a m p g i, c.stack.head? = some a → a.machine? = some (m, p) → c.signal = .advance g i →
      c.world.status g = .running → ClosedByHand c.stack g := by
  have kept := run.kept
  refine ⟨kept.owning.once_owned, fun d m v lawful stepped => kept.leaves lawful stepped,
    fun a m p g i head machine signal running => ?_⟩
  obtain ⟨rest, stack⟩ := List.head?_eq_some_iff.1 head
  obtain ⟨t, below, top⟩ := kept.advanced_by head machine signal
  exact kept.closedByHand stack machine (by simp [top, Val.keys]) running

/-! ## Resuming what is being closed -/

namespace Script

/--
A program that keeps the continuation of a computation, and closes it.  When it is
closed, the computation resumes its own continuation, which was not taken by that.
-/
def resumingClosed : Function :=
  ⟨.plain, "main", [], ["effect", "kept", "handler", "again", "body"], [
    .assign "effect" (uses (.op .effect) []),
    .assign "kept" (uses (.op .cell) [.literal .none]),
    .assign "handler" (uses (.op .handler) [.name "effect", .literal .none,
      .function ⟨.plain, "clause", ["k"], [], [
        .expr (uses (.op .cellPut) [.name "kept", .name "k"])]⟩]),
    .assign "again" (.function ⟨.generator, "again", [], [], [
      .result (.delegate (.call (uses (.op .cellGet) [.name "kept"]) [.literal (.int 1)]))]⟩),
    .assign "body" (.function ⟨.generator, "body", [], [], [
      .attempt [.expr (.yield (.call (.name "effect") []))] []
        [.expr (uses (.service .execute) [.name "again"])]]⟩),
    .expr (uses (.service .execute) [.function ⟨.plain, "wrapped", [], [], [
      .result (uses (.service .handle) [.name "handler", .name "body"])]⟩]),
    .expr (uses (.service .close) [uses (.op .cellGet) [.name "kept"]])]⟩

end Script

open Script

/-- What the topmost machine is about to advance, if that is running already. -/
def Config.colliding? (c : Config G) : Option Gen :=
  match c.stack.head?.bind Activation.machine?, c.signal with
  | some _, .advance g _ =>
    match c.world.status g with
    | .running => some g
    | _ => none
  | _, _ => none

theorem Config.of_colliding? {g : Gen} (h : c.colliding? = some g) :
    ∃ a m p i, c.stack.head? = some a ∧ a.machine? = some (m, p) ∧ c.signal = .advance g i ∧
      c.world.status g = .running := by
  unfold colliding? at h
  split at h
  · rename_i q g' i machine signal
    obtain ⟨a, head, machine⟩ := Option.bind_eq_some_iff.1 machine
    split at h
    · rename_i running
      cases h
      exact ⟨a, q.1, q.2, i, head, machine, signal, running⟩
    · contradiction
  · contradiction

theorem exists_colliding : ∃ (trace : Trace language) (c : Config language),
    Run trace c ∧ c.colliding?.isSome = true :=
  exists_run (fresh_begin resumingClosed) 168 (by decide +kernel)

/-- Where a machine advances what is running, frames are in one place and something closes it. -/
theorem Run.linear_colliding : ∃ (trace : Trace language) (c : Config language) (g : Gen),
    Run trace c ∧ c.colliding? = some g ∧ Linear trace c ∧ ClosedByHand c.stack g := by
  obtain ⟨trace, c, run, found⟩ := exists_colliding
  obtain ⟨g, collides⟩ := Option.isSome_iff_exists.1 found
  obtain ⟨a, m, p, i, head, machine, signal, running⟩ := Config.of_colliding? collides
  obtain ⟨once, -, closed⟩ := Run.linear run
  exact ⟨trace, c, g, run, collides, once, closed a m p g i head machine signal running⟩

/-- It is not so that machines never advance what is running. -/
theorem not_never_colliding : ¬ ∀ (trace : Trace language) (c : Config language), Run trace c →
    ∀ a m p g i, c.stack.head? = some a → a.machine? = some (m, p) → c.signal = .advance g i →
      c.world.status g ≠ .running := by
  intro never
  obtain ⟨trace, c, run, found⟩ := exists_colliding
  obtain ⟨g, collides⟩ := Option.isSome_iff_exists.1 found
  obtain ⟨a, m, p, i, head, machine, signal, running⟩ := Config.of_colliding? collides
  exact never trace c run a m p g i head machine signal running

end OneShot
