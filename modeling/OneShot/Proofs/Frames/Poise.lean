import OneShot.Proofs.Frames.Beginnings
import OneShot.Proofs.Frames.Depth
import OneShot.Proofs.Frames.Dispatch

/-!
# Suspended bodies stay as they are

What is in a buried frame has suspended with some value, by itself or by what it has
run in its place, and would go on from there, unless something on the way was closed.
On top of a continuation that was captured for an invocation is what has suspended with
that invocation.
-/

namespace OneShot

variable {G : Guest} {trace : Trace G} {c d : Config G}

/-- In the next step the body of `g` suspends with `v`, to go on as `p`. -/
inductive Config.Suspends (c : Config G) (g : Gen) (v : Val) (how : Suspension) (p : Routine G) :
    Prop
  | intro {q : Routine G} {r : Reply} {rest : List (Activation G)}
      (stack : c.stack = .running g q :: rest) (signal : c.signal = .reply r)
      (turn : (q.step c.world r).2 = .ask (.yield v how) p) : Suspends c g v how p

/--
`g` has suspended with `v`, or what it has run in its place has, and is still as it was
left then.
-/
inductive Poised (trace : Trace G) (c : Config G) (v : Val) : Gen → Prop
  | itself {g : Gen} {before : Trace G} {e : Config G} {how : Suspension} {p : Routine G}
      (earlier : e :: before <:+ trace) (suspends : e.Suspends g v how p)
      (status : c.world.status g = .suspended p how) : Poised trace c v g
  | relays {g e : Gen} {p : Routine G} (status : c.world.status g = .delegating p e)
      (inner : Poised trace c v e) : Poised trace c v g
  | closed {g : Gen} (closed : g.id ∈ trace.closed) : Poised trace c v g

/-- What is run in the place of something that waits is not advanced. -/
theorem Recorded.inner_unasked (recorded : Recorded trace c) (active : c.Active)
    (tidy : Tidy trace c) {g e h : Gen} {p : Routine G} {i : Input}
    (status : c.world.status g = .delegating p e) (asked : c.signal = .advance h i) :
    h.id ≠ e.id := by
  intro same
  have there := World.getElem?_of_status status (by simp)
  have delegated := recorded.delegating g.id p e there
  rw [← same] at delegated
  obtain ⟨j, q, head, same'⟩ := tidy.sole h i g.id asked delegated
  have running := Manned.running active (List.mem_of_mem_head? head) rfl
  rw [same', there] at running
  cases running

/-- A generator that waits keeps its status, unless it is advanced, or it was closed. -/
theorem Config.status_of_unasked (stepped : c.step = .ok d) (active : c.Active) {g : Gen}
    {t : Status G} (status : c.world.status g = t) (idle : t ≠ .running) (begun : t ≠ .finished)
    (unasked : ∀ h i, c.signal = .advance h i → h.id ≠ g.id) :
    d.world.status g = t ∨ g.id ∈ Trace.closed (c :: trace) := by
  have there := World.getElem?_of_status status begun
  rcases (Config.moves_step stepped).status_of_idle active there idle with
    same | ⟨h, i, asked, same⟩ | closed
  · exact .inl (World.status_of same)
  · exact absurd same (unasked h i asked)
  · exact .inr (Trace.mem_closed_cons.2 (.inl closed))

/-- What is poised stays so, unless it is advanced. -/
theorem Poised.step {v : Val} {g : Gen} (poised : Poised trace c v g) (active : c.Active)
    (recorded : Recorded trace c) (tidy : Tidy trace c) (stepped : c.step = .ok d)
    (unasked : ∀ h i, c.signal = .advance h i → h.id ≠ g.id) : Poised (c :: trace) d v g := by
  induction poised with
  | itself earlier suspends status =>
      rcases Config.status_of_unasked stepped active status (by simp) (by simp) unasked with
        same | closed
      · exact .itself (earlier.trans (List.suffix_cons c trace)) suspends same
      · exact .closed closed
  | relays status inner ih =>
      rcases Config.status_of_unasked stepped active status (by simp) (by simp) unasked with
        same | closed
      · exact .relays same (ih fun h i asked => recorded.inner_unasked active tidy status asked)
      · exact .closed closed
  | closed closed => exact .closed (Trace.mem_closed_cons.2 (.inr closed))

/-- What has just suspended is poised. -/
theorem Yields.poised {v : Val} {g : Gen} (yields : Yields (c :: trace) g v) (active : c.Active)
    (recorded : Recorded trace c) (tidy : Tidy trace c) (stepped : c.step = .ok d)
    (before : ∀ g v, Yields trace g v → Poised trace c v g) : Poised (c :: trace) d v g := by
  cases yields with
  | itself stack signal turn =>
      exact .itself List.suffix_rfl ⟨stack, signal, turn⟩
        (Config.status_of_yield stack signal turn active stepped)
  | relayed inner stack signal =>
      refine .relays (Config.status_of_relay stack signal active stepped) ?_
      exact (before _ v inner).step active recorded tidy stepped (by simp [signal])

/-! ## Captured continuations -/

/-- The invocation that a continuation is captured for next, and the number of that. -/
def Config.captured? (c : Config G) : Option (Nat × Invocation) :=
  match c.received?.bind Val.invoked?, c.step with
  | some i, .ok d =>
      if c.world.store.conts.size < d.world.store.conts.size then
        some (c.world.store.conts.size, i)
      else none
  | _, _ => none

def Trace.captured (trace : Trace G) : List (Nat × Invocation) :=
  trace.filterMap (·.captured?)

theorem Trace.mem_captured_cons {q : Nat × Invocation} :
    q ∈ Trace.captured (c :: trace) ↔ c.captured? = some q ∨ q ∈ trace.captured := by
  simp [captured, List.mem_filterMap]

namespace Machine

variable {s t : Store} {m : Nat} {p : Phase} {r : Reply} {moved : Turn Phase}

/-- A turn makes no continuation, or captures one for an invocation. -/
theorem Does.captured (does : Does s m p r t moved) :
    t.conts.size = s.conts.size ∨ ∃ content op i above below brought inner u, ∃ turn : Turn Phase,
      p = .advancing content ∧ r = .yielded op ∧ op.invoked? = some i ∧
      s.stack m = above ++ below ∧ Brings s op u brought inner ∧
      t.conts.size = s.conts.size + 1 ∧ Directs i ⟨s.conts.size, inner.isSome⟩ above below turn ∧
      t.frames ⟨s.conts.size, inner.isSome⟩ = brought ++ above := by
  have quietly {u t : Store} (quiet : Store.Quietly u t) : t.conts = u.conts :=
    Store.conts_of_engine quiet.engine
  cases does with
  | settles delivers delivered after =>
      refine .inl ?_
      rw [quietly after, conts_setStack, quietly delivers.quiet]
  | halts left after ending unasked begun =>
      refine .inl ?_
      rcases left with rfl | ⟨k, rfl⟩
      · rw [quietly after]
      · rw [quietly after, Store.size_take]
  | escapes c id action => exact .inl rfl
  | closes contents => exact .inl rfl
  | discards stack unasked => exact .inl (by rw [conts_setStack])
  | @captures content op i above below brought inner u _ _ invoked stack brings after directs =>
      refine .inr ⟨content, op, i, above, below, brought, inner, u, _, rfl, rfl, invoked, stack,
        brings, ?_, directs, ?_⟩
      · rw [quietly after]
        simp [Store.newCont, brings.size]
      · rw [Store.frames_of_conts (quietly after), Store.frames_newCont_eq]
        simp [brings.size]

end Machine

/-! ## Poise in runs -/

/-- What is buried has suspended with something else than an escape, and stays as it was then. -/
structure Poising (trace : Trace G) (c : Config G) : Prop where
  buried : ∀ g t, Buried trace c (.frame (.generator (.gen g) t)) →
    ∃ v, (∀ id action, v ≠ .escape id action) ∧ Poised trace c v g
  yielded : ∀ g v, Yields trace g v → Poised trace c v g

theorem Poising.of_fresh (fresh : c.Fresh) : Poising [] c := by
  refine ⟨fun g t buried => ?_, fun g v yields => by cases yields⟩
  cases buried with
  | stacked mem => simp [Store.stack, fresh.machines] at mem
  | calling waits machine mem => simp [fresh.stack] at waits
  | slices kept mem => simp [Store.frames, fresh.conts] at mem

theorem Poising.step (poising : Poising trace c) (tended : Tended trace c) (tidy : Tidy trace c)
    (stepped : c.step = .ok d) : Poising (c :: trace) d := by
  have active := tended.ordered.active
  refine ⟨fun g t buried => ?_, fun g v yields =>
    yields.poised active tended.recorded tidy stepped poising.yielded⟩
  have keeps : Keeps (fun g => ∃ v, (∀ id action, v ≠ .escape id action) ∧ Poised trace c v g)
      trace c := ⟨poising.buried, fun g v yields other => ⟨v, other, poising.yielded g v yields⟩⟩
  obtain ⟨⟨v, other, poised⟩, unasked⟩ := keeps.after tended.ordered tidy stepped buried
  exact ⟨v, other, poised.step active tended.recorded tidy stepped unasked⟩

theorem RunOf.poising (run : RunOf Tidy trace c) : Poising trace c := by
  induction run with
  | start fresh => exact .of_fresh fresh
  | step before tidy stepped ih => exact ih.step before.tended tidy stepped

/-- What the program does next is tidy, and what it resends was resent to it. -/
structure Neat (trace : Trace G) (c : Config G) : Prop extends Tidy trace c, Faithful trace c

/-- A tidy run in which only machines yield resends is neat, and goes on so. -/
theorem RunOf.neat (run : RunOf (fun trace c => Tidy trace c ∧ c.forwards = false) trace c) :
    RunOf Neat trace c ∧ (Tidy trace c → Neat trace c) := by
  have goes_on {trace : Trace G} {c : Config G}
      (run : RunOf (fun trace c => Tidy trace c ∧ c.forwards = false) trace c)
      (tidy : Tidy trace c) : Neat trace c := by
    obtain ⟨faithful, only⟩ := RunOf.faithful (run.mono fun _ _ obeys => ⟨obeys.1.toGenuine, obeys.2⟩)
    refine ⟨tidy, fun id q received => ?_⟩
    obtain ⟨_, _, _, _, _, _, -, -, -, yields⟩ :=
      (faithful.standing fun _ _ h => h.toGenuine).received received
    exact yields.resent only
  refine ⟨?_, goes_on run⟩
  induction run with
  | start fresh => exact .start fresh
  | step before obeys stepped ih => exact .step ih (goes_on before obeys.1) stepped

/-- A continuation that is not taken, or whose request was not answered yet. -/
def Unused (trace : Trace G) (c : Config G) (k : Cont) : Prop :=
  c.world.store.isTaken k = false ∨ ∃ q ∈ trace.outstanding, q.2 = k

/--
Each continuation was captured for an invocation.  Until it is resumed, on top of it is
what has suspended with that.
-/
structure Caught (trace : Trace G) (c : Config G) : Prop where
  known : ∀ n i, (n, i) ∈ trace.captured → n < c.world.store.conts.size
  made : ∀ n, n < c.world.store.conts.size → ∃ i, (n, i) ∈ trace.captured
  unused : ∀ k i, Unused trace c k → (k.index, i) ∈ trace.captured → ∃ id g t fs,
    c.world.store.frames k = .frame (.generator (.gen g) t) :: fs ∧
      Poised trace c (.invocation id i) g
  resent : ∀ id q, (id, q) ∈ trace.resends → ∃ k, q.cont = .cont k ∧
    (k.index, ⟨q.effect, q.args, q.context⟩) ∈ trace.captured

theorem Caught.of_fresh (fresh : c.Fresh) : Caught [] c := by
  constructor <;> simp [Trace.captured, Trace.resends, fresh.conts]

namespace Config

/-- The continuations after a step are those before it, or the step captures one more. -/
theorem conts_of_step (shift : Shift c d) (stepped : c.step = .ok d) :
    d.world.store.conts.size = c.world.store.conts.size ∧ c.captured? = none ∨
      ∃ m g content op i above below brought inner u, ∃ rest : List (Activation G),
        ∃ turn : Turn Machine.Phase,
        c.stack = .running g (.library (.machine m (.advancing content))) :: rest ∧
        c.signal = .reply (.yielded op) ∧ op.invoked? = some i ∧
        c.world.store.stack m = above ++ below ∧
        Machine.Brings c.world.store op u brought inner ∧
        Machine.Directs i ⟨c.world.store.conts.size, inner.isSome⟩ above below turn ∧
        d.world.store.conts.size = c.world.store.conts.size + 1 ∧
        d.world.store.frames ⟨c.world.store.conts.size, inner.isSome⟩ = brought ++ above ∧
        c.captured? = some (c.world.store.conts.size, i) := by
  have none_of_size (same : d.world.store.conts.size = c.world.store.conts.size) :
      c.captured? = none := by
    unfold captured?
    rw [stepped]
    cases c.received?.bind Val.invoked? <;> simp [same]
  have quietly {u t : Store} (quiet : Store.Quietly u t) : t.conts = u.conts :=
    Store.conts_of_engine quiet.engine
  have still (same : d.world.store.conts.size = c.world.store.conts.size) := And.intro same
    (none_of_size same)
  cases shift with
  | quiet after idle unmade keeps => exact .inl (still (by rw [quietly after]))
  | takes k after idle made keeps => exact .inl (still (by rw [quietly after, Store.size_take]))
  | makes owner framed after idle unmade proper keeps =>
      exact .inl (still (by rw [quietly after]; rfl))
  | @machine m p r g rest t moved stack signal does after keeps =>
      have size := congrArg Array.size (quietly after)
      rcases does.captured with same | ⟨content, op, i, above, below, brought, inner, u, turn,
          rfl, rfl, invoked, whole, brings, more, directs, frames⟩
      · exact .inl (still (size.trans same))
      · refine .inr ⟨m, g, content, op, i, above, below, brought, inner, u, rest, turn, stack,
          signal, invoked, whole, brings, directs, size.trans more, ?_, ?_⟩
        · rw [Store.frames_of_conts (quietly after), frames]
        · have received := Config.received?_machine stack signal
          simp [captured?, received, Machine.received?, invoked, stepped, size.trans more]

end Config

/-- What a machine captures is not empty. -/
theorem Machine.Directs.above_ne_nil {i : Invocation} {k : Cont} {above below : List Val}
    {turn : Turn Phase} (directs : Directs i k above below turn) (some_frame : above ++ below ≠ []) :
    above ≠ [] := by
  cases directs with
  | owner effect clause captured unowned => simp [captured]
  | outward id whole unowned => simpa [whole] using some_frame

namespace Caught

theorem unused_step (caught : Caught trace c) (tended : Tended trace c) (poising : Poising trace c) (tidy : Tidy trace c)
    (faithful : Faithful trace c) (stepped : c.step = .ok d) {k : Cont} {i : Invocation}
    (unused : Unused (c :: trace) d k) (captured : (k.index, i) ∈ Trace.captured (c :: trace)) :
    ∃ id g t fs, d.world.store.frames k = .frame (.generator (.gen g) t) :: fs ∧
      Poised (c :: trace) d (.invocation id i) g := by
  have ordered := tended.ordered
  have active := ordered.active
  have shift := ordered.toStanding.shift tidy.toGenuine stepped
  by_cases old : k.index < c.world.store.conts.size
  · have before : (k.index, i) ∈ trace.captured := by
      rcases Trace.mem_captured_cons.1 captured with now | before
      · rcases Config.conts_of_step shift stepped with ⟨-, none_now⟩ | ⟨_, _, _, _, _, _, _, _, _, _, _,
          _, -, -, -, -, -, -, -, -, here⟩
        · simp [none_now] at now
        · have same := congrArg Prod.fst (Option.some.inj (here.symm.trans now))
          exact absurd same.symm (Nat.ne_of_lt old)
      · exact before
    have kept : Unused trace c k := by
      rcases unused with pending | ⟨q, asked, rfl⟩
      · exact .inl (Config.isTaken_before stepped old pending)
      · rcases Trace.mem_outstanding_cons asked with now | asked
        · exact .inl (Config.requested?_eq_some now).2
        · exact .inr ⟨q, asked, rfl⟩
    obtain ⟨id, g, t, fs, frames, poised⟩ := caught.unused k i kept before
    refine ⟨id, g, t, fs, (shift.frames_eq ordered.sound ordered.seated old).trans frames, ?_⟩
    have buried : Buried trace c (.frame (.generator (.gen g) t)) :=
      .slices kept (by simp [frames])
    exact poised.step active tended.recorded tidy stepped
      fun h j asked => buried.unasked ordered tidy.toOrderly asked
  · have now : c.captured? = some (k.index, i) :=
      (Trace.mem_captured_cons.1 captured).resolve_right fun before => old (caught.known _ _ before)
    rcases Config.conts_of_step shift stepped with ⟨-, none_now⟩ | ⟨m, g, content, op, i', above,
        below, brought, inner, u, rest, turn, stack, signal, invoked, whole, brings, directs, -,
        frames, here⟩
    · simp [none_now] at now
    rw [here] at now
    obtain ⟨same, rfl⟩ : c.world.store.conts.size = k.index ∧ i' = i := by simpa using now
    have whole_slice : d.world.store.frames k = brought ++ above := by
      rw [← frames]
      simp [Store.frames, same]
    have received := (Config.received?_machine stack signal).trans
      (rfl : Machine.received? (.advancing content) (.yielded op) = some op)
    cases brings with
    | invocation id i =>
        cases invoked
        obtain ⟨g', m', h, t, under, rest', stack', -, top, yields⟩ :=
          ordered.toStanding.received received
        rw [stack] at stack'
        cases stack'
        rw [whole] at top
        obtain ⟨v, above', rfl⟩ := List.exists_cons_of_ne_nil
          (directs.above_ne_nil (by rw [top]; simp))
        cases top
        refine ⟨id, h, t, above', whole_slice, ?_⟩
        exact (poising.yielded h _ yields).step active tended.recorded tidy stepped (by simp [signal])
    | resend id e args j context pending =>
        cases invoked
        obtain ⟨j', same', captured'⟩ := caught.resent id _ (faithful.resent id _ received)
        obtain rfl : j = j' := Val.cont.inj same'
        obtain ⟨id', h, t, fs, slice, poised⟩ := caught.unused j _ (.inl pending) captured'
        refine ⟨id', h, t, fs ++ above, by rw [whole_slice, slice]; rfl, ?_⟩
        exact poised.step active tended.recorded tidy stepped (by simp [signal])

theorem resent_step (caught : Caught trace c) (standing : Standing trace c) (genuine : Genuine trace c)
    (stepped : c.step = .ok d) {id : Nat} {q : Resend} (resent : (id, q) ∈ Trace.resends (c :: trace)) :
    ∃ k, q.cont = .cont k ∧
      (k.index, ⟨q.effect, q.args, q.context⟩) ∈ Trace.captured (c :: trace) := by
  rcases Trace.mem_resends_cons.1 resent with now | before
  · obtain ⟨g, m, p, r, how, p', rest, stack, signal, turn⟩ := Config.resends?_eq_some now
    have shift := standing.shift genuine stepped
    have mem : Activation.running g (.library (.machine m p)) ∈ c.stack := by simp [stack]
    obtain ⟨_, -, ran, -⟩ := standing.seated.machine mem rfl
    obtain ⟨t, moved, made, does, followed⟩ := standing.sound.follows standing.seated stack signal stepped
    rw [made] at turn
    subst turn
    obtain ⟨content, op, i, brought, inner, u, rfl, rfl, invoked, -, -, rfl, frames, -⟩ :=
      does.resends standing.sound.own (standing.sound.ran m _ ran)
    have received := (Config.received?_machine stack signal).trans
      (rfl : Machine.received? (.advancing content) (.yielded op) = some op)
    obtain ⟨_, _, _, _, under, _, stack', -, top, -⟩ := standing.received received
    rw [stack] at stack'
    cases stack'
    refine ⟨_, rfl, Trace.mem_captured_cons.2 (.inl ?_)⟩
    rcases Config.conts_of_step shift stepped with ⟨same, -⟩ | ⟨m', g', content', op', i', _, _, _, _,
        _, rest', _, stack', signal', invoked', -, -, -, -, -, here⟩
    · have there : (t.frames ⟨c.world.store.conts.size, inner.isSome⟩) ≠ [] := by
        rw [frames, top]
        simp
      obtain ⟨v, vs, slice⟩ := List.exists_cons_of_ne_nil there
      have inside := Store.lt_of_head (congrArg List.head? slice)
      have size := congrArg Array.size (Store.conts_of_engine followed.quiet.engine)
      rw [same] at size
      exact absurd inside (by simp [← size])
    · rw [signal] at signal'
      cases signal'
      obtain rfl : i = i' := Option.some.inj (invoked.symm.trans invoked')
      cases i
      exact here
  · obtain ⟨k, same, captured⟩ := caught.resent id q before
    exact ⟨k, same, Trace.mem_captured_cons.2 (.inr captured)⟩

theorem step (caught : Caught trace c) (tended : Tended trace c) (poising : Poising trace c)
    (tidy : Tidy trace c) (faithful : Faithful trace c) (stepped : c.step = .ok d) :
    Caught (c :: trace) d := by
  have standing := tended.ordered.toStanding
  have growth := Config.conts_of_step (standing.shift tidy.toGenuine stepped) stepped
  have grows : c.world.store.conts.size ≤ d.world.store.conts.size := by
    rcases growth with ⟨same, -⟩ | ⟨_, _, _, _, _, _, _, _, _, _, _, _, -, -, -, -, -, -, more, -⟩
    · exact Nat.le_of_eq same.symm
    · omega
  refine ⟨fun n i captured => ?_, fun n inside => ?_, fun k i unused captured => ?_,
    fun id q resent => ?_⟩
  · rcases Trace.mem_captured_cons.1 captured with now | before
    · rcases growth with ⟨-, none_now⟩ | ⟨_, _, _, _, _, _, _, _, _, _, _, _, -, -, -, -, -, -, more,
        -, here⟩
      · simp [none_now] at now
      · have same := congrArg Prod.fst (Option.some.inj (here.symm.trans now))
        simp only at same
        omega
    · exact Nat.lt_of_lt_of_le (caught.known n i before) grows
  · rcases growth with ⟨same, -⟩ | ⟨_, _, _, _, i, _, _, _, _, _, _, _, -, -, -, -, -, -, more, -, here⟩
    · obtain ⟨i, before⟩ := caught.made n (same ▸ inside)
      exact ⟨i, Trace.mem_captured_cons.2 (.inr before)⟩
    · by_cases old : n < c.world.store.conts.size
      · obtain ⟨i, before⟩ := caught.made n old
        exact ⟨i, Trace.mem_captured_cons.2 (.inr before)⟩
      · obtain rfl : n = c.world.store.conts.size := by omega
        exact ⟨i, Trace.mem_captured_cons.2 (.inl here)⟩
  · exact caught.unused_step tended poising tidy faithful stepped unused captured
  · exact caught.resent_step standing tidy.toGenuine stepped resent

end Caught

theorem RunOf.caught (run : RunOf Neat trace c) : Caught trace c := by
  induction run with
  | start fresh => exact .of_fresh fresh
  | @step trace c d before neat stepped ih =>
      have tidy := before.mono fun _ _ neat => neat.toTidy
      exact ih.step tidy.tended tidy.poising neat.toTidy neat.toFaithful stepped

end OneShot
