import OneShot.Proofs.Split.Driving

/-!
# Outcomes that are delivered in two runs

What is delivered to the stacks of machines that go together is answered alike.  The
relay hands it on to what is below, and so does the upper machine when it has nothing
more to do: the lower one goes on with it.
-/

namespace OneShot.Split

open Config (Reaches)
open List (Forall₂)
open Machine (Phase deliver settle)

variable {c : Code} {J K : Joint} {w w' : World (guest c)} {S T : List (Activation (guest c))} {g h : Gen} {m m' : Nat}
  {tail left left' : List Val} {p q : Phase} {turn turn' : Turn Phase} {o o' : Outcome} {r : Reply}

theorem settle_of {s : Store} (delivered : deliver s o (s.stack m) = (s, left, turn)) :
    settle s m o = (s.setStack m left, turn) := by
  simp only [settle, delivered]

/-- The turn of a machine tells what the store is. -/
theorem turned_store (w : World (guest c)) (s : Store) (g : Gen) (m : Nat) (S : List (Activation (guest c))) (r : Store × Turn Phase) :
    Machine.turned { w with store := s } g m S r = Machine.turned w g m S r := rfl

/-! ## Outcomes that are handed on -/

namespace Outcome.Passes

/-- A machine ends with an outcome. -/
theorem finishes (passes : Outcome.Passes o r) (w : World (guest c)) (S : List (Activation (guest c))) (g : Gen) (m : Nat) :
    Machine.turned w g m S (w.store, o.finish) = Config.reply (w.setStatus g .finished) S r := by
  cases passes with
  | ok v => rfl
  | failed caught unstopped =>
      simp only [Machine.turned, Outcome.finish, Turn.raiseValue, Turn.map, Config.turnOf, Config.leave, if_neg unstopped]

/-- A machine goes on with that of the generator on top. -/
theorem pops (passes : Outcome.Passes o r) {f : Val} {fs : List Val} (stack : w.store.stack m = f :: fs) (g : Gen) (v : Val)
    (S : List (Activation (guest c))) : Config.step ⟨w, .running g (machine m (.advancing v)) :: S, .reply r⟩ =
      .ok (Machine.turned { w with store := w.store.setStack m fs } g m S (settle (w.store.setStack m fs) m o)) := by
  rw [show Config.step ⟨w, .running g (machine m (.advancing v)) :: S, .reply r⟩ = _ from
    Machine.step_activation w g m (.advancing v) S r]
  cases passes with
  | ok v => simp only [Machine.step, Machine.finished, Machine.popThen, stack, Machine.turned]
  | failed caught unstopped =>
      simp only [Machine.step, if_neg unstopped, Machine.broken, if_pos caught, Machine.popThen, stack, Machine.fail,
        Machine.turned]

/-- A machine that has resent everything hands on what it gets. -/
theorem relays (passes : Outcome.Passes o r) (empty : w.store.stack m = []) (g : Gen) (S : List (Activation (guest c))) :
    Config.step ⟨w, .running g (machine m .resent) :: S, .reply r⟩ = .ok (Config.reply (w.setStatus g .finished) S r) := by
  have settled : settle w.store m o = (w.store, o.finish) := by
    have delivered : deliver w.store o (w.store.stack m) = (w.store, [], o.finish) := by
      rw [empty]
      rfl
    rw [settle_of delivered, Store.setStack_of_empty empty]
  rw [show Config.step ⟨w, .running g (machine m .resent) :: S, .reply r⟩ = _ from Machine.step_activation w g m .resent S r,
    ← passes.finishes w S g m, ← settled]
  cases passes with
  | ok v => rfl
  | failed caught unstopped => simp only [Machine.step, Machine.fail, if_pos caught]

end Outcome.Passes

/-- A generator that waits is told of an outcome that it is advanced with. -/
theorem Outcome.Tells.resumes (tells : Outcome.Tells o r) {p : Routine (guest c)} {how : Suspension}
    (waits : w.status g = .suspended p how) (inside : how ≠ .pause) (S : List (Activation (guest c))) :
    Config.advance w S g o.input = Config.reply (w.setStatus g .running) (.running g p :: S) r := by
  cases tells with
  | ok v => exact advance_suspended w S waits v
  | failed x => simp only [Outcome.input, Config.advance, waits, Config.thrownInto, inside, false_and, if_false]

/-- A generator that waits as the relay does hands on what the machine below advances it with. -/
theorem Outcome.Passes.through (passes : Outcome.Passes o r) {d : Gen} {i : Nat}
    (waits : w.status d = .suspended (machine i .resent) .inner) (empty : w.store.stack i = []) {f : Val} {fs : List Val}
    (stack : w.store.stack m = f :: fs) (g : Gen) (v : Val) (S : List (Activation (guest c))) :
    Reaches 3 ⟨w, .running g (machine m (.advancing v)) :: S, .advance d o.input⟩
      (Machine.turned { w.setStatus d .finished with store := w.store.setStack m fs } g m S
        (settle (w.store.setStack m fs) m o)) := by
  have resumed := passes.tells.resumes waits nofun (.running g (machine m (.advancing v)) :: S)
  refine .step (Config.step_advance' w _ _ _) (resumed ▸ ?_)
  have ended := passes.relays (w := w.setStatus d .running) (m := i) empty d (.running g (machine m (.advancing v)) :: S)
  rw [World.setStatus_setStatus] at ended
  refine .step ended (.one ?_)
  exact passes.pops (w := w.setStatus d .finished) stack g v S

/-! ## Outcomes that are answered -/

namespace Drives

/-- Machines ask for something on behalf of the frames on top of their stacks. -/
theorem asks (D : Drives J g m S h m' T tail) (W : Worlds J w w')
    (alike : AsksAlike J.names J.seam.relay (J.place = .stack m) left left' turn turn') (stack : w.store.stack m = left)
    (stack' : w'.store.stack m' = left' ++ tail) :
    Corresponds J.lone (Machine.turned w g m S (w.store, turn)) (Machine.turned w' h m' T (w'.store, turn')) := by
  rw [W.store] at stack
  rw [W.store'] at stack'
  cases alike with
  | call alike value left =>
      exact .joint J W (D.waits (.calling ⟨_, stack', stack ▸ left⟩) ⟨nofun, nofun⟩) (.call .machine alike (.cons value .nil))
  | advance pair alike left =>
      exact .joint J W (D.waits (.advancing pair ⟨_, stack', stack ▸ left⟩) ⟨nofun, nofun⟩) (.advance pair alike (.of_head trivial))

/-- What is delivered is answered by a frame. -/
theorem answers (D : Drives J g m S h m' T tail) (W : Worlds J w w') (busy : Busy w S g) (busy' : Busy w' T h)
    (first : deliver w.store o (w.store.stack m) = (w.store, left, turn))
    (second : deliver w'.store o' (w'.store.stack m') = (w'.store, left' ++ tail, turn'))
    (alike : AsksAlike J.names J.seam.relay (J.place = .stack m) left left' turn turn') :
    Corresponds J.lone (Machine.turned w g m S (settle w.store m o)) (Machine.turned w' h m' T (settle w'.store m' o')) := by
  rw [settle_of first, settle_of second]
  have set := D.restacks W (u := w.store) rfl left
  have set' := D.restacks' W (u := w'.store) rfl (left' ++ tail)
  obtain ⟨W', D'⟩ := D.sets W busy busy' set set' (.stays rfl) .inl
  exact D'.asks W' alike set.sets.stack_eq set'.sets.stack_eq

end Drives

/-! ## Outcomes that nothing is left for -/

theorem Worlds.finishes (W : Worlds J w w') (layout : Stacks J S T) (pair : J.names.gens g h) (alike : OutcomeAlike J.names o o')
    (m m' : Nat) : Corresponds J.lone (Machine.turned w g m S (w.store, o.finish)) (Machine.turned w' h m' T (w'.store, o'.finish)) := by
  cases alike with
  | ok alike => exact W.turned_done layout (.generator pair) alike
  | failed alike =>
      rcases alike.exc? with ⟨x, x', rfl, rfl, alike⟩ | ⟨other, other'⟩
      · exact W.turned_raise layout (.generator pair) alike
      · have fault {v : Val} (other : ∀ x, v ≠ .exc x) : Turn.raiseValue (σ := Phase) v = .fault .notRaisable := by
          cases v <;> first | rfl | exact absurd rfl (other _)
        simp only [Outcome.finish, fault other, fault other']
        exact W.turned_fault layout (.generator pair) (.same rfl)

/-- Machines each with a generator of its own end with what is delivered. -/
theorem Drives.ends (D : Drives J g m S h m' T tail) (W : Worlds J w w') (busy : Busy w S g) (busy' : Busy w' T h)
    (pair : J.names.gens g h) (alike : OutcomeAlike J.names o o')
    (first : deliver w.store o (w.store.stack m) = (w.store, [], o.finish))
    (second : deliver w'.store o' (w'.store.stack m') = (w'.store, [], o'.finish)) :
    Corresponds J.lone (Machine.turned w g m S (settle w.store m o)) (Machine.turned w' h m' T (settle w'.store m' o')) := by
  rw [settle_of first, settle_of second]
  obtain ⟨W', D'⟩ := D.sets W busy busy' (D.restacks W rfl []) (D.restacks' W rfl []) (.stays rfl) .inl
  exact W'.finishes (D'.layout W' pair) pair alike m m'

/-- Machines each with a generator of its own go on with what is delivered, above all that may be the relay. -/
theorem Worlds.settles_frames (W : Worlds J w w') (busy : Busy w S g) (busy' : Busy w' T h) (pair : J.names.gens g h)
    (runs : J.runs m = some g.id) (runs' : J.runs' m' = some h.id) (heard : Heard S) (layout : Stacks J S T)
    (alike : OutcomeAlike J.names o o') {fs : List Val}
    (frames : Forall₂ (FrameAlike J.names) (w.store.stack m) fs) (delivered : ∀ s, deliver s o' (w'.store.stack m') = deliver s o' fs) :
    Corresponds J.lone (Machine.turned w g m S (settle w.store m o)) (Machine.turned w' h m' T (settle w'.store m' o')) := by
  have D : Drives J g m S h m' T [] := .joined pair runs runs' heard layout
  cases (Spread.of_frames frames : Spread J.names J.seam.relay False _ _).delivery alike [] with
  | asks first second alike =>
      refine D.answers W busy busy' (first _) ?_ (alike.mono False.elim)
      rw [delivered, ← second, List.append_nil]
  | relay never => exact never.elim
  | ended first second =>
      refine D.ends W busy busy' pair alike (first _) ?_
      rw [delivered, ← List.append_nil fs, second]
      rfl

theorem setStack_twice {s : Store} (own : s.Own) (inside : m < s.machines.size) (left left' : List Val) :
    (s.setStack m left).setStack m left' = s.setStack m left' := by
  obtain ⟨owner, there⟩ := own.machine inside
  exact Store.setStack_setStack there left left'

/-- The relay hands on what is delivered to it, and is not found again. -/
theorem Worlds.settles_relay (W : Worlds J w w') (busy : Busy w S g) (busy' : Busy w' T h) (pair : J.names.gens g h)
    (runs : J.runs m = some g.id) (runs' : J.runs' m' = some h.id) (heard : Heard S) (layout : Stacks J S T)
    (alike : OutcomeAlike J.names o o') (passes : Outcome.Passes o r) (here : J.place = .stack m) {t : Tag} {fs fs' : List Val}
    (first : ∀ s, deliver s o (w.store.stack m) =
      (s, genFrame J.seam.relay t :: fs, .ask (.advance J.seam.relay o.input) (.advancing (.gen J.seam.relay))))
    (second : ∀ s, deliver s o' (w'.store.stack m') = deliver s o' fs') (below : Forall₂ (FrameAlike J.names) fs fs') :
    Meets J.lone (Machine.turned w g m S (settle w.store m o)) (Machine.turned w' h m' T (settle w'.store m' o')) := by
  have there : J.place ≠ .absent := by simp [here]
  have relays := W.holds (by simp [here, Place.Holds])
  have D : Drives J g m S h m' T [] := .joined pair runs runs' heard layout
  have apart : J.seam.inner ≠ m := by
    intro same
    have both := (same ▸ relays.inner).symm.trans runs
    exact (W.relay there).2.2 _ _ pair (Option.some.inj both).symm
  let u := w.store.setStack m (genFrame J.seam.relay t :: fs)
  have before : Restacks w.store u m (genFrame J.seam.relay t :: fs) none := D.restacks W rfl _
  have empty : u.stack J.seam.inner = [] := (before.sets.others _ apart).trans (W.store ▸ relays.empty)
  have reached := passes.through (w := { w with store := u }) relays.waits empty before.sets.stack_eq g (.gen J.seam.relay) S
  rw [settle_of (first _)]
  refine Meets.before (fun alone => there (W.lone alone)) reached (.refl _) ?_
  have set := D.restacks W (u := w.store) rfl fs
  have moves : J.Moves (J.turns g) (w.store.setStack m fs) .lost := by
    refine .leaves (by simp [here, Place.Holds]) (.inr rfl) (fun n i ran found => .inl ?_)
      (fun i found => absurd (here.symm.trans found) (by simp)) fun k l _ found => absurd (here.symm.trans found) (by simp)
    cases here.symm.trans found
    exact Option.some.inj (ran.symm.trans runs)
  obtain ⟨W₁, D₁⟩ := D.sets W busy busy' set (.refl W.own' m') moves fun live => absurd (here.symm.trans live) (by simp)
  have W₂ := W₁.setRelay .finished (by simp [Joint.after]) (by simp [Joint.after]) (by simp [Joint.after, Place.Holds]) fun _ => .inr rfl
  have same : u.setStack m fs = w.store.setStack m fs := setStack_twice W.own (W.runs _ _ runs) _ _
  rw [same]
  have idle := Running.not_mem busy relays.waits (by simp)
  exact (W₂.settles_frames (Running.set busy idle (by simp)) busy' pair runs runs' heard (D₁.layout W₁ pair) alike
    (set.sets.stack_eq.symm ▸ below) second).meets

/-- What the upper machine ends with is delivered to the lower one, which then goes with the machine that has all. -/
theorem Worlds.settles_below (W : Worlds J w w') (splits : Splits J tail) (heard : Heard S) (layout : Stacks J S T)
    (busy : Busy w (.running J.seam.nested (machine J.seam.outer (.advancing (.gen J.seam.relay))) :: S) J.seam.relay)
    (busy' : Busy w' T J.seam.flat) (alike : OutcomeAlike J.names o o') (passes : Outcome.Passes o r)
    (first : ∀ s, deliver s o (w.store.stack J.seam.inner) = (s, [], o.finish))
    (second : ∀ s, deliver s o' (w'.store.stack J.seam.whole) = deliver s o' tail) :
    Meets J.lone (Machine.turned w J.seam.relay J.seam.inner
        (.running J.seam.nested (machine J.seam.outer (.advancing (.gen J.seam.relay))) :: S) (settle w.store J.seam.inner o))
      (Machine.turned w' J.seam.flat J.seam.whole T (settle w'.store J.seam.whole o')) := by
  have there : J.place ≠ .absent := by simp [splits.live]
  have D := Drives.split splits heard layout
  let S₁ : List (Activation (guest c)) := .running J.seam.nested (machine J.seam.outer (.advancing (.gen J.seam.relay))) :: S
  have set : Restacks w.store (w.store.setStack J.seam.inner []) J.seam.inner [] none := D.restacks W rfl []
  obtain ⟨W₁, D₁⟩ := D.sets W busy busy' set (.refl W.own' _) (.stays rfl) .inl
  obtain ⟨S₀, same, -, -, -, splits₁, heard₁, layout₁⟩ := D₁.above W₁ splits.live rfl
  obtain ⟨-, rfl⟩ := List.cons.inj same
  obtain ⟨t, fs, stack, below⟩ := splits₁.below
  have W₂ := W₁.setRelay .finished there (fun _ => busy.beneath List.mem_cons_self) (by simp [Joint.after, splits.live, Place.Holds])
    fun _ => .inr rfl
  let u : World (guest c) := { w with store := w.store.setStack J.seam.inner [] }
  have ended : Machine.turned w J.seam.relay J.seam.inner S₁ (u.store, o.finish) =
      Config.reply (u.setStatus J.seam.relay .finished) S₁ r := passes.finishes u S₁ _ _
  rw [settle_of (first _), ended]
  have reached := passes.pops (w := u.setStatus J.seam.relay .finished) stack J.seam.nested (.gen J.seam.relay) S
  refine Meets.before (fun alone => there (W.lone alone)) (.one reached) (.refl _) ?_
  have apart_relay := Drives.apart_relay W splits.pair splits.live
  have D₂ : Drives _ J.seam.nested J.seam.outer S J.seam.flat J.seam.whole T [] :=
    .joined splits₁.pair splits₁.outer splits₁.whole heard₁ layout₁
  have busy₂ := Running.pop busy (t := .finished) (by simp)
  have set₂ := D₂.restacks W₂ rfl fs
  obtain ⟨W₃, D₃⟩ := D₂.sets W₂ busy₂ busy' set₂ (.refl W₂.own' _) (P := .lost) (.settles splits.live (by simp) (.inl rfl)) fun _ =>
    .inr ⟨apart_relay, rfl, World.status_setStatus (W.relay there).1 _⟩
  exact (W₃.settles_frames busy₂ busy' splits₁.pair splits₁.outer splits₁.whole heard₁ (D₃.layout W₃ splits₁.pair) alike
    (set₂.sets.stack_eq.symm ▸ below) second).meets

/-- What is delivered to the stacks of two machines that go together. -/
theorem Drives.settles (D : Drives J g m S h m' T tail) (W : Worlds J w w') (busy : Busy w S g) (busy' : Busy w' T h)
    (stands : J.Stands m m' tail) (alike : OutcomeAlike J.names o o') (passes : Outcome.Passes o r) :
    Meets J.lone (Machine.turned w g m S (settle w.store m o)) (Machine.turned w' h m' T (settle w'.store m' o')) := by
  obtain ⟨gs, stack', spread⟩ := stands
  rw [← W.store] at spread
  rw [← W.store'] at stack'
  cases spread.delivery alike tail with
  | asks first second alike => exact (D.answers W busy busy' (first _) (by rw [stack', second]) alike).meets
  | relay here first second below =>
      cases D with
      | joined pair runs runs' heard rest =>
          exact W.settles_relay busy busy' pair runs runs' heard rest alike passes here first (stack' ▸ second)
            ((List.append_nil _).symm ▸ below)
      | split splits heard rest => exact absurd (splits.live.symm.trans here) nofun
  | ended first second =>
      cases D with
      | joined pair runs runs' heard rest =>
          refine ((Drives.joined pair runs runs' heard rest).ends W busy busy' pair alike (first _) ?_).meets
          rw [stack', second]
          rfl
      | split splits heard rest => exact W.settles_below splits heard rest busy busy' alike passes first (stack' ▸ second)

/-- What is delivered to the generators on top of the stacks of two machines that go together. -/
theorem Drives.settles_topped (D : Drives J g m S h m' T tail) (W : Worlds J w w') (busy : Busy w S g) (busy' : Busy w' T h)
    (tops : J.Tops m m' tail) (alike : OutcomeAlike J.names o o') :
    Corresponds J.lone (Machine.turned w g m S (settle w.store m o)) (Machine.turned w' h m' T (settle w'.store m' o')) := by
  obtain ⟨gs, stack', topped⟩ := tops
  rw [← W.store] at topped
  rw [← W.store'] at stack'
  obtain ⟨turn, turn', first, second, asked⟩ := topped.asks alike tail
  exact D.answers W busy busy' (first _) (by rw [stack', second]) asked

end OneShot.Split
