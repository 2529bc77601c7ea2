import OneShot.Proofs.Split.Dispatching

/-!
# What machines get from the generators on top

What the generator on top of a stack yields is an escape, which the machine passes on, an
invocation or a request, or what no machine can make use of; then it closes the generator.
-/

namespace OneShot.Split

open Config (Reaches)
open List (Forall₂)
open Machine (Phase receive settle)

variable {c : Code} {J K : Joint} {w w' : World (guest c)} {S T : List (Activation (guest c))} {g h d e : Gen} {m m' : Nat}
  {tail : List Val} {v v' : Val}

/-- Machines stay where they are if others make a turn. -/
theorem Drives.stay (D : Drives J g m S h m' T tail) (keeps : J.Keeps K (fun _ => False) fun _ => False) :
    Drives K g m S h m' T tail := by
  cases D with
  | joined pair runs runs' heard rest =>
      exact .joined (Names.gens_mono keeps.names pair) (keeps.runs _ _ runs) (keeps.runs' _ _ runs') heard
        (rest.keep keeps fun _ _ => id)
  | split splits heard rest =>
      have driven := Drives.split (splits.keep keeps id) heard (rest.keep keeps fun _ _ => id)
      rwa [keeps.seam] at driven

/-! ## Escapes -/

/-- An escape suspends what runs the machines. -/
theorem Drives.escapes (D : Drives J g m S h m' T tail) (W : Worlds J w w') (busy : Busy w S g) (tops : J.Tops m m' tail)
    (i j : Nat) (alike : Alike J.names v v') :
    Meets J.lone (Machine.turned w g m S (w.store, .ask (.yield (.escape i v) .direct) .escaped))
      (Machine.turned w' h m' T (w'.store, .ask (.yield (.escape j v') .direct) .escaped)) := by
  cases D with
  | joined pair runs runs' heard rest =>
      exact (Corresponds.joint J (W.setStatus pair (.suspended .direct (.machine runs runs' (.escaped tops)))) rest
        (.reply (.yielded (.escape i j alike)) fun _ _ => heard)).meets
  | @split S T tail splits heard rest =>
      have there : J.place ≠ .absent := by simp [splits.live]
      let waits : Status (guest c) := .suspended (machine J.seam.inner .escaped) .direct
      -- the lower machine passes on what the upper one has passed on
      have passed : Config.step (Machine.turned w J.seam.relay J.seam.inner
          (.running J.seam.nested (machine J.seam.outer (.advancing (.gen J.seam.relay))) :: S)
          (w.store, .ask (.yield (.escape i v) .direct) .escaped)) =
          .ok (Machine.turned (w.setStatus J.seam.relay waits) J.seam.nested J.seam.outer S
            (w.store, .ask (.yield (.escape i v) .direct) .escaped)) := rfl
      refine Meets.before (fun alone => there (W.lone alone)) (.one passed) (.refl _) (Corresponds.meets ?_)
      have W₁ := W.setRelay waits there (fun _ => busy.beneath List.mem_cons_self) (by simp [splits.live, Place.Holds])
        (by simp [splits.live])
      have here : (w.setStatus J.seam.relay waits).status J.seam.relay = waits := World.status_setStatus (W.relay there).1 _
      exact .joint J (W₁.setStatus splits.pair (.splitEscaped rfl rfl ⟨tail, splits, .escaped tops⟩ here)) rest
        (.reply (.yielded (.escape i j alike)) fun _ _ => heard)

/-! ## Requests -/

/-- What was captured comes onto the stacks again. -/
theorem Drives.requests (D : Drives J g m S h m' T tail) (W : Worlds J w w') (busy : Busy w S g) (busy' : Busy w' T h)
    (tops : J.Tops m m' tail) {k l : Cont} {u u' : Val} (value : Alike J.names v v') (error : Alike J.names u u')
    (slices : J.Slices (J.place = .flight) k l) (x y : Val) (a b : Nat) :
    Corresponds J.lone (Machine.turned w g m S (receive w.store m x (.resumption a ⟨.cont k, v, u⟩)))
      (Machine.turned w' h m' T (receive w'.store m' y (.resumption b ⟨.cont l, v', u'⟩))) := by
  obtain ⟨gs, stack', topped⟩ := tops
  let t := w.store.setStack m (w.store.frames k ++ w.store.stack m)
  let t' := w'.store.setStack m' (w'.store.frames l ++ w'.store.stack m')
  have set : Restacks w.store t m _ none := D.restacks W rfl _
  have set' : Restacks w'.store t' m' _ none := D.restacks' W rfl _
  obtain ⟨P, here, stays, moves⟩ : ∃ P, (J.place = .flight ∨ J.place = .stack m → P = .stack m) ∧
      (J.place = .live → P = .live) ∧ J.Moves (J.turns g) t P := by
    by_cases flight : J.place = .flight
    · refine ⟨.stack m, fun _ => rfl, fun live => absurd (flight.symm.trans live) (by simp), .leaves ?_ (.inl trivial) ?_ ?_ ?_⟩
      · simp [flight, Place.Holds]
      all_goals simp [flight]
    · exact ⟨J.place, fun here => here.resolve_left flight, id, .stays rfl⟩
  obtain ⟨W', D'⟩ := D.sets W busy busy' set set' moves fun live => .inl (stays live)
  have pushed : (J.after P J.names t t').Tops m m' tail := by
    refine ⟨w'.store.frames l ++ gs, ?_, ?_⟩
    · refine set'.sets.stack_eq.trans ?_
      rw [W.store', stack', List.append_assoc]
    · show Topped _ _ _ (t.stack m) _
      rw [set.sets.stack_eq, W.store, W.store']
      have both := Topped.append slices topped.spread fun flight stack => absurd (flight.symm.trans stack) (by simp)
      exact both.mono (le_refl _) here
  have receives (s : Store) (m : Nat) (x : Val) (a : Nat) (k : Cont) {v u : Val} (failing : u ≠ .none) :
      receive s m x (.resumption a ⟨.cont k, v, u⟩) = settle (s.setStack m (s.frames k ++ s.stack m)) m (.failed u) := by
    cases u <;> first | rfl | exact absurd rfl failing
  rcases error.none? with ⟨rfl, rfl⟩ | ⟨failing, failing'⟩
  · have settled := D'.settles_topped W' busy busy' pushed (.ok value)
    rw [turned_store, turned_store] at settled
    exact settled
  · have settled := D'.settles_topped W' busy busy' pushed (.failed error)
    rw [turned_store, turned_store] at settled
    rw [receives _ _ _ _ _ failing, receives _ _ _ _ _ failing']
    exact settled

/-! ## Generators that are taken off -/

/-- The generators on top are taken off. -/
theorem Drives.pops (D : Drives J g m S h m' T tail) (W : Worlds J w w') (busy : Busy w S g) (busy' : Busy w' T h)
    (tops : J.Tops m m' tail) : ∃ t t', (∀ next, Machine.popThen w.store m next = next t) ∧
      (∀ next, Machine.popThen w'.store m' next = next t') ∧ Worlds (J.on t t') { w with store := t } { w' with store := t' } ∧
        Drives (J.on t t') g m S h m' T tail ∧ (J.on t t').Stands m m' tail := by
  obtain ⟨gs, stack', topped⟩ := tops
  rw [← W.store] at topped
  rw [← W.store'] at stack'
  generalize stack : w.store.stack m = fs at topped
  cases topped with
  | @intro d e fs gs t u pair rest =>
      have set := D.restacks W (u := w.store) rfl fs
      have set' := D.restacks' W (u := w'.store) rfl (gs ++ tail)
      obtain ⟨W', D'⟩ := D.sets W busy busy' set set' (.stays rfl) .inl
      refine ⟨_, _, fun next => ?_, fun next => ?_, W', D', gs, set'.sets.stack_eq, ?_⟩
      · simp only [Machine.popThen, stack]
      · simp only [Machine.popThen, stack', List.cons_append]
      · show Spread _ _ _ (Store.stack (w.store.setStack m fs) m) _
        rw [set.sets.stack_eq]
        exact rest

/-- What no machine can make use of has its generator closed. -/
theorem Drives.discards (D : Drives J g m S h m' T tail) (W : Worlds J w w') (busy : Busy w S g) (busy' : Busy w' T h)
    (tops : J.Tops m m' tail) (pair : J.names.gens d e) (alike : Alike J.names v v') :
    Corresponds J.lone
      (Machine.turned w g m S (Machine.popThen w.store m fun s => (s, .ask (.closing (.gen d)) (.discarding v))))
      (Machine.turned w' h m' T (Machine.popThen w'.store m' fun s => (s, .ask (.closing (.gen e)) (.discarding v')))) := by
  obtain ⟨t, t', popped, popped', W', D', stands⟩ := D.pops W busy busy' tops
  rw [popped, popped']
  exact .joint (J.on t t') W' (D'.waits (.discarding alike stands) ⟨nofun, nofun⟩) (.close pair)

/-! ## What is yielded -/

/-- What was resent from above is dispatched. -/
theorem Drives.redispatches (D : Drives J g m S h m' T tail) (W : Worlds J w w') (busy : Busy w S g) (busy' : Busy w' T h)
    (tops : J.Tops m m' tail) (x y : Val) (a b : Nat) (i : Nat) {as bs : Arguments} {k l : Cont}
    (args : Forall₂ (Alike J.names) as.values bs.values) (pair : J.names.conts k l) (pending : w.store.isTaken k = false)
    (place : Memo.placeOf v = Memo.placeOf v') :
    Meets J.lone (Machine.turned w g m S (receive w.store m x (.resend a ⟨.effect (effect i), as, .cont k, v⟩)))
      (Machine.turned w' h m' T (receive w'.store m' y (.resend b ⟨.effect (effect i), bs, .cont l, v'⟩))) := by
  obtain ⟨W', keeps⟩ := W.takes pair (p := .flight) (.inl trivial) (rfl : (w.store.take k).1.engine = _) (rfl : (w'.store.take l).1.engine = _)
  have slices := (W.slices_take pair pending .flight).keep keeps pair id
  have met := (D.stay keeps).dispatches W' busy busy' (tops.keep keeps D.runs.1 D.runs.2 id id) (.some pair slices) i args place
  have receives {s : Store} {k : Cont} (pending : s.isTaken k = false) (m : Nat) (x : Val) (a : Nat) (as : Arguments) (v : Val) :
      receive s m x (.resend a ⟨.effect (effect i), as, .cont k, v⟩) =
        Machine.dispatch (s.take k).1 m (.effect (effect i)) as v (some k) := by
    simp only [receive]
    rw [take_pending pending]
  rw [receives pending, receives ((W.conts k l pair).1 ▸ pending)]
  rw [turned_store, turned_store] at met
  exact met

/-- What the generators on top have yielded. -/
theorem Drives.receives (D : Drives J g m S h m' T tail) (W : Worlds J w w') (busy : Busy w S g) (busy' : Busy w' T h)
    (tops : J.Tops m m' tail) (pair : J.names.gens d e) (alike : ReplyAlike J (.yielded v) (.yielded v')) :
    Meets J.lone (Machine.turned w g m S (receive w.store m (.gen d) v))
      (Machine.turned w' h m' T (receive w'.store m' (.gen e) v')) := by
  cases alike with
  | request a b conts value error slices =>
      exact (D.requests W busy busy' tops value error slices (.gen d) (.gen e) a b).meets
  | resent a b i args conts pending place =>
      exact D.redispatches W busy busy' tops (.gen d) (.gen e) a b i args conts (W.store ▸ pending) place
  | yielded alike =>
      cases alike with
      | escape i j action => exact D.escapes W busy tops i j action
      | invocation a b i length args place =>
          exact D.dispatches W busy busy' tops .none i (forall₂_of_zip length args) place
      | none => exact (D.discards W busy busy' tops pair .none).meets
      | bool b => exact (D.discards W busy busy' tops pair (.bool b)).meets
      | int i => exact (D.discards W busy busy' tops pair (.int i)).meets
      | str s => exact (D.discards W busy busy' tops pair (.str s)).meets
      | function j => exact (D.discards W busy busy' tops pair (.function j)).meets
      | identity => exact (D.discards W busy busy' tops pair .identity).meets
      | effect i => exact (D.discards W busy busy' tops pair (.effect i)).meets
      | handler l => exact (D.discards W busy busy' tops pair (.handler l)).meets
      | gen other => exact (D.discards W busy busy' tops pair (.gen other)).meets
      | cont other => exact (D.discards W busy busy' tops pair (.cont other)).meets
      | error kind plain plain' length args =>
          exact (D.discards W busy busy' tops pair (.error kind plain plain' length args)).meets
      | worded plain plain' text text' =>
          exact (D.discards W busy busy' tops pair (.worded plain plain' text text')).meets
      | failure kind other caused caused' object =>
          exact (D.discards W busy busy' tops pair (.failure kind other caused caused' object)).meets

end OneShot.Split
