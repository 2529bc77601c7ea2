import OneShot.Proofs.Frames.Ownership
import OneShot.Proofs.Frames.Starting

/-!
# What stands in a run

The invariants of runs, put together: first those that hold if a program builds
nothing by hand, then those that hold if it also hands each generator over once.
What a machine receives was yielded by the generator on top of its stack, by itself
or by what that delegates to.
-/

namespace OneShot

variable {G : Guest} {rule : Trace G → Config G → Prop} {trace : Trace G} {c d : Config G}

/-- A generator has just suspended with a value, by itself or by what it delegates to. -/
inductive Yields : Trace G → Gen → Val → Prop
  | itself {trace : Trace G} {c : Config G} {g : Gen} {p p' : Routine G} {r : Reply}
      {rest : List (Activation G)} {v : Val} {how : Suspension}
      (stack : c.stack = .running g p :: rest) (signal : c.signal = .reply r)
      (turn : (p.step c.world r).2 = .ask (.yield v how) p') : Yields (c :: trace) g v
  | relayed {trace : Trace G} {c : Config G} {g i : Gen} {p : Routine G}
      {rest : List (Activation G)} {v : Val} (inner : Yields trace i v)
      (stack : c.stack = .relaying g p i :: rest) (signal : c.signal = .reply (.yielded v)) :
      Yields (c :: trace) g v

/-- What holds all along a genuine run, whatever is handed over and advanced. -/
structure Standing (trace : Trace G) (c : Config G) : Prop where
  seated : Seated trace c
  sound : Sound trace c
  active : c.Active
  aligned : Aligned trace c
  yields : ∀ g v, trace.Yielded g v → Yields trace g v

theorem Aligned.yields (aligned : Aligned trace c)
    (before : ∀ g v, trace.Yielded g v → Yields trace g v) (g : Gen) (v : Val)
    (yielded : Trace.Yielded (c :: trace) g v) : Yields (c :: trace) g v := by
  obtain ⟨c', rest, same, suspended⟩ := yielded
  cases same
  unfold Config.yields? at suspended
  split at suspended
  · rename_i g' p below r stack signal
    split at suspended
    · rename_i turn
      cases suspended
      exact .itself stack signal turn
    · contradiction
  · rename_i g' p i below v' stack signal
    cases suspended
    rcases aligned.asked _ i (congrArg List.head? stack) rfl with ⟨-, j, asked⟩ | ⟨r, replied, yielded⟩
    · rw [signal] at asked
      contradiction
    · rw [signal] at replied
      cases replied
      exact .relayed (before i _ (yielded _ rfl)) stack signal
  · contradiction

theorem Standing.shift (standing : Standing trace c) (genuine : Genuine trace c)
    (stepped : c.step = .ok d) : Shift c d :=
  Config.shift_step standing.seated genuine (standing.sound.turning standing.seated)
    (Config.moves_step stepped)

theorem Standing.of_fresh (fresh : c.Fresh) : Standing [] c := by
  refine ⟨.of_fresh fresh, .of_fresh fresh, .of_fresh fresh, .of_fresh fresh, fun g v h => ?_⟩
  obtain ⟨c', rest, same, -⟩ := h
  contradiction

theorem Standing.step (standing : Standing trace c) (genuine : Genuine trace c)
    (stepped : c.step = .ok d) : Standing (c :: trace) d := by
  obtain ⟨seated, sound, active, aligned, yields⟩ := standing
  have moves := Config.moves_step stepped
  exact {
    seated := seated.step genuine (sound.turning seated) moves
    sound := sound.step seated genuine (Config.shift_step seated genuine (sound.turning seated) moves)
    active := active.step moves
    aligned := aligned.step seated sound active genuine moves
    yields := aligned.yields yields }

theorem RunOf.standing (genuine : ∀ trace c, rule trace c → Genuine trace c)
    (run : RunOf rule trace c) : Standing trace c := by
  induction run with
  | start fresh => exact .of_fresh fresh
  | step before obeys stepped ih => exact ih.step (genuine _ _ obeys) stepped

/-- What a machine receives was yielded by the generator on top of its stack. -/
theorem Standing.received (standing : Standing trace c) {op : Val} (here : c.received? = some op) :
    ∃ g m i t below rest, c.stack = .running g (.library (.machine m (.advancing (.gen i)))) :: rest ∧
      c.signal = .reply (.yielded op) ∧
      c.world.store.stack m = .frame (.generator (.gen i) t) :: below ∧ Yields trace i op := by
  unfold Config.received? at here
  split at here
  · rename_i a rest r stack signal
    obtain ⟨⟨m, p⟩, machine, got⟩ := Option.bind_eq_some_iff.1 here
    have mem : a ∈ c.stack := by simp [stack]
    obtain ⟨g, rfl, -, tame, -⟩ := standing.seated.machine mem machine
    cases p with
    | advancing content =>
        cases r with
        | yielded v =>
            cases got
            obtain ⟨i, t, below, rfl, top⟩ := standing.aligned.held _ mem m _ rfl
            refine ⟨g, m, i, t, below, rest, stack, signal, top, ?_⟩
            rcases standing.aligned.asked _ i (congrArg List.head? stack) rfl with
              ⟨-, j, asked⟩ | ⟨r, replied, yielded⟩
            · rw [signal] at asked
              contradiction
            · rw [signal] at replied
              cases replied
              exact standing.yields i _ (yielded _ rfl)
        | _ => contradiction
    | throwing content => exact absurd rfl (tame content)
    | _ => contradiction
  · contradiction

/-! ## Runs in order -/

/-- What holds all along a run that is in order. -/
structure Ordered (trace : Trace G) (c : Config G) : Prop extends Standing trace c where
  owning : Owning trace c
  starting : Starting trace c
  apart : ∀ i ∈ trace.framed, i ∉ trace.advanced

/-- What is advanced other than for a machine is never framed. -/
theorem Orderly.apart (orderly : Orderly trace c)
    (apart : ∀ i ∈ trace.framed, i ∉ trace.advanced) :
    ∀ i ∈ Trace.framed (c :: trace), i ∉ Trace.advanced (c :: trace) := by
  intro i framed advanced
  rcases Trace.mem_advanced_cons advanced with ⟨g, now, rfl⟩ | before
  · rcases Trace.mem_framed_cons framed with ⟨h, framed, same⟩ | framed
    · -- a step that frames acts on a reply
      obtain ⟨w, stack, signal⟩ := c
      cases signal <;> cases stack <;> contradiction
    · exact orderly.advanced g now framed
  · rcases Trace.mem_framed_cons framed with ⟨h, now, rfl⟩ | framed
    · exact (orderly.framed h now).2.2 before
    · exact apart i framed before

theorem Ordered.of_fresh (fresh : c.Fresh) : Ordered [] c :=
  ⟨.of_fresh fresh, .of_fresh fresh, .of_fresh fresh, by simp [Trace.framed]⟩

theorem Ordered.step (ordered : Ordered trace c) (orderly : Orderly trace c)
    (stepped : c.step = .ok d) : Ordered (c :: trace) d where
  toStanding := ordered.toStanding.step orderly.toGenuine stepped
  owning := ordered.owning.step ordered.seated orderly.handed stepped
  starting := ordered.starting.step ordered.aligned ordered.seated ordered.sound orderly.toGenuine
    (fun g framed => (orderly.framed g framed).1) stepped
  apart := orderly.apart ordered.apart

theorem RunOf.ordered (orderly : ∀ trace c, rule trace c → Orderly trace c)
    (run : RunOf rule trace c) : Ordered trace c := by
  induction run with
  | start fresh => exact .of_fresh fresh
  | step before obeys stepped ih => exact ih.step (orderly _ _ obeys) stepped

end OneShot
