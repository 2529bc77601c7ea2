import OneShot.Proofs.Refusal
import OneShot.Script.Session
import Mathlib.Data.List.Nodup
import Mathlib.Data.List.Perm.Subperm

/-!
# Threads

Several threads share a world.  A schedule says which of them makes the next
step of the kernel; a take is part of one step, so that schedules are all the
interleavings of attempts to take a continuation.  Main statement: of all
attempts to take a pending continuation the first one succeeds and every other
one is refused, without an effect on anything but the thread that made it.
-/

namespace OneShot

variable {G : Guest}

/-! ## Schedules -/

/-- Each thread knows for itself whether an event loop runs its code. -/
structure Thread (G : Guest) where
  stack : List (Activation G)
  signal : Signal
  looping : Bool

structure Pool (G : Guest) where
  world : World G
  threads : List (Thread G)

/-- One step of a thread. -/
structure Move (G : Guest) where
  thread : Nat
  before : Config G
  after : Config G

def Thread.config (t : Thread G) (w : World G) : Config G :=
  ⟨{ w with store := { w.store with looping := t.looping } }, t.stack, t.signal⟩

def Config.thread (c : Config G) : Thread G := ⟨c.stack, c.signal, c.world.store.looping⟩

namespace Pool

/-- The next step of a thread, unless it has ended. -/
def move? (p : Pool G) (i : Nat) : Option (Move G) :=
  p.threads[i]?.bind fun t =>
    match (t.config p.world).step with
    | .ok d => some ⟨i, t.config p.world, d⟩
    | .error _ => none

def apply (p : Pool G) (m : Move G) : Pool G :=
  ⟨m.after.world, p.threads.set m.thread m.after.thread⟩

/-- The steps that are made under a schedule; a thread that has ended makes none. -/
def moves : Pool G → List Nat → List (Move G)
  | _, [] => []
  | p, i :: schedule =>
      match p.move? i with
      | some m => m :: (p.apply m).moves schedule
      | none => p.moves schedule

def run : Pool G → List Nat → Pool G
  | p, [] => p
  | p, i :: schedule =>
      match p.move? i with
      | some m => (p.apply m).run schedule
      | none => p.run schedule

theorem move?_eq_some {p : Pool G} {i : Nat} {m : Move G} (h : p.move? i = some m) :
    m.before.world.store.conts = p.world.store.conts ∧ m.before.step = .ok m.after := by
  simp only [move?, Option.bind_eq_some_iff] at h
  obtain ⟨t, -, h⟩ := h
  split at h
  · rename_i d stepped
    cases h
    exact ⟨rfl, stepped⟩
  · contradiction

end Pool

/-- The steps of a run that takes one store to another. -/
inductive History : Store → List (Move G) → Store → Prop
  | nil (s : Store) : History s [] s
  | cons {s t : Store} {m : Move G} {moves : List (Move G)}
      (here : m.before.world.store.conts = s.conts) (stepped : m.before.step = .ok m.after)
      (rest : History m.after.world.store moves t) : History s (m :: moves) t

theorem Pool.history (p : Pool G) (schedule : List Nat) :
    History p.world.store (p.moves schedule) (p.run schedule).world.store := by
  induction schedule generalizing p with
  | nil => exact .nil _
  | cons i schedule ih =>
      simp only [moves, run]
      cases made : p.move? i with
      | none => exact ih p
      | some m =>
          obtain ⟨here, stepped⟩ := move?_eq_some made
          exact .cons here stepped (ih (p.apply m))

/-! ## Verdicts -/

/-- What becomes of an attempt. -/
inductive Verdict where
  | won
  | lost
  deriving DecidableEq, Repr

namespace Move

/-- What becomes of an attempt to take a continuation, if the step is one. -/
def verdict? (k : Cont) (m : Move G) : Option Verdict :=
  if m.before.attempt?.any (·.index == k.index) then
    some (if m.after.signal.refuses k then .lost else .won)
  else none

def verdicts (k : Cont) (moves : List (Move G)) : List Verdict := moves.filterMap (verdict? k)

theorem verdict?_eq_some {k : Cont} {m : Move G} {v : Verdict} (h : m.verdict? k = some v) :
    ∃ j, m.before.attempt? = some j ∧ j.index = k.index ∧
      v = if m.after.signal.refuses k then .lost else .won := by
  simp only [verdict?] at h
  split at h
  · rename_i attempted
    rw [Option.any_eq_true] at attempted
    obtain ⟨j, attempt, same⟩ := attempted
    cases h
    exact ⟨j, attempt, by simpa using same, rfl⟩
  · contradiction

theorem isTaken_of_no_verdict {k : Cont} {m : Move G} (stepped : m.before.step = .ok m.after)
    (h : m.verdict? k = none) (here : k.index < m.before.world.store.conts.size) :
    m.after.world.store.isTaken k = m.before.world.store.isTaken k := by
  have taking := (Config.takes_step stepped).taken k here
  simp only [verdict?] at h
  split at h
  · contradiction
  · rename_i other
    simpa [other] using taking

theorem isTaken_of_verdict {k : Cont} {m : Move G} (stepped : m.before.step = .ok m.after)
    {v : Verdict} (h : m.verdict? k = some v) (here : k.index < m.before.world.store.conts.size) :
    m.after.world.store.isTaken k = true := by
  obtain ⟨j, attempt, same, -⟩ := verdict?_eq_some h
  have taking := (Config.takes_step stepped).taken k here
  rw [taking, attempt]
  simp [same]

theorem isTaken_of_isTaken {k : Cont} {m : Move G} (stepped : m.before.step = .ok m.after)
    (taken : m.before.world.store.isTaken k = true)
    (here : k.index < m.before.world.store.conts.size) :
    m.after.world.store.isTaken k = true := by
  rw [(Config.takes_step stepped).taken k here, taken]
  rfl

/-- What is pending is won by whoever attempts to take it. -/
theorem verdict_of_pending {k : Cont} {m : Move G} (stepped : m.before.step = .ok m.after)
    (pending : m.before.world.store.isTaken k = false) {v : Verdict}
    (h : m.verdict? k = some v) : v = .won := by
  obtain ⟨j, attempt, same, rfl⟩ := verdict?_eq_some h
  rw [← Store.isTaken_of_index same] at pending
  rw [if_neg]
  simp [Config.not_refused_of_pending stepped attempt pending]

/-- What is taken is lost to whoever attempts to take it. -/
theorem verdict_of_isTaken {k : Cont} {m : Move G} (stepped : m.before.step = .ok m.after)
    (taken : m.before.world.store.isTaken k = true) {v : Verdict}
    (h : m.verdict? k = some v) :
    v = .lost ∧ ∃ j, m.before.attempt? = some j ∧ j.index = k.index ∧
      m.after = m.before.refusal j := by
  obtain ⟨j, attempt, same, rfl⟩ := verdict?_eq_some h
  rw [← Store.isTaken_of_index same] at taken
  have refused : m.after = m.before.refusal j :=
    Except.ok.inj (stepped.symm.trans (Config.step_of_isTaken attempt taken))
  refine ⟨?_, j, attempt, same, refused⟩
  rw [refused, Config.refuses_refusal, if_pos (by simp [same])]

end Move

namespace History

variable {s t : Store} {k : Cont} {moves : List (Move G)}

theorem verdicts_of_isTaken (h : History s moves t) (here : k.index < s.conts.size)
    (taken : s.isTaken k = true) :
    t.isTaken k = true ∧ ∃ n, Move.verdicts k moves = List.replicate n .lost := by
  induction h with
  | nil s => exact ⟨taken, 0, rfl⟩
  | @cons s t m moves same stepped rest ih =>
      rw [← Store.isTaken_of_conts same] at taken
      rw [← same] at here
      have grows := (Config.takes_step stepped).grows
      obtain ⟨after, n, later⟩ :=
        ih (by omega) (Move.isTaken_of_isTaken stepped taken here)
      refine ⟨after, ?_⟩
      simp only [Move.verdicts, List.filterMap_cons] at later ⊢
      cases verdict : m.verdict? k with
      | none => exact ⟨n, later⟩
      | some v =>
          obtain ⟨rfl, -⟩ := Move.verdict_of_isTaken stepped taken verdict
          exact ⟨n + 1, by rw [later]; rfl⟩

/-- The first attempt is won and all others are lost. -/
theorem verdicts_of_pending (h : History s moves t) (pending : s.isTaken k = false) :
    (Move.verdicts k moves = [] ∧ t.isTaken k = false) ∨
      ((∃ n, Move.verdicts k moves = .won :: List.replicate n .lost) ∧ t.isTaken k = true) := by
  induction h with
  | nil s => exact .inl ⟨rfl, pending⟩
  | @cons s t m moves same stepped rest ih =>
      rw [← Store.isTaken_of_conts same] at pending
      have here := Store.lt_of_pending pending
      have grows := (Config.takes_step stepped).grows
      simp only [Move.verdicts, List.filterMap_cons]
      cases verdict : m.verdict? k with
      | none =>
          exact ih (by rw [Move.isTaken_of_no_verdict stepped verdict here, pending])
      | some v =>
          have taken := Move.isTaken_of_verdict stepped verdict here
          obtain ⟨after, n, later⟩ := rest.verdicts_of_isTaken (by omega) taken
          cases Move.verdict_of_pending stepped pending verdict
          exact .inr ⟨⟨n, congrArg _ later⟩, after⟩

end History

end OneShot
