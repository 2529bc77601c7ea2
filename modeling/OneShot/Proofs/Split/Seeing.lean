import OneShot.Proofs.Remembering
import OneShot.Proofs.Frames.Sweeping
import OneShot.Proofs.Split.Stepping

/-!
# What is seen of a run

All that can be seen of a run is what code is run with: which function is called, or which
code goes on, what it gets to see then, and in what order.  A run that ends is seen to end,
with what its reply would tell code.  Runs that correspond are seen to be the same, also if
they never end.
-/

namespace OneShot.Split

open Config (Reaches)

variable {c : Code} {C C' D D' : Config (guest c)} {lone : Prop}

/-! ## Runs that keep meeting -/

/-- Where runs that are related meet again after each step, what one of them comes to leads to where both meet. -/
theorem follows {G G' : Guest} {P : Config G → Config G' → Prop}
    (meets : ∀ {C : Config G} {C' : Config G'} {D : Config G}, P C C' → C.step = .ok D →
      ∃ i j E E', Reaches i D E ∧ Reaches j C' E' ∧ P E E')
    {C D : Config G} {C' : Config G'} {n : Nat} (related : P C C') (reached : Reaches n C D) :
    ∃ i j E E', Reaches i D E ∧ Reaches j C' E' ∧ P E E' := by
  induction n using Nat.strong_induction_on generalizing C C' with
  | _ n ih =>
      cases reached with
      | refl => exact ⟨0, 0, _, C', .refl _, .refl C', related⟩
      | @step n _ C₁ _ first rest =>
          obtain ⟨i, j, E, E', there, there', related⟩ := meets related first
          rcases Nat.le_total n i with before | after
          · exact ⟨i - n, j, E, E', rest.rest there before, there', related⟩
          · obtain ⟨k, l, F, F', later, later', related⟩ := ih (n - i) (by omega) related (there.rest rest after)
            exact ⟨k, j + l, F, F', later, there'.trans later', related⟩

/-! ## Logs -/

namespace Memo

variable (m : Memo c)

@[simp] theorem log_know (v : Val) : (m.know v).1.log = m.log := by
  unfold know
  split <;> rfl

@[simp] theorem log_see (v : Val) : (m.see v).1.log = m.log := by
  unfold see
  split <;> simp

@[simp] theorem log_seeAll (vs : List Val) : (m.seeAll vs).1.log = m.log := by
  induction vs generalizing m with
  | nil => rfl
  | cons v vs ih => rw [seeAll, ih, log_see]

@[simp] theorem log_view (v : Val) : (m.view v).1.log = m.log := by
  unfold view
  repeat' split
  all_goals simp

@[simp] theorem log_answer (r : Reply) : (m.answer r).1.log = m.log := by
  unfold answer
  split <;> simp

theorem log_run (s : c.State) (a : Answer) : m.log <+: (Body.run m s a).1.log := List.prefix_append _ _

theorem log_step (b : Body c) (r : Reply) : m.log <+: (Body.step m b r).1.log := by
  have answered (s : c.State) : m.log <+: (Body.run (m.answer r).1 s (m.answer r).2).1.log := by
    have run := log_run (m.answer r).1 s (m.answer r).2
    rwa [log_answer] at run
  cases b with
  | code s => exact answered s
  | looking s v =>
      have run := log_run (m.view (m.item v)).1 s (.seen (m.view (m.item v)).2)
      rwa [log_view] at run
  | discarding s k =>
      cases r with
      | value v => exact List.prefix_refl _
      | _ => exact answered s

theorem log_enter (j : Nat) (args : List Val) : m.log <+: (enter m j args).1.log := by
  simp [enter]

end Memo

/-- What code has been run with so far. -/
def logOf (C : Config (guest c)) : List (Event c) := C.world.memory.log

/-- Logs grow. -/
theorem relates_log : Config.Relates (G := guest c) fun m m' => m.log <+: m'.log where
  refl _ := List.prefix_refl _
  trans := List.IsPrefix.trans
  enter := Memo.log_enter
  step := Memo.log_step

theorem log_of_reaches {n : Nat} (reached : Reaches n C D) : logOf C <+: logOf D := relates_log.of_reaches reached

/-! ## Views of runs -/

/-- On a run, code is run with all this. -/
def Shows (C : Config (guest c)) (log : List (Event c)) : Prop := ∃ n D, Reaches n C D ∧ log <+: logOf D

/-- A run comes to its end, where code has been run with all this and would be told `a`. -/
def Ends (C : Config (guest c)) (log : List (Event c)) (a : Answer) : Prop :=
  ∃ n w r, Reaches n C ⟨w, [], .reply r⟩ ∧ w.memory.log = log ∧ (w.memory.answer r).2 = a

/-- Two runs cannot be told apart. -/
structure SeenAlike (C C' : Config (guest c)) : Prop where
  shows : ∀ log, Shows C log ↔ Shows C' log
  ends : ∀ log a, Ends C log a ↔ Ends C' log a

/-! ## Runs that correspond -/

/-- Nothing misbehaves on the run. -/
def Tame (C : Config (guest c)) : Prop := ∀ n D, Reaches n C D → misbehaves D = false

theorem Tame.reaches {n : Nat} (tame : Tame C) (reached : Reaches n C D) : Tame D :=
  fun k E later => tame (n + k) E (reached.trans later)

/-- What a run comes to in `n` steps, if nothing has misbehaved before. -/
def comes : (n : Nat) → Config (guest c) → Option (Config (guest c))
  | 0, C => some C
  | n + 1, C => if misbehaves C then none else
      match C.step with
      | .ok D => comes n D
      | .error _ => none

theorem comes_succ {n : Nat} (h : comes (n + 1) C = some D) : misbehaves C = false ∧ ∃ C₁, C.step = .ok C₁ ∧ comes n C₁ = some D := by
  unfold comes at h
  split at h
  · cases h
  · rename_i ruly
    split at h
    · rename_i C₁ first
      exact ⟨Bool.not_eq_true _ ▸ ruly, C₁, first, h⟩
    · cases h

theorem reaches_of_comes {n : Nat} (h : comes n C = some D) : Reaches n C D := by
  induction n generalizing C with
  | zero =>
      cases h
      exact .refl _
  | succ n ih =>
      obtain ⟨-, C₁, first, rest⟩ := comes_succ h
      exact .step first (ih rest)

/-- A run that has come to its end is tame. -/
theorem tame_of_comes {n : Nat} {w : World (guest c)} {r : Reply} (h : comes n C = some ⟨w, [], .reply r⟩) : Tame C := by
  induction n generalizing C with
  | zero =>
      cases h
      rintro n D reached
      cases reached with
      | refl => rfl
      | step first => cases first
  | succ n ih =>
      obtain ⟨ruly, C₁, first, rest⟩ := comes_succ h
      rintro n D reached
      cases reached with
      | refl => exact ruly
      | step first' later =>
          cases first.symm.trans first'
          exact ih rest _ D later

/-- Where two runs are that correspond as long as they last. -/
structure Together (C C' : Config (guest c)) : Prop where
  corresponds : ∃ lone, Corresponds lone C C'
  active : C.Active
  active' : C'.Active
  tame : Tame C'

namespace Together

theorem progress (h : Together C C') : Over C C' ∨ ∃ D D', C.step = .ok D ∧ C'.step = .ok D' ∧
    ∃ i j E E', Reaches i D E ∧ Reaches j D' E' ∧ Together E E' := by
  obtain ⟨⟨lone, corresponds⟩, active, active', tame⟩ := h
  refine (corresponds.progress active active' (tame 0 C' (.refl C'))).imp id ?_
  rintro ⟨D, D', first, first', i, j, E, E', there, there', corresponds, -⟩
  have reached := Reaches.step first there
  have reached' := Reaches.step first' there'
  exact ⟨D, D', first, first', i, j, E, E', there, there', ⟨lone, corresponds⟩, Config.Active.reaches active reached,
    Config.Active.reaches active' reached', tame.reaches reached'⟩

theorem meets (h : Together C C') (first : C.step = .ok D) :
    ∃ i j E E', Reaches i D E ∧ Reaches j C' E' ∧ Together E E' := by
  rcases h.progress with ended | ⟨D, D', there, there', i, j, E, E', later, later', together⟩
  · cases ended
    cases first
  · cases there.symm.trans first
    exact ⟨i, j + 1, E, E', later, .step there' later', together⟩

theorem meets' (h : Together C C') (first : C'.step = .ok D') :
    ∃ i j E' E, Reaches i D' E' ∧ Reaches j C E ∧ Together E E' := by
  rcases h.progress with ended | ⟨D, D', there, there', i, j, E, E', later, later', together⟩
  · cases ended
    cases first
  · cases there'.symm.trans first
    exact ⟨j, i + 1, E', E, later', .step there later, together⟩

theorem log (h : Together C C') : logOf C = logOf C' := by
  obtain ⟨⟨lone, corresponds⟩, -⟩ := h
  cases corresponds with
  | joint J worlds | swept J worlds | discards J s caller worlds | refused J s worlds => exact worlds.memory.log

/-- Both runs come to their end, and their replies would tell code the same. -/
theorem ends {w : World (guest c)} {r : Reply} (h : Together ⟨w, [], .reply r⟩ C') :
    ∃ w' r', C' = ⟨w', [], .reply r'⟩ ∧ w.memory.log = w'.memory.log ∧ (w.memory.answer r).2 = (w'.memory.answer r').2 := by
  rcases h.progress with ended | ⟨D, D', first, -⟩
  · cases ended with
    | intro J worlds reply =>
        exact ⟨_, _, rfl, worlds.memory.log, (worlds.memory.answer worlds.fits.toOnce reply).2⟩
  · cases first

theorem ends' {w' : World (guest c)} {r' : Reply} (h : Together C ⟨w', [], .reply r'⟩) :
    ∃ w r, C = ⟨w, [], .reply r⟩ ∧ w.memory.log = w'.memory.log ∧ (w.memory.answer r).2 = (w'.memory.answer r').2 := by
  rcases h.progress with ended | ⟨D, D', -, first, -⟩
  · cases ended with
    | intro J worlds reply =>
        exact ⟨_, _, rfl, worlds.memory.log, (worlds.memory.answer worlds.fits.toOnce reply).2⟩
  · cases first

/-- Runs that correspond cannot be told apart. -/
theorem seen (h : Together C C') : SeenAlike C C' := by
  -- at its end, a run can only wait for the other one
  have last {w : World (guest c)} {r : Reply} {n : Nat} {E : Config (guest c)} (later : Reaches n ⟨w, [], .reply r⟩ E) :
      E = ⟨w, [], .reply r⟩ := by
    cases later with
    | refl => rfl
    | step first => cases first
  refine ⟨fun log => ⟨?_, ?_⟩, fun log a => ⟨?_, ?_⟩⟩
  · rintro ⟨n, D, reached, before⟩
    obtain ⟨i, j, E, E', later, reached', together⟩ := follows meets h reached
    exact ⟨j, E', reached', together.log ▸ before.trans (log_of_reaches later)⟩
  · rintro ⟨n, D', reached', before⟩
    obtain ⟨i, j, E', E, later, reached, together⟩ := follows (P := fun C' C => Together C C') meets' h reached'
    exact ⟨j, E, reached, together.log ▸ before.trans (log_of_reaches later)⟩
  · rintro ⟨n, w, r, reached, rfl, rfl⟩
    obtain ⟨i, j, E, E', later, reached', together⟩ := follows meets h reached
    cases last later
    obtain ⟨w', r', rfl, log, told⟩ := together.ends
    exact ⟨j, w', r', reached', log.symm, told.symm⟩
  · rintro ⟨n, w', r', reached', rfl, rfl⟩
    obtain ⟨i, j, E', E, later, reached, together⟩ := follows (P := fun C' C => Together C C') meets' h reached'
    cases last later
    obtain ⟨w, r, rfl, log, told⟩ := together.ends'
    exact ⟨j, w, r, reached, log, told⟩

end Together

end OneShot.Split
