import OneShot.Proofs.Split.Beside

/-!
# What a turn leaves alone

A turn of two corresponding runs is one of certain generators.  It may name new
generators, continuations and machines; the stacks of the machines that others run stay
as they are, and so does the place of the relay, if it is one that others tell of.
-/

namespace OneShot.Split

open List (Forall₂)
open Machine (Phase)

variable {c : Code} {J K L : Joint} {own own' : Nat → Prop}

/-- Some generators of the one run and those that correspond to them; the relay goes with what runs the lower machine. -/
structure Joint.Seats (J : Joint) (own own' : Nat → Prop) : Prop where
  pairs : ∀ g h, J.names.gens g h → ¬own g.id → ¬own' h.id
  relay : J.place ≠ .absent → own J.seam.relay.id → J.place = .live ∧ own J.seam.nested.id

/-- From `J` to `K` only the generators that are their own have made a turn. -/
structure Joint.Keeps (J K : Joint) (own own' : Nat → Prop) : Prop where
  seats : J.Seats own own'
  seam : K.seam = J.seam
  names : J.names ≤ K.names
  runs : ∀ m i, J.runs m = some i → K.runs m = some i
  runs' : ∀ m i, J.runs' m = some i → K.runs' m = some i
  onStacks : ∀ m i, J.runs m = some i → ¬own i → K.store.stack m = J.store.stack m
  onStacks' : ∀ m i, J.runs' m = some i → ¬own' i → K.store'.stack m = J.store'.stack m
  frames : ∀ k l, J.names.conts k l →
    K.store.frames k = J.store.frames k ∧ K.store'.frames l = J.store'.frames l
  stack : ∀ m i, J.runs m = some i → ¬own i → J.place = .stack m → K.place = .stack m
  asked : ∀ i, ¬own i → J.place = .asked i → K.place = .asked i
  lost : J.place = .lost → K.place = .lost
  live : J.place = .live → ¬own J.seam.nested.id → K.place = .live

theorem Joint.Seats.relay_apart (seats : J.Seats own own') (live : J.place = .live) (other : ¬own J.seam.nested.id) :
    ¬own J.seam.relay.id :=
  fun here => other (seats.relay (by simp [live]) here).2

namespace Joint

theorem Slices.keep {here there : Prop} {k l : Cont} (h : J.Slices here k l) (keeps : J.Keeps K own own')
    (pair : J.names.conts k l) (allowed : here → there) : K.Slices there k l := by
  unfold Slices at h ⊢
  obtain ⟨same, same'⟩ := keeps.frames k l pair
  rw [same, same', keeps.seam]
  exact h.mono keeps.names allowed

variable {m m' i i' : Nat} {tail : List Val}

theorem Stands.keep (h : J.Stands m m' tail) (keeps : J.Keeps K own own') (runs : J.runs m = some i)
    (runs' : J.runs' m' = some i') (other : ¬own i) (other' : ¬own' i') : K.Stands m m' tail := by
  obtain ⟨fs, same, spread⟩ := h
  refine ⟨fs, (keeps.onStacks' m' i' runs' other').trans same, ?_⟩
  rw [keeps.onStacks m i runs other, keeps.seam]
  exact spread.mono keeps.names (keeps.stack m i runs other)

theorem Tops.keep (h : J.Tops m m' tail) (keeps : J.Keeps K own own') (runs : J.runs m = some i)
    (runs' : J.runs' m' = some i') (other : ¬own i) (other' : ¬own' i') : K.Tops m m' tail := by
  obtain ⟨fs, same, topped⟩ := h
  refine ⟨fs, (keeps.onStacks' m' i' runs' other').trans same, ?_⟩
  rw [keeps.onStacks m i runs other, keeps.seam]
  exact topped.mono keeps.names (keeps.stack m i runs other)

end Joint

theorem Resident.keep {m m' i i' : Nat} {tail : List Val} {p q : Phase} (h : Resident J m m' tail p q)
    (keeps : J.Keeps K own own') (runs : J.runs m = some i) (runs' : J.runs' m' = some i') (other : ¬own i)
    (other' : ¬own' i') : Resident K m m' tail p q := by
  cases h with
  | start stands => exact .start (stands.keep keeps runs runs' other other')
  | calling stands => exact .calling (stands.keep keeps runs runs' other other')
  | advancing pair tops =>
      exact .advancing (Names.gens_mono keeps.names pair) (tops.keep keeps runs runs' other other')
  | escaped tops => exact .escaped (tops.keep keeps runs runs' other other')
  | discarding op stands => exact .discarding (op.mono keeps.names) (stands.keep keeps runs runs' other other')

theorem PlainAlike.keep {p q : Routine (guest c)} (h : PlainAlike J p q) (keeps : J.Keeps K own own') :
    PlainAlike K p q := by
  cases h with
  | code s => exact .code s
  | looking s v => exact .looking s v
  | discarding s pair slices =>
      exact .discarding s (Names.conts_mono keeps.names pair) (slices.keep keeps pair keeps.lost)
  | calling alike => exact .calling (alike.mono keeps.names)
  | converting => exact .converting
  | applying l t u alike => exact .applying l t u (alike.mono keeps.names)
  | applied l t u => exact .applied l t u
  | passing => exact .passing
  | closing contents =>
      refine .closing ?_
      rw [keeps.seam]
      exact contents.mono keeps.names keeps.lost

theorem RoutineAlike.keep {i i' : Nat} {p q : Routine (guest c)} (h : RoutineAlike J i i' p q)
    (keeps : J.Keeps K own own') (other : ¬own i) (other' : ¬own' i') : RoutineAlike K i i' p q := by
  cases h with
  | plain alike => exact .plain (alike.keep keeps)
  | asking a b pair value error slices =>
      exact .asking a b (Names.conts_mono keeps.names pair) (value.mono keeps.names) (error.mono keeps.names)
        (slices.keep keeps pair (keeps.asked i other))
  | machine runs runs' resident =>
      exact .machine (keeps.runs _ _ runs) (keeps.runs' _ _ runs') (resident.keep keeps runs runs' other other')
  | resent runs runs' empty empty' =>
      exact .resent (keeps.runs _ _ runs) (keeps.runs' _ _ runs') ((keeps.onStacks _ _ runs other).trans empty)
        ((keeps.onStacks' _ _ runs' other').trans empty')
  | closing runs runs' contents error =>
      refine .closing (keeps.runs _ _ runs) (keeps.runs' _ _ runs') ?_ (error.mono keeps.names)
      rw [keeps.seam]
      exact contents.mono keeps.names keeps.lost

theorem Splits.keep {tail : List Val} (h : Splits J tail) (keeps : J.Keeps K own own') (other : ¬own J.seam.nested.id) :
    Splits K tail := by
  obtain ⟨live, inner, outer, whole, pair, t, fs, stack, below⟩ := h
  have stack' := (keeps.onStacks _ _ outer other).trans stack
  refine ⟨keeps.live live other, ?_, ?_, ?_, ?_, t, fs, ?_, below.imp fun _ _ h => h.mono keeps.names⟩
  all_goals rw [keeps.seam]
  · exact keeps.runs _ _ inner
  · exact keeps.runs _ _ outer
  · exact keeps.runs' _ _ whole
  · exact Names.gens_mono keeps.names pair
  · exact stack'

theorem Spans.keep {p q : Phase} (h : Spans J p q) (keeps : J.Keeps K own own') (other : ¬own J.seam.nested.id) :
    Spans K p q := by
  obtain ⟨tail, splits, resident⟩ := h
  refine ⟨tail, splits.keep keeps other, ?_⟩
  rw [keeps.seam]
  exact resident.keep keeps splits.inner splits.whole (keeps.seats.relay_apart splits.live other)
    (keeps.seats.pairs _ _ splits.pair other)

theorem Sweeps.keep {p q r : Phase} (h : Sweeps J p q r) (keeps : J.Keeps K own own') (other : ¬own J.seam.nested.id) :
    Sweeps K p q r := by
  obtain ⟨live, inner, outer, whole, pair, vs, ws, vs', ws', x, y, z, rfl, rfl, rfl, exit, rest, below, error⟩ := h
  refine ⟨keeps.live live other, ?_, ?_, ?_, ?_, vs, ws, vs', ws', x, y, z, rfl, rfl, rfl, exit, ?_, ?_,
    error.mono keeps.names⟩
  all_goals rw [keeps.seam]
  · exact keeps.runs _ _ inner
  · exact keeps.runs _ _ outer
  · exact keeps.runs' _ _ whole
  · exact Names.gens_mono keeps.names pair
  · exact rest.mono keeps.names id
  · exact below.mono keeps.names id

theorem ActivationAlike.keep {a b : Activation (guest c)} (h : ActivationAlike J a b) (keeps : J.Keeps K own own')
    (other : ∀ g, a.active? = some g → ¬own g.id) : ActivationAlike K a b := by
  cases h with
  | calling alike => exact .calling (alike.keep keeps)
  | running pair alike =>
      have idle := other _ rfl
      exact .running (Names.gens_mono keeps.names pair) (alike.keep keeps idle (keeps.seats.pairs _ _ pair idle))
  | relaying s pair below =>
      exact .relaying s (Names.gens_mono keeps.names pair) (Names.gens_mono keeps.names below)
  | closing pair => exact .closing (Names.gens_mono keeps.names pair)
  | exiting s pair error => exact .exiting s (Names.gens_mono keeps.names pair) (error.mono keeps.names)

theorem Stacks.keep {S T : List (Activation (guest c))} (h : Stacks J S T) (keeps : J.Keeps K own own')
    (other : ∀ i ∈ active S, ¬own i) : Stacks K S T := by
  induction h with
  | nil => exact .nil
  | @cons a b S T top heard rest ih =>
      refine .cons (top.keep keeps fun g here => other _ ?_) heard (ih fun i mem => other i ?_)
      · simp [active_cons_of_some here]
      · cases here : a.active? with
        | none => rwa [active_cons_of_none here]
        | some g => exact active_cons_of_some here ▸ List.mem_cons_of_mem _ mem
  | split spans asks heard rest ih =>
      have kept := spans.keep keeps (other _ (List.mem_cons_of_mem _ List.mem_cons_self))
      have rest := ih fun i mem => other i (List.mem_cons_of_mem _ (List.mem_cons_of_mem _ mem))
      rw [← keeps.seam]
      exact .split kept asks heard rest
  | swept pair sweeps heard rest ih =>
      have kept := sweeps.keep keeps (other _ (List.mem_cons_of_mem _ List.mem_cons_self))
      have rest := ih fun i mem => other i (List.mem_cons_of_mem _ (List.mem_cons_of_mem _ mem))
      rw [← keeps.seam]
      exact .swept (Names.gens_mono keeps.names pair) kept heard rest

theorem StatusAlike.keep {relay s t : Status (guest c)} {g h : Gen} (alike : StatusAlike J relay g h s t)
    (keeps : J.Keeps K own own') (pair : J.names.gens g h) (other : ¬own g.id) : StatusAlike K relay g h s t := by
  have other' := keeps.seats.pairs _ _ pair other
  cases alike with
  | fresh alike => exact .fresh (alike.keep keeps other other')
  | suspended how alike => exact .suspended how (alike.keep keeps other other')
  | delegating s below => exact .delegating s (Names.gens_mono keeps.names below)
  | running => exact .running
  | finished => exact .finished
  | splitFresh nested flat spans fresh =>
      subst nested flat
      have kept := spans.keep keeps other
      rw [← keeps.seam] at fresh ⊢
      exact .splitFresh rfl rfl kept fresh
  | splitEscaped nested flat spans escaped =>
      subst nested flat
      have kept := spans.keep keeps other
      rw [← keeps.seam] at escaped ⊢
      exact .splitEscaped rfl rfl kept escaped

end OneShot.Split
