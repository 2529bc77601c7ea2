import OneShot.Proofs.Split.Delivering

/-!
# Machines side by side

A machine of the first run goes with one of the second run: either each is run by its own
generator, or the machine of the first run is the upper one of two that stand for one.
What such machines do to their stacks leaves everything else as it is.
-/

namespace OneShot.Split

open Config (Reaches)
open List (Forall₂)
open Machine (Phase)


variable {c : Code} {J K : Joint} {w w' : World (guest c)} {S T : List (Activation (guest c))} {g h d e : Gen} {m m' : Nat}
  {tail : List Val} {p q : Phase}

/-- The machine `m` is run by `g` above `S`, and `m'` by `h` above `T`, with `tail` below. -/
inductive Drives (J : Joint) :
    Gen → Nat → List (Activation (guest c)) → Gen → Nat → List (Activation (guest c)) → List Val → Prop
  | joined {g h : Gen} {m m' : Nat} {S T : List (Activation (guest c))} (pair : J.names.gens g h) (runs : J.runs m = some g.id)
      (runs' : J.runs' m' = some h.id) (heard : Heard S) (rest : Stacks J S T) : Drives J g m S h m' T []
  | split {S T : List (Activation (guest c))} {tail : List Val} (splits : Splits J tail) (heard : Heard S)
      (rest : Stacks J S T) : Drives J J.seam.relay J.seam.inner
        (.running J.seam.nested (machine J.seam.outer (.advancing (.gen J.seam.relay))) :: S) J.seam.flat J.seam.whole T tail

/-- Whose turn it is with `g`: the relay runs on behalf of the lower machine as well. -/
def Joint.turns (J : Joint) (g : Gen) (i : Nat) : Prop :=
  i = g.id ∨ (g = J.seam.relay ∧ J.place = .live ∧ i = J.seam.nested.id)

/-- The lower machine is another one than the upper one. -/
theorem Splits.machines (splits : Splits J tail) (W : Worlds J w w') : J.seam.outer ≠ J.seam.inner := by
  intro same
  have both := splits.outer.symm.trans (same ▸ splits.inner)
  exact (W.relay (by simp [splits.live])).2.2 _ _ splits.pair (Option.some.inj both)

theorem settings_setStack (s : Store) (m : Nat) (frames : List Val) : (s.setStack m frames).settings = s.settings := by
  unfold Store.setStack
  split <;> rfl

/-- The machine `m` has got another stack, and there may be a new continuation; all else of the engine is as it was. -/
structure Restacks (s t : Store) (m : Nat) (left : List Val) (slice : Option (List Val)) : Prop where
  sets : Store.Sets s t m left slice
  takes : Store.Takes s t none
  settings : t.settings = s.settings

namespace Restacks

variable {s t u : Store} {left : List Val}

theorem refl (own : s.Own) (m : Nat) : Restacks s s m (s.stack m) none := ⟨.refl own m, .of_engine rfl, rfl⟩

theorem setStack (own : s.Own) (inside : m < s.machines.size) (same : u.engine = s.engine) (left : List Val) :
    Restacks s (u.setStack m left) m left none where
  sets := by
    have machines := Store.machines_of_engine same
    refine (Store.Sets.setStack (own.of_machines machines) (machines ▸ inside) left).before own machines
      (Store.frames_of_conts (Store.conts_of_engine same)) ?_
    rw [Store.conts_of_engine same]
  takes := .of_conts ((Machine.conts_setStack u m left).trans (Store.conts_of_engine same))
  settings := (settings_setStack u m left).trans (Store.settings_of_engine same)

/-- The new continuation may be taken at once. -/
theorem take {slice : Option (List Val)} (h : Restacks s t m left slice) {k : Cont} (new : s.conts.size ≤ k.index) :
    Restacks s (t.take k).1 m left slice where
  sets := by
    have machines := Store.machines_take t k
    refine ⟨h.sets.own.of_machines machines, (by rw [machines, h.sets.size]), ?_, fun i other => ?_, fun j => ?_⟩
    · rw [h.sets.own.stack_eq machines, h.sets.stack_eq]
    · rw [h.sets.own.stack_eq machines, h.sets.others i other]
    · rw [Store.frames_take, h.sets.frames]
  takes := by
    refine ⟨by rw [Store.size_take]; exact h.takes.grows, fun j inside => ?_⟩
    have other : k.index ≠ j.index := Nat.ne_of_gt (Nat.lt_of_lt_of_le inside new)
    rw [(Store.Takes.take t k).taken j (Nat.lt_of_lt_of_le inside h.takes.grows), h.takes.taken j inside]
    simp [other]
  settings := (settings_take t k).trans h.settings

end Restacks

namespace Drives

theorem runs (D : Drives J g m S h m' T tail) : J.runs m = some g.id ∧ J.runs' m' = some h.id := by
  cases D with
  | joined pair runs runs' heard rest => exact ⟨runs, runs'⟩
  | split splits heard rest => exact ⟨splits.inner, splits.whole⟩

/-- The machines wait for something that they have asked for. -/
theorem waits (D : Drives J g m S h m' T tail) (resident : Resident J m m' tail p q) (asks : p ≠ .start ∧ p ≠ .escaped) :
    Stacks J (.running g (machine m p) :: S) (.running h (machine m' q) :: T) := by
  cases D with
  | joined pair runs runs' heard rest => exact .cons (.running pair (.machine runs runs' resident)) (fun _ => heard) rest
  | split splits heard rest => exact .split ⟨_, splits, resident⟩ asks heard rest

theorem apart_relay (W : Worlds J w w') (pair : J.names.gens g h) (live : J.place = .live) : g ≠ J.seam.relay := by
  rintro rfl
  exact (W.relay (by simp [live])).2.2 _ _ pair rfl

/-- What is below machines each with a generator of its own. -/
theorem layout (D : Drives J g m S h m' T tail) (W : Worlds J w w') (pair : J.names.gens g h) : Stacks J S T := by
  cases D with
  | joined pair' runs runs' heard rest => exact rest
  | split splits heard rest => exact absurd rfl (apart_relay W pair splits.live)

theorem seats (D : Drives J g m S h m' T tail) (W : Worlds J w w') : J.Seats (J.turns g) (· = h.id) := by
  cases D with
  | joined pair runs runs' heard rest =>
      refine ⟨fun d e other idle same => idle (.inl ?_), fun there mine => ?_⟩
      · rw [(W.fits.gens other pair (.inr same)).1]
      · rcases mine with same | ⟨same, live, -⟩
        · exact absurd same.symm ((W.relay there).2.2 _ _ pair)
        · exact absurd same (apart_relay W pair live)
  | split splits heard rest =>
      refine ⟨fun d e other idle same => idle (.inr ⟨rfl, splits.live, ?_⟩), fun _ _ => ⟨splits.live, .inr ⟨rfl, splits.live, rfl⟩⟩⟩
      rw [(W.fits.gens other splits.pair (.inr same)).1]

theorem busy (D : Drives J g m S h m' T tail) (W : Worlds J w w') (busy : Busy w S g) (busy' : Busy w' T h)
    (d e : Gen) (pair : J.names.gens d e) (mine : J.turns g d.id) : w.status d = .running ∧ w'.status e = .running := by
  cases D with
  | joined pair' runs runs' heard rest =>
      rcases mine with same | ⟨same, live, -⟩
      · exact W.busy pair' busy.running busy'.running d e pair same
      · exact absurd same (apart_relay W pair' live)
  | split splits heard rest =>
      rcases mine with same | ⟨-, -, same⟩
      · exact absurd same ((W.relay (by simp [splits.live])).2.2 _ _ pair)
      · obtain ⟨rfl, rfl⟩ := W.fits.gens pair splits.pair (.inl same)
        exact ⟨busy.beneath List.mem_cons_self, busy'.running⟩

/-- They stay where they are, if only they have made a turn. -/
theorem keep (D : Drives J g m S h m' T tail) (W : Worlds J w w') (busy : Busy w S g) (keeps : J.Keeps K (J.turns g) (· = h.id))
    (split : Splits J tail → g = J.seam.relay → m = J.seam.inner →
      K.place = .live ∧ K.store.stack J.seam.outer = J.store.stack J.seam.outer) : Drives K g m S h m' T tail := by
  cases D with
  | joined pair runs runs' heard rest =>
      refine .joined (Names.gens_mono keeps.names pair) (keeps.runs _ _ runs) (keeps.runs' _ _ runs') heard
        (rest.keep keeps fun i mem mine => ?_)
      rcases mine with rfl | ⟨same, live, -⟩
      · exact busy.apart mem
      · exact absurd same (apart_relay W pair live)
  | @split S T tail splits heard rest =>
      have rest' := rest.keep keeps fun i mem mine => by
        rcases mine with rfl | ⟨-, -, rfl⟩
        · exact busy.apart (List.mem_cons_of_mem _ mem)
        · exact (List.nodup_cons.1 (List.nodup_cons.1 busy.once).2).1 mem
      obtain ⟨live', kept⟩ := split splits rfl rfl
      obtain ⟨live, inner, outer, whole, pair, t, fs, stack, below⟩ := splits
      have splits' : Splits K tail := by
        refine ⟨live', ?_, ?_, ?_, ?_, t, fs, ?_, below.imp fun _ _ h => h.mono keeps.names⟩
        all_goals rw [keeps.seam]
        · exact keeps.runs _ _ inner
        · exact keeps.runs _ _ outer
        · exact keeps.runs' _ _ whole
        · exact Names.gens_mono keeps.names pair
        · exact kept.trans stack
      have driven := Drives.split splits' heard rest'
      rwa [keeps.seam] at driven

/-! ## Changes of their stacks -/

section Changes

variable {t t' : Store} {left left' : List Val} {slice slice' : Option (List Val)} {P : Place}

theorem turned (D : Drives J g m S h m' T tail) (W : Worlds J w w') (set : Restacks w.store t m left slice)
    (set' : Restacks w'.store t' m' left' slice') (moves : J.Moves (J.turns g) t P) : Turns J (J.turns g) (· = h.id) t t' P where
  seats := D.seats W
  moves := moves
  owned := set.sets.own
  owned' := set'.sets.own
  settings := by rw [set.settings, set'.settings, W.settings]
  machines := Nat.le_of_eq (by rw [set.sets.size, W.store])
  machines' := Nat.le_of_eq (by rw [set'.sets.size, W.store'])
  onStacks n i ran idle := by
    rw [set.sets.others n, W.store]
    rintro rfl
    exact idle (.inl (Option.some.inj (ran.symm.trans D.runs.1)))
  onStacks' n i ran idle := by
    rw [set'.sets.others n, W.store']
    rintro rfl
    exact idle (Option.some.inj (ran.symm.trans D.runs.2))
  frames k l pair := by
    obtain ⟨inside, inside'⟩ := W.fits.cont pair
    rw [set.sets.frames, set'.sets.frames, if_neg (Nat.ne_of_lt inside), if_neg (Nat.ne_of_lt inside'), W.store, W.store']
    exact ⟨rfl, rfl⟩
  taken k l pair := by
    obtain ⟨inside, inside'⟩ := W.fits.cont pair
    rw [set.takes.taken k inside, set'.takes.taken l inside', (W.conts k l pair).1, ← W.store, (W.conts k l pair).1]
    exact ⟨rfl, fun pending => (Bool.or_eq_false_iff.1 pending).1⟩
  conts := W.store ▸ set.takes.grows
  conts' := W.store' ▸ set'.takes.grows

/-- After a change they are where they were, if the relay is. -/
theorem kept (D : Drives J g m S h m' T tail) (W : Worlds J w w') (busy : Busy w S g) (set : Restacks w.store t m left slice)
    (set' : Restacks w'.store t' m' left' slice') (moves : J.Moves (J.turns g) t P) {N : Names} (le : J.names ≤ N)
    (stays : J.place = .live → g = J.seam.relay → P = .live) : Drives (J.after P N t t') g m S h m' T tail := by
  refine D.keep W busy ((D.turned W set set' moves).keeps le) fun splits mine same => ⟨stays splits.live mine, ?_⟩
  rw [← W.store]
  exact set.sets.others _ (same ▸ splits.machines W)

/-- The machines get other stacks. -/
theorem sets (D : Drives J g m S h m' T tail) (W : Worlds J w w') (busy : Busy w S g) (busy' : Busy w' T h)
    (set : Restacks w.store t m left slice) (set' : Restacks w'.store t' m' left' slice') (moves : J.Moves (J.turns g) t P)
    (rests : J.place = .live → P = .live ∨ g ≠ J.seam.relay ∧ P = .lost ∧ w.status J.seam.relay = .finished) :
    Worlds (J.after P J.names t t') { w with store := t } { w' with store := t' } ∧
      Drives (J.after P J.names t t') g m S h m' T tail := by
  refine ⟨W.sets (D.turned W set set' moves) (D.busy W busy busy') fun here other => ?_,
    D.kept W busy set set' moves (le_refl _) fun here mine => ?_⟩
  · rcases rests here with live | ⟨-, lost, finished⟩
    · exact absurd live other
    · exact .inr ⟨lost, finished⟩
  · rcases rests here with live | ⟨other, -⟩
    · exact live
    · exact absurd mine other

theorem restacks (D : Drives J g m S h m' T tail) (W : Worlds J w w') {u : Store} (same : u.engine = w.store.engine) (left : List Val) :
    Restacks w.store (u.setStack m left) m left none :=
  .setStack W.own (W.runs _ _ D.runs.1) same left

theorem restacks' (D : Drives J g m S h m' T tail) (W : Worlds J w w') {u : Store} (same : u.engine = w'.store.engine) (left : List Val) :
    Restacks w'.store (u.setStack m' left) m' left none :=
  .setStack W.own' (W.runs' _ _ D.runs.2) same left

end Changes

/-- Where the upper machine stands for one of the other run, it is above the lower one. -/
theorem above (D : Drives J g m S h m' T tail) (W : Worlds J w w') (live : J.place = .live) (mine : g = J.seam.relay) :
    ∃ S₀, S = .running J.seam.nested (machine J.seam.outer (.advancing (.gen J.seam.relay))) :: S₀ ∧ m = J.seam.inner ∧
      h = J.seam.flat ∧ m' = J.seam.whole ∧ Splits J tail ∧ Heard S₀ ∧ Stacks J S₀ T := by
  cases D with
  | joined pair runs runs' heard rest => exact absurd mine (apart_relay W pair live)
  | split splits heard rest => exact ⟨_, rfl, rfl, rfl, rfl, splits, heard, rest⟩

end Drives

end OneShot.Split
