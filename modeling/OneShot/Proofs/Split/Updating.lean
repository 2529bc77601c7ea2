import Mathlib.Logic.Function.Basic
import OneShot.Proofs.Split.Keeping

/-!
# Worlds that change alike

The worlds of two runs correspond after each change that both make: a change that leaves
the engine alone, a new status of corresponding generators, new generators, machines and
continuations, and the take of a continuation.
-/

namespace OneShot.Split

open List (Forall₂)
open Machine (Phase)
open Store (Sets Takes)

variable {c : Code} {J K : Joint} {w w' : World (guest c)} {own own' : Nat → Prop}

theorem MemoAlike.mono {N M : Names} {m m' : Memo c} (h : MemoAlike N m m') (le : N ≤ M) : MemoAlike M m m' :=
  ⟨h.data, alike_mono h.known le, h.log⟩

/-- The status of the relay tells nothing, unless the upper machine has still to resend something. -/
theorem StatusAlike.apart {relay relay' s t : Status (guest c)} {g h : Gen} (alike : StatusAlike J relay g h s t)
    (dead : J.place ≠ .live) : StatusAlike J relay' g h s t :=
  (alike.plain fun live => absurd live dead).alike

theorem Relays.keep {relay : Status (guest c)} (h : Relays J relay) (keeps : J.Keeps K own own')
    (other : ¬own J.seam.relay.id) : Relays K relay := by
  obtain ⟨waits, inner, empty⟩ := h
  have empty' := (keeps.onStacks _ _ inner other).trans empty
  refine ⟨?_, ?_, ?_⟩
  all_goals rw [keeps.seam]
  · exact waits
  · exact keeps.runs _ _ inner
  · exact empty'

/-! ## Whose turn it is -/

theorem Joint.seats_none : J.Seats (fun _ => False) fun _ => False :=
  ⟨fun _ _ _ _ => id, fun _ => False.elim⟩

theorem Worlds.seats (W : Worlds J w w') {g h : Gen} (pair : J.names.gens g h) : J.Seats (· = g.id) (· = h.id) where
  pairs _ _ other apart same := apart (by rw [(W.fits.gens other pair (.inr same)).1])
  relay there same := absurd same.symm ((W.relay there).2.2 _ _ pair)

/-! ## Changes of the store -/

/-- With other stores, and possibly other names and another place of the relay. -/
def Joint.after (J : Joint) (p : Place) (N : Names) (s s' : Store) : Joint :=
  { J with place := p, names := N, store := s, store' := s' }

/-- With other stores. -/
abbrev Joint.on (J : Joint) (s s' : Store) : Joint := J.after J.place J.names s s'

/-- The relay may be taken to be found at `p` now. -/
inductive Joint.Moves (J : Joint) (own : Nat → Prop) (t : Store) (p : Place) : Prop
  | stays (same : p = J.place)
  | leaves (holds : J.place.Holds) (next : p.Holds ∨ p = .lost) (stack : ∀ m i, J.runs m = some i → J.place = .stack m → own i)
      (asked : ∀ i, J.place = .asked i → own i)
      (slice : ∀ k l, J.names.conts k l → J.place = .slice k.index → t.isTaken k = true)
  /-- The upper machine resends something, or ends. -/
  | settles (live : J.place = .live) (other : p ≠ .live) (mine : own J.seam.nested.id)

section Changes

variable {t t' : Store} {p : Place} {N : Names}

/-- Two stores of which a turn has changed only what is its own. -/
structure Turns (J : Joint) (own own' : Nat → Prop) (t t' : Store) (p : Place) : Prop where
  seats : J.Seats own own'
  moves : J.Moves own t p
  owned : t.Own
  owned' : t'.Own
  settings : t.settings = t'.settings
  machines : J.store.machines.size ≤ t.machines.size
  machines' : J.store'.machines.size ≤ t'.machines.size
  onStacks : ∀ m i, J.runs m = some i → ¬own i → t.stack m = J.store.stack m
  onStacks' : ∀ m i, J.runs' m = some i → ¬own' i → t'.stack m = J.store'.stack m
  frames : ∀ k l, J.names.conts k l → t.frames k = J.store.frames k ∧ t'.frames l = J.store'.frames l
  taken : ∀ k l, J.names.conts k l → t.isTaken k = t'.isTaken l ∧ (t.isTaken k = false → J.store.isTaken k = false)
  conts : J.store.conts.size ≤ t.conts.size
  conts' : J.store'.conts.size ≤ t'.conts.size

theorem Turns.keeps (turns : Turns J own own' t t' p) (le : J.names ≤ N) : J.Keeps (J.after p N t t') own own' where
  seats := turns.seats
  seam := rfl
  names := le
  runs _ _ h := h
  runs' _ _ h := h
  onStacks := turns.onStacks
  onStacks' := turns.onStacks'
  frames := turns.frames
  stack m i runs other here := by
    cases turns.moves with
    | stays same => exact same.trans here
    | leaves holds next stack asked slice => exact absurd (stack m i runs here) other
    | settles live => exact absurd (live.symm.trans here) (by simp)
  asked i other here := by
    cases turns.moves with
    | stays same => exact same.trans here
    | leaves holds next stack asked slice => exact absurd (asked i here) other
    | settles live => exact absurd (live.symm.trans here) (by simp)
  lost here := by
    cases turns.moves with
    | stays same => exact same.trans here
    | leaves holds => exact (here ▸ holds : Place.lost.Holds).elim
    | settles live => exact absurd (live.symm.trans here) (by simp)
  live here still := by
    cases turns.moves with
    | stays same => exact same.trans here
    | leaves holds => exact (here ▸ holds : Place.live.Holds).elim
    | settles live other mine => exact absurd mine still

/-- There is a relay only where there was one. -/
theorem Joint.Moves.absent (moves : J.Moves own t p) (absent : J.place = .absent) : p = .absent := by
  cases moves with
  | stays same => exact same.trans absent
  | leaves holds => exact (absent ▸ holds : Place.absent.Holds).elim
  | settles live => exact absurd (live.symm.trans absent) (by simp)

/-- Where the relay was found before. -/
theorem Joint.Moves.origin (moves : J.Moves own t p) :
    p = J.place ∨ J.place.Holds ∧ (p.Holds ∨ p = .lost) ∨ J.place = .live ∧ p ≠ .live := by
  cases moves with
  | stays same => exact .inl same
  | leaves holds next => exact .inr (.inl ⟨holds, next⟩)
  | settles live other => exact .inr (.inr ⟨live, other⟩)

/-- A relay that waits goes on waiting, since it is not its turn. -/
theorem Turns.relays (turns : Turns J own own' t t' p) (le : J.names ≤ N) {relay : Status (guest c)} (relays : Relays J relay)
    (there : J.place.Holds ∨ J.place = .lost) : Relays (J.after p N t t') relay := by
  refine relays.keep (turns.keeps le) fun mine => ?_
  have live := (turns.seats.relay (by rintro absent; simp [absent, Place.Holds] at there) mine).1
  simp [live, Place.Holds] at there

/-- Continuations that correspond have been made. -/
theorem Worlds.made (W : Worlds J w w') {k l : Cont} (pair : J.names.conts k l) :
    k.index < J.store.conts.size ∧ l.index < J.store'.conts.size := by
  have known := W.fits.cont pair
  rwa [W.store, W.store'] at known

/-- More names, for the continuations that a turn has made. -/
structure Joint.Makes (J : Joint) (p : Place) (N : Names) (t t' : Store) : Prop where
  le : J.names ≤ N
  gens : N.gens = J.names.gens
  new : ∀ k l, N.conts k l → J.names.conts k l ∨
    k.index = J.store.conts.size ∧ l.index = J.store'.conts.size ∧ k.index < t.conts.size ∧ l.index < t'.conts.size ∧
      t.isTaken k = t'.isTaken l ∧ (J.after p N t t').Slices (p = .slice k.index) k l
  once : ∀ k l i j, N.conts k l → N.conts i j → k.index = J.store.conts.size → l.index = J.store'.conts.size →
    i.index = J.store.conts.size → j.index = J.store'.conts.size → k = i ∧ l = j

/-- A turn that makes no continuation. -/
theorem Worlds.makes_none (W : Worlds J w w') : J.Makes p J.names t t' where
  le := le_refl _
  gens := rfl
  new _ _ pair := .inl pair
  once _ _ _ _ pair _ last := absurd last (Nat.ne_of_lt (W.made pair).1)

theorem Joint.Makes.fits (makes : J.Makes p N t t') (W : Worlds J w w') (turns : Turns J own own' t t' p) :
    N.Fits { w with store := t } { w' with store := t' } where
  gen pair := W.fits.gen (makes.gens ▸ pair)
  gens pair pair' := W.fits.gens (makes.gens ▸ pair) (makes.gens ▸ pair')
  cont {k l} pair := by
    rcases makes.new k l pair with old | ⟨-, -, here, here', -⟩
    · exact ⟨Nat.lt_of_lt_of_le (W.made old).1 turns.conts, Nat.lt_of_lt_of_le (W.made old).2 turns.conts'⟩
    · exact ⟨here, here'⟩
  conts {k l i j} pair pair' same := by
    rcases makes.new k l pair with old | ⟨here, here', -⟩ <;> rcases makes.new i j pair' with old' | ⟨there, there', -⟩
    · exact W.fits.conts old old' same
    · have := W.made old
      omega
    · have := W.made old'
      omega
    · exact makes.once k l i j pair pair' here here' there there'

/-- The worlds after a turn of generators that run, with continuations that may be new. -/
theorem Worlds.turn (W : Worlds J w w') (turns : Turns J own own' t t' p) (makes : J.Makes p N t t')
    (busy : ∀ g h, J.names.gens g h → own g.id → w.status g = .running ∧ w'.status h = .running)
    (rests : J.place = .live → p ≠ .live → p = .absent ∨ (p.Holds ∧ Relays (J.after p N t t') (w.status J.seam.relay)) ∨
      (p = .lost ∧ w.status J.seam.relay = .finished)) :
    Worlds (J.after p N t t') { w with store := t } { w' with store := t' } where
  store := rfl
  store' := rfl
  lone alone := turns.moves.absent (W.lone alone)
  own := turns.owned
  own' := turns.owned'
  settings := turns.settings
  memory := W.memory.mono makes.le
  fits := makes.fits W turns
  runs m i ran := Nat.lt_of_lt_of_le (W.store ▸ W.runs m i ran) turns.machines
  runs' m i ran := Nat.lt_of_lt_of_le (W.store' ▸ W.runs' m i ran) turns.machines'
  gens g h pair := by
    have pair : J.names.gens g h := makes.gens ▸ pair
    by_cases mine : own g.id
    · obtain ⟨running, running'⟩ := busy g h pair mine
      show StatusAlike _ _ g h (w.status g) (w'.status h)
      rw [running, running']
      exact .running
    · exact (W.gens g h pair).keep (turns.keeps makes.le) pair mine
  conts k l pair := by
    rcases makes.new k l pair with old | ⟨-, -, -, -, taken, slices⟩
    · obtain ⟨taken, before⟩ := turns.taken k l old
      refine ⟨taken, fun pending => ?_⟩
      have known := (W.conts k l old).2
      rw [W.store] at known
      refine (known (before pending)).keep (turns.keeps makes.le) old fun here => ?_
      cases turns.moves with
      | stays same => exact same.trans here
      | leaves holds next stack asked slice => exact absurd (slice k l old here) (by simp [pending])
      | settles live => exact absurd (live.symm.trans here) (by simp)
    · exact ⟨taken, fun _ => slices⟩
  relay there := by
    obtain ⟨made, kind, other⟩ := W.relay fun absent => there (turns.moves.absent absent)
    exact ⟨made, kind, fun g h pair => other g h (makes.gens ▸ pair)⟩
  holds held := by
    rcases turns.moves.origin with same | ⟨holds, -⟩ | ⟨live, other⟩
    · have held : J.place.Holds := same ▸ held
      exact turns.relays makes.le (W.holds held) (.inl held)
    · exact turns.relays makes.le (W.holds holds) (.inl holds)
    · rcases rests live other with absent | ⟨-, relays⟩ | ⟨lost, -⟩
      · exact (absent ▸ held : Place.absent.Holds).elim
      · exact relays
      · exact (lost ▸ held : Place.lost.Holds).elim
  lost lost := by
    rcases turns.moves.origin with same | ⟨holds, -⟩ | ⟨live, other⟩
    · have lost : J.place = .lost := same.symm.trans lost
      exact (W.lost lost).imp (fun relays => turns.relays makes.le relays (.inr lost)) id
    · exact .inl (turns.relays makes.le (W.holds holds) (.inl holds))
    · rcases rests live other with absent | ⟨held, -⟩ | ⟨-, finished⟩
      · exact absurd (lost.symm.trans absent) (by simp)
      · exact (lost ▸ held : Place.lost.Holds).elim
      · exact .inr finished

/-- A turn that makes no continuation. -/
theorem Worlds.sets (W : Worlds J w w') (turns : Turns J own own' t t' p)
    (busy : ∀ g h, J.names.gens g h → own g.id → w.status g = .running ∧ w'.status h = .running)
    (rests : J.place = .live → p ≠ .live → p = .absent ∨ (p = .lost ∧ w.status J.seam.relay = .finished)) :
    Worlds (J.after p J.names t t') { w with store := t } { w' with store := t' } :=
  W.turn turns W.makes_none busy fun live other => (rests live other).imp id .inr

/-- Changes of the store that leave the engine alone. -/
theorem Worlds.turns_quiet (W : Worlds J w w') (same : t.engine = w.store.engine) (same' : t'.engine = w'.store.engine) :
    Turns J (fun _ => False) (fun _ => False) t t' J.place where
  seats := J.seats_none
  moves := .stays rfl
  owned := W.own.of_machines (Store.machines_of_engine same)
  owned' := W.own'.of_machines (Store.machines_of_engine same')
  settings := (Store.settings_of_engine same).trans (W.settings.trans (Store.settings_of_engine same').symm)
  machines := Nat.le_of_eq (by rw [Store.machines_of_engine same, W.store])
  machines' := Nat.le_of_eq (by rw [Store.machines_of_engine same', W.store'])
  onStacks m i _ _ := by
    rw [← W.store]
    exact W.own.stack_eq (Store.machines_of_engine same) m
  onStacks' m i _ _ := by
    rw [← W.store']
    exact W.own'.stack_eq (Store.machines_of_engine same') m
  frames k l _ := by
    rw [← W.store, ← W.store']
    exact ⟨congrFun (Store.frames_of_conts (Store.conts_of_engine same)) k,
      congrFun (Store.frames_of_conts (Store.conts_of_engine same')) l⟩
  taken k l pair := by
    rw [Store.isTaken_of_conts (Store.conts_of_engine same), Store.isTaken_of_conts (Store.conts_of_engine same'), W.store]
    exact ⟨W.store ▸ (W.conts k l pair).1, id⟩
  conts := Nat.le_of_eq (by rw [Store.conts_of_engine same, W.store])
  conts' := Nat.le_of_eq (by rw [Store.conts_of_engine same', W.store'])

end Changes

/-- What code has come to know. -/
theorem Worlds.memory_alike (W : Worlds J w w') {m m' : Memo c} (memory : MemoAlike J.names m m') :
    Worlds J { w with memory := m } { w' with memory := m' } :=
  { W with
    memory := memory
    fits := ⟨W.fits.toOnce, W.fits.gen, W.fits.cont⟩ }

/-! ## Statuses -/

/-- Generators that correspond get statuses that do. -/
theorem Worlds.setStatus (W : Worlds J w w') {g h : Gen} (pair : J.names.gens g h) {s t : Status (guest c)}
    (alike : StatusAlike J (w.status J.seam.relay) g h s t) : Worlds J (w.setStatus g s) (w'.setStatus h t) := by
  have apart (there : J.place ≠ .absent) : (w.setStatus g s).status J.seam.relay = w.status J.seam.relay :=
    World.status_setStatus_of_ne (fun same => (W.relay there).2.2 _ _ pair same.symm) s
  have relay {d e : Gen} {a b : Status (guest c)} (h : StatusAlike J (w.status J.seam.relay) d e a b) :
      StatusAlike J ((w.setStatus g s).status J.seam.relay) d e a b := by
    by_cases absent : J.place = .absent
    · exact h.apart (by simp [absent])
    · rwa [apart absent]
  exact { W with
    fits := by
      refine ⟨W.fits.toOnce, ?_, W.fits.cont⟩
      intro g h pair
      simpa [World.setStatus] using W.fits.gen pair
    gens := fun d e other => by
      refine relay ?_
      have once := W.fits.gens other pair
      by_cases same : d.id = g.id
      · obtain ⟨rfl, rfl⟩ := once (.inl same)
        obtain ⟨inside, inside', -, -⟩ := W.fits.gen pair
        rwa [World.status_setStatus inside, World.status_setStatus inside']
      · have same' : e.id ≠ h.id := fun same' => same (by rw [(once (.inr same')).1])
        rw [World.status_setStatus_of_ne same, World.status_setStatus_of_ne same']
        exact W.gens d e other
    relay := fun there => by
      obtain ⟨inside, kind, other⟩ := W.relay there
      exact ⟨by simpa [World.setStatus] using inside, kind, other⟩
    holds := fun held => by
      rw [apart (by rintro absent; rw [absent] at held; exact held)]
      exact W.holds held
    lost := fun lost => by
      rw [apart (by simp [lost])]
      exact W.lost lost }

/-- The relay gets a status of its own. -/
theorem Worlds.setRelay (W : Worlds J w w') (t : Status (guest c)) (there : J.place ≠ .absent)
    (idle : J.place = .live → w.status J.seam.nested = .running) (holds : J.place.Holds → Relays J t)
    (lost : J.place = .lost → Relays J t ∨ t = .finished) : Worlds J (w.setStatus J.seam.relay t) w' := by
  obtain ⟨inside, kind, other⟩ := W.relay there
  have here : (w.setStatus J.seam.relay t).status J.seam.relay = t := World.status_setStatus inside t
  exact { W with
    fits := by
      refine ⟨W.fits.toOnce, ?_, W.fits.cont⟩
      intro g h pair
      simpa [World.setStatus] using W.fits.gen pair
    gens := fun g h pair => by
      rw [World.status_setStatus_of_ne (other g h pair)]
      exact ((W.gens g h pair).plain fun live nested => nested ▸ idle live).alike
    relay := fun _ => ⟨by simpa [World.setStatus] using inside, kind, other⟩
    holds := fun held => here.symm ▸ holds held
    lost := fun gone => here.symm ▸ lost gone }

/-! ## New generators and machines -/

def Names.withGen (N : Names) (g h : Gen) : Names := ⟨fun d e => N.gens d e ∨ d = g ∧ e = h, N.conts⟩

def Names.withCont (N : Names) (k l : Cont) : Names := ⟨N.gens, fun i j => N.conts i j ∨ i = k ∧ j = l⟩

theorem Names.le_withGen (N : Names) (g h : Gen) : N ≤ N.withGen g h := ⟨fun _ _ => .inl, fun _ _ => id⟩

theorem Names.le_withCont (N : Names) (k l : Cont) : N ≤ N.withCont k l := ⟨fun _ _ => id, fun _ _ => .inl⟩

/-- Names with two generators that are new. -/
theorem Names.Fits.withGen {N : Names} {v v' : World (guest c)} {g h : Gen} (fits : N.Fits w w') (gens : w.gens.size ≤ g.id) (gens' : w'.gens.size ≤ h.id)
    (inside : g.id < v.gens.size) (inside' : h.id < v'.gens.size) (kind : g.kind = .generator) (kind' : h.kind = .generator)
    (conts : w.store.conts.size ≤ v.store.conts.size) (conts' : w'.store.conts.size ≤ v'.store.conts.size) :
    (N.withGen g h).Fits v v' := by
  have old {d e : Gen} (pair : N.gens d e) : d.id < g.id ∧ e.id < h.id :=
    ⟨Nat.lt_of_lt_of_le (fits.gen pair).1 gens, Nat.lt_of_lt_of_le (fits.gen pair).2.1 gens'⟩
  refine ⟨⟨fun {d e i j} pair pair' same => ?_, fits.conts⟩, fun {d e} pair => ?_, fun pair => ?_⟩
  · rcases pair with pair | ⟨rfl, rfl⟩ <;> rcases pair' with pair' | ⟨rfl, rfl⟩
    · exact fits.gens pair pair' same
    · have := old pair
      omega
    · have := old pair'
      omega
    · exact ⟨rfl, rfl⟩
  · rcases pair with pair | ⟨rfl, rfl⟩
    · have := old pair
      exact ⟨by omega, by omega, (fits.gen pair).2.2⟩
    · exact ⟨inside, inside', kind, kind'⟩
  · exact ⟨Nat.lt_of_lt_of_le (fits.cont pair).1 conts, Nat.lt_of_lt_of_le (fits.cont pair).2 conts'⟩

/-- With two generators that are made. -/
abbrev Joint.spawning (J : Joint) (g h : Gen) : Joint := J.after J.place (J.names.withGen g h) J.store J.store'

/-- With two machines that these generators run. -/
def Joint.running (J : Joint) (m m' i i' : Nat) : Joint :=
  { J with runs := Function.update J.runs m (some i), runs' := Function.update J.runs' m' (some i') }

theorem Joint.keeps_spawning (J : Joint) (g h : Gen) : J.Keeps (J.spawning g h) (fun _ => False) fun _ => False where
  seats := J.seats_none
  seam := rfl
  names := J.names.le_withGen g h
  runs _ _ h := h
  runs' _ _ h := h
  onStacks _ _ _ _ := rfl
  onStacks' _ _ _ _ := rfl
  frames _ _ _ := ⟨rfl, rfl⟩
  stack _ _ _ _ h := h
  asked _ _ h := h
  lost h := h
  live h _ := h

theorem Joint.keeps_running {m m' : Nat} (idle : J.runs m = none) (idle' : J.runs' m' = none) (i i' : Nat) :
    J.Keeps (J.running m m' i i') (fun _ => False) fun _ => False where
  seats := J.seats_none
  seam := rfl
  names := le_refl _
  runs n j ran := by
    refine (Function.update_of_ne ?_ _ _).trans ran
    rintro rfl
    simp [idle] at ran
  runs' n j ran := by
    refine (Function.update_of_ne ?_ _ _).trans ran
    rintro rfl
    simp [idle'] at ran
  onStacks _ _ _ _ := rfl
  onStacks' _ _ _ _ := rfl
  frames _ _ _ := ⟨rfl, rfl⟩
  stack _ _ _ _ h := h
  asked _ _ h := h
  lost h := h
  live h _ := h

theorem Worlds.running (W : Worlds J w w') {m m' : Nat} (idle : J.runs m = none) (idle' : J.runs' m' = none)
    (inside : m < w.store.machines.size) (inside' : m' < w'.store.machines.size) (i i' : Nat) :
    Worlds (J.running m m' i i') w w' := by
  have keeps := J.keeps_running idle idle' i i'
  exact { W with
    runs := fun n j ran => by
      by_cases same : n = m
      · exact same ▸ inside
      · exact W.runs n j ((Function.update_of_ne same _ _).symm.trans ran)
    runs' := fun n j ran => by
      by_cases same : n = m'
      · exact same ▸ inside'
      · exact W.runs' n j ((Function.update_of_ne same _ _).symm.trans ran)
    gens := fun g h pair => (W.gens g h pair).keep keeps pair id
    conts := fun k l pair => ⟨(W.conts k l pair).1, fun pending => ((W.conts k l pair).2 pending).keep keeps pair id⟩
    holds := fun held => (W.holds held).keep keeps id
    lost := fun lost => (W.lost lost).imp (·.keep keeps id) id }

theorem status_spawn_of_lt {kind : GenKind} {name : String} {r : Routine (guest c)} {g : Gen} (inside : g.id < w.gens.size) :
    (w.spawn kind name r).1.status g = w.status g := by
  simp [World.status, World.spawn, Array.getElem?_push, Nat.ne_of_lt inside]

/-- Both runs make a generator. -/
theorem Worlds.spawn (W : Worlds J w w') (name name' : String) {p q : Routine (guest c)}
    (alike : RoutineAlike (J.spawning ⟨w.gens.size, .generator, name⟩ ⟨w'.gens.size, .generator, name'⟩)
      w.gens.size w'.gens.size p q) :
    Worlds (J.spawning ⟨w.gens.size, .generator, name⟩ ⟨w'.gens.size, .generator, name'⟩)
      (w.spawn .generator name p).1 (w'.spawn .generator name' q).1 := by
  have keeps := J.keeps_spawning ⟨w.gens.size, .generator, name⟩ ⟨w'.gens.size, .generator, name'⟩
  have apart (there : J.place ≠ .absent) :
      (w.spawn .generator name p).1.status J.seam.relay = w.status J.seam.relay := status_spawn_of_lt (W.relay there).1
  have size : (w.spawn .generator name p).1.gens.size = w.gens.size + 1 := by simp [World.spawn]
  have size' : (w'.spawn .generator name' q).1.gens.size = w'.gens.size + 1 := by simp [World.spawn]
  exact { W with
    memory := W.memory.mono keeps.names
    fits := W.fits.withGen (le_refl _) (le_refl _) (Nat.lt_of_lt_of_eq (Nat.lt_succ_self _) size.symm)
      (Nat.lt_of_lt_of_eq (Nat.lt_succ_self _) size'.symm) rfl rfl (le_refl _) (le_refl _)
    gens := fun g h pair => by
      rcases pair with pair | ⟨rfl, rfl⟩
      · obtain ⟨inside, inside', -⟩ := W.fits.gen pair
        rw [status_spawn_of_lt inside, status_spawn_of_lt inside']
        have kept := (W.gens g h pair).keep keeps pair id
        by_cases absent : J.place = .absent
        · exact kept.apart (fun live => by simp [Joint.after, absent] at live)
        · exact (apart absent).symm ▸ kept
      · show StatusAlike _ _ _ _ ((w.spawn .generator name p).1.status (w.spawn .generator name p).2)
          ((w'.spawn .generator name' q).1.status (w'.spawn .generator name' q).2)
        rw [World.status_spawn, World.status_spawn]
        exact .fresh alike
    conts := fun k l pair =>
      ⟨(W.conts k l pair).1, fun pending => ((W.conts k l pair).2 pending).keep keeps pair id⟩
    relay := fun there => by
      obtain ⟨inside, kind, other⟩ := W.relay there
      refine ⟨by rw [size]; exact Nat.lt_succ_of_lt inside, kind, fun g h pair => ?_⟩
      rcases pair with pair | ⟨rfl, rfl⟩
      · exact other g h pair
      · exact (Nat.ne_of_lt inside).symm
    holds := fun held => by
      have there : J.place ≠ .absent := fun absent => (absent ▸ held : Place.absent.Holds).elim
      have kept := (W.holds held).keep keeps id
      exact (apart there).symm ▸ kept
    lost := fun lost => by
      have there : J.place ≠ .absent := fun absent => by simp [absent, Joint.after] at lost
      have kept := (W.lost lost).imp (·.keep keeps id) id
      exact (apart there).symm ▸ kept }

end OneShot.Split
