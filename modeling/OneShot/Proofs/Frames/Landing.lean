import OneShot.Proofs.Frames.Falling

/-!
# Where failures land

What waits below a failure is known of every configuration of a run: each frame down
the joined stack holds a generator that waits at a suspension point, or has others run
in its place of which the innermost one does.  No generator is there twice.
-/

namespace OneShot

variable {G : Guest} {trace : Trace G} {c d : Config G} {w : World G}

/-! ## Bodies that wait are distinct -/

namespace Hang

variable {g h : Gen} {l l' : List (Gen × Routine G)}

/-- The bodies that wait in a generator are determined by its number. -/
theorem bodies_eq (hang : Hang w g l) (other : Hang w h l') (same : g.id = h.id) :
    bodies l = bodies l' := by
  induction hang generalizing h l' with
  | gone status kind =>
      have status' := (World.status_congr w same.symm).trans status
      cases other with
      | gone => rfl
      | waits there | relays there => exact absurd (status'.symm.trans there) (by simp)
  | waits status =>
      have status' := (World.status_congr w same.symm).trans status
      cases other with
      | waits => simp [same]
      | gone there | relays there => exact absurd (status'.symm.trans there) (by simp)
  | relays status inner ih =>
      have status' := (World.status_congr w same.symm).trans status
      cases other with
      | gone there | waits there => exact absurd (status'.symm.trans there) (by simp)
      | relays there inner' =>
          cases status'.symm.trans there
          simp [ih inner' rfl, same]

/-- Below a body that waits in a generator are those that wait in it itself. -/
theorem of_mem (hang : Hang w g l) {i : Nat} (mem : i ∈ bodies l) :
    ∃ h l₁ l₂, h.id = i ∧ i ∈ bodies l₁ ∧ Hang w h l₁ ∧ l = l₁ ++ l₂ := by
  induction hang with
  | gone => simp at mem
  | @waits g p how status =>
      exact ⟨g, _, [], by simpa [eq_comm] using mem, mem, .waits status, by simp⟩
  | @relays g e p l status inner ih =>
      simp only [bodies_append, bodies_cons, bodies_nil, List.mem_append, List.mem_singleton] at mem
      rcases mem with mem | rfl
      · obtain ⟨h, l₁, l₂, same, here, hang, rfl⟩ := ih mem
        exact ⟨h, l₁, l₂ ++ [(g, p)], same, here, hang, by simp⟩
      · exact ⟨g, _, [], rfl, by simp, .relays status inner, by simp⟩

theorem nodup (hang : Hang w g l) : (bodies l).Nodup := by
  induction hang with
  | gone | waits => simp
  | @relays g e p l status inner ih =>
      have other : g.id ∉ bodies l := by
        -- Otherwise as many bodies would wait in it as in something it has run in its place.
        intro mem
        obtain ⟨h, l₁, l₂, same, -, hang, rfl⟩ := inner.of_mem mem
        have equal := congrArg List.length (hang.bodies_eq (.relays status inner) same)
        simp only [bodies, List.map_append, List.length_append, List.length_map, List.map_cons,
          List.length_cons, List.map_nil, List.length_nil] at equal
        omega
      simpa [List.nodup_append] using ⟨ih, fun i mem same => other (same ▸ mem)⟩

/-- What waits in a generator does so for the next body, unless it is the last one. -/
theorem parent (hang : Hang c.world g l) (recorded : Recorded trace c) {i : Nat}
    (mem : i ∈ bodies l) :
    i = g.id ∨ ∃ j ∈ bodies l, (j, i) ∈ trace.delegated := by
  induction hang with
  | gone => simp at mem
  | waits status => exact .inl (by simpa using mem)
  | @relays g e p l status inner ih =>
      simp only [bodies_append, bodies_cons, bodies_nil, List.mem_append, List.mem_singleton] at mem ⊢
      rcases mem with mem | rfl
      · rcases ih mem with rfl | ⟨j, there, delegated⟩
        · exact .inr ⟨g.id, .inr rfl, recorded.delegating _ p _ (World.getElem?_of_status status (by simp))⟩
        · exact .inr ⟨j, .inl there, delegated⟩
      · exact .inl rfl

end Hang

/-- A generator that was delegated to was so by one other, and is advanced by it only. -/
structure Descent (trace : Trace G) (c : Config G) : Prop where
  unique : ∀ i j e, (i, e) ∈ trace.delegated → (j, e) ∈ trace.delegated → i = j
  advanced : ∀ i e, (i, e) ∈ trace.delegated →
    e ∈ trace.advanced ∨ ∃ g k, c.advanced? = some g ∧ c.signal = .advance g k ∧ g.id = e

namespace Descent

theorem entered_of_advanced {i : Nat} (mem : i ∈ trace.advanced) : i ∈ trace.entered := by
  obtain ⟨c, there, found⟩ := List.mem_filterMap.1 mem
  obtain ⟨g, asked, same⟩ := Option.map_eq_some_iff.1 found
  refine List.mem_filterMap.2 ⟨c, there, ?_⟩
  unfold Config.advanced? at asked
  split at asked
  · rename_i h k signal
    split at asked <;> cases asked
    simp [Config.entered?, signal, same]
  · contradiction

/-- A step that begins to delegate advances what it delegates to next. -/
theorem advances {g e : Gen} (made : c.delegated? = some (g, e)) (stepped : c.step = .ok d)
    (after : Aligned (c :: trace) d) :
    (∃ r, c.signal = .reply r) ∧ ∃ k, d.advanced? = some e ∧ d.signal = .advance e k := by
  unfold Config.delegated? at made
  rw [stepped] at made
  split at made
  · rename_i stack signal next
    cases made
    cases next
    cases after.advances _ _ _ rfl rfl rfl
    exact ⟨⟨_, signal⟩, _, by simp [Config.advanced?, Activation.machine?], rfl⟩
  · contradiction

theorem step (descent : Descent trace c) (tidy : Tidy trace c) (stepped : c.step = .ok d)
    (after : Aligned (c :: trace) d) : Descent (c :: trace) d := by
  have fresh {g e : Gen} {i : Nat} (made : c.delegated? = some (g, e))
      (before : (i, e.id) ∈ trace.delegated) : False := by
    rcases descent.advanced i e.id before with advanced | ⟨h, k, -, signal, -⟩
    · exact (tidy.delegated g e made).2.2 (entered_of_advanced advanced)
    · obtain ⟨⟨r, replied⟩, -⟩ := advances made stepped after
      exact absurd (signal.symm.trans replied) (by simp)
  refine ⟨fun i j e first second => ?_, fun i e mem => ?_⟩
  · rcases Trace.mem_delegated_cons.1 first with ⟨g, f, made, same⟩ | first <;>
      rcases Trace.mem_delegated_cons.1 second with ⟨h, f', made', same'⟩ | second
    · cases made.symm.trans made'
      cases same.symm.trans same'
      rfl
    · cases same
      exact (fresh made second).elim
    · cases same'
      exact (fresh made' first).elim
    · exact descent.unique i j e first second
  · rcases Trace.mem_delegated_cons.1 mem with ⟨g, f, made, same⟩ | before
    · cases same
      obtain ⟨-, k, advanced, signal⟩ := advances made stepped after
      exact .inr ⟨f, k, advanced, signal, rfl⟩
    · rcases descent.advanced i e before with advanced | ⟨g, k, advanced, -, rfl⟩
      · exact .inl (Trace.advanced_cons advanced)
      · exact .inl (Trace.advanced_here advanced)

end Descent

theorem RunOf.descent (run : RunOf Tidy trace c) : Descent trace c := by
  induction run with
  | start fresh => exact ⟨by simp [Trace.delegated], by simp [Trace.delegated]⟩
  | step before tidy stepped ih =>
      exact ih.step tidy stepped
        (before.tended.ordered.toStanding.step tidy.toGenuine stepped).aligned

/-- What waits in generators that nothing delegates to is distinct. -/
theorem Hang.disjoint {g h : Gen} {l l' : List (Gen × Routine G)} (hang : Hang c.world g l)
    (hang' : Hang c.world h l') (recorded : Recorded trace c) (descent : Descent trace c)
    (root : ∀ i, (i, g.id) ∉ trace.delegated) (root' : ∀ i, (i, h.id) ∉ trace.delegated)
    (other : g.id ≠ h.id) : (bodies l).Disjoint (bodies l') := by
  -- Upwards from a body that they share, one of them comes to the other's generator.
  have meets {e : Gen} {k : List (Gen × Routine G)} (hang : Hang c.world e k) {i : Nat}
      (mem : i ∈ bodies k) (mem' : i ∈ bodies l') : e.id ∈ bodies l' ∨ h.id ∈ bodies k := by
    induction hang with
    | gone => simp at mem
    | waits status =>
        cases List.mem_singleton.1 mem
        exact .inl mem'
    | @relays g e p k status inner ih =>
        simp only [bodies_append, bodies_cons, bodies_nil, List.mem_append, List.mem_singleton] at mem ⊢
        rcases mem with mem | rfl
        · rcases ih mem with here | here
          · have delegated := recorded.delegating g.id p e (World.getElem?_of_status status (by simp))
            rcases hang'.parent recorded here with same | ⟨j, there, delegated'⟩
            · exact absurd (same ▸ delegated) (root' g.id)
            · exact .inl (descent.unique _ _ _ delegated delegated' ▸ there)
          · exact .inr (.inl here)
        · exact .inl mem'
  intro i mem mem'
  rcases meets hang mem mem' with here | here
  · rcases hang'.parent recorded here with same | ⟨j, -, delegated⟩
    · exact other same
    · exact root j delegated
  · rcases hang.parent recorded here with same | ⟨j, -, delegated⟩
    · exact other same.symm
    · exact root' j delegated

/-! ## What waits in a generator -/

/-- What failures land on. -/
structure Footing (trace : Trace G) (c : Config G) : Prop extends Tended trace c where
  poising : Poising trace c
  placed : Placed c
  descent : Descent trace c

theorem RunOf.footing (run : RunOf Tidy trace c) : Footing trace c where
  toTended := run.tended
  poising := run.poising
  placed := run.placed fun _ _ tidy => tidy.toGenuine
  descent := run.descent

/-- What a generator has run in its place, and what that has, and so on. -/
inductive World.Within (w : World G) : Gen → Gen → Prop
  | self (g : Gen) : Within w g g
  | through {g e h : Gen} {p : Routine G} (status : w.status g = .delegating p e)
      (further : Within w e h) : Within w g h

/-- A body has suspended with `v`, and waits there. -/
inductive Suspended (trace : Trace G) (c : Config G) (v : Val) (q : Gen × Routine G) : Prop
  | intro {before : Trace G} {e : Config G} {how : Suspension} (earlier : e :: before <:+ trace)
      (suspends : e.Suspends q.1 v how q.2) (status : c.world.status q.1 = .suspended q.2 how)

/-- Neither a generator nor anything that it has run in its place was closed. -/
def Unclosed (trace : Trace G) (c : Config G) (g : Gen) : Prop :=
  ∀ h, c.world.Within g h → h.id ∉ trace.closed

/-- What was closed has come to its end. -/
def Intact (trace : Trace G) (c : Config G) (g : Gen) : Prop :=
  ∀ h, c.world.Within g h → h.id ∈ trace.closed → c.world.status h = .finished ∧ h.kind = .generator

namespace Intact

variable {g h e : Gen} {p : Routine G}

theorem through (intact : Intact trace c g) (status : c.world.status g = .delegating p e) :
    Intact trace c e :=
  fun h within => intact h (.through status within)

theorem unclosed (intact : Intact trace c g) (within : c.world.Within g h) {t : Status G}
    (status : c.world.status h = t) (other : t ≠ .finished) : h.id ∉ trace.closed :=
  fun closed => other (status.symm.trans (intact h within closed).1)

/-- Nothing is closed on the way to what a generator has run in its place. -/
theorem holds (intact : Intact trace c g) (within : c.world.Within g h) : Holds trace c g h := by
  induction within with
  | self g => exact .self g
  | through status further ih =>
      exact .through (intact.unclosed (.self _) status (by simp)) (.inl ⟨_, status⟩)
        (ih (intact.through status))

end Intact

/--
What is poised waits at a suspension point, or was closed.  If it was not, the innermost
body is the one that has suspended.
-/
theorem Poised.hang {v : Val} {g : Gen} (poised : Poised trace c v g) (intact : Intact trace c g) :
    ∃ l, Hang c.world g l ∧ (∀ q ∈ l, c.world.Within g q.1 ∧
      (Suspended trace c v q ∨ ∃ e, c.world.status q.1 = .delegating q.2 e)) ∧
      (Unclosed trace c g → ∃ q l', l = q :: l' ∧ Suspended trace c v q) := by
  induction poised with
  | @itself g before e how p earlier suspends status =>
      have suspended : Suspended trace c v (g, p) := ⟨earlier, suspends, status⟩
      exact ⟨[(g, p)], .waits status, by simpa using ⟨.self g, .inl suspended⟩,
        fun _ => ⟨_, [], rfl, suspended⟩⟩
  | @relays g e p status inner ih =>
      obtain ⟨l, hang, all, innermost⟩ := ih (intact.through status)
      refine ⟨l ++ [(g, p)], hang.relays status, fun q mem => ?_, fun unclosed => ?_⟩
      · rcases List.mem_append.1 mem with mem | mem
        · exact ⟨.through status (all q mem).1, (all q mem).2⟩
        · cases List.mem_singleton.1 mem
          exact ⟨.self g, .inr ⟨e, status⟩⟩
      · obtain ⟨q, l', rfl, suspended⟩ :=
          innermost fun h within => unclosed h (.through status within)
        exact ⟨q, l' ++ [(g, p)], rfl, suspended⟩
  | @closed g closed =>
      obtain ⟨status, kind⟩ := intact g (.self g) closed
      exact ⟨[], .gone status kind, by simp, fun unclosed => absurd closed (unclosed g (.self g))⟩

/-- A body that takes what is thrown into it: one of the program, or a driver that awaits something. -/
def Routine.Takes : Routine G → Prop
  | .guest _ => True
  | .library (.executeAsync (.awaiting ..)) => True
  | _ => False

/-- A process that another one is run in the place of lets failures through, or awaits something. -/
theorem Process.takes_of_leans {s : Store} {p : Process} (leans : p.leans = true)
    (plain : p.plain = true) : (Routine.library p : Routine G).Takes ∨
      (Routine.library p : Routine G).Passes s := by
  unfold Process.leans at leans
  split at leans <;> first
    | exact .inr (.process rfl)
    | exact .inl trivial
    | contradiction

/-- So does one that has yielded something else than an escape. -/
theorem Process.passes_of_sleepsWith {v : Val} {p : Process} (sleeps : p.sleepsWith v = true)
    (plain : p.plain = true) (other : ∀ id action, v ≠ .escape id action) : p.passes = true := by
  unfold sleepsWith at sleeps
  split at sleeps
  · split at sleeps
    · exact absurd rfl (other _ _)
    · contradiction
  · rename_i no_clause
    unfold Process.sleeps at sleeps
    split at sleeps <;> first
      | rfl
      | contradiction
      | exact (no_clause _ rfl).elim

/-- A generator is at rest, and has suspended with something else than an escape. -/
def Waiting (trace : Trace G) (c : Config G) (g : Gen) : Prop :=
  Rests trace c g ∧ ∃ v, (∀ id action, v ≠ .escape id action) ∧ Poised trace c v g

namespace Footing

theorem keeps (footing : Footing trace c) : Keeps (Waiting trace c) trace c where
  buried g t buried := ⟨footing.resting.buried _ buried g t rfl, footing.poising.buried g t buried⟩
  yielded g v yields other :=
    ⟨footing.resting.yielded g v yields other, v, other, footing.poising.yielded g v yields⟩

/-- What waits in a generator takes failures, or lets them through. -/
theorem takes_or_passes (footing : Footing trace c) {g : Gen} {v : Val}
    (rests : Rests trace c g) (poised : Poised trace c v g)
    (other : ∀ id action, v ≠ .escape id action) (intact : Intact trace c g) :
    ∃ l, Hang c.world g l ∧ (∀ q ∈ l, q.2.Takes ∨ q.2.Passes c.world.store) ∧
      (Unclosed trace c g → ∃ q l', l = q :: l' ∧ Suspended trace c v q) := by
  obtain ⟨l, hang, all, innermost⟩ := poised.hang intact
  refine ⟨l, hang, fun q mem => ?_, innermost⟩
  have seated := footing.ordered.seated
  obtain ⟨within, why⟩ := all q mem
  obtain ⟨h, p⟩ := q
  cases p with
  | guest b => exact .inl trivial
  | library p =>
      rcases why with ⟨earlier, ⟨stack, signal, turn⟩, status⟩ | ⟨e, status⟩
      · have there := World.getElem?_of_status status (by simp)
        refine .inr ?_
        rcases seated.gens _ _ there with ⟨plain, -⟩ | ⟨m, phase, same, -, ran, -⟩
        · exact .process (Process.passes_of_sleepsWith (Placed.patient turn) plain other)
        · cases same
          have rests := rests.of_holds (intact.holds within) footing.ordered.active footing.recorded
          obtain ⟨spent, still⟩ := rests.machine footing.recorded ran
          cases status.symm.trans (still.resolve_right (intact.unclosed within status (by simp)))
          exact .resent spent.1
      · have there := World.getElem?_of_status status (by simp)
        exact Process.takes_of_leans (footing.placed.delegating _ p e there) (seated.gens _ _ there).1

/-- What waits in frames. -/
theorem exists_line (footing : Footing trace c) {fs : List Val} (proper : ∀ v ∈ fs, v.Proper)
    (waiting : ∀ v ∈ fs, v.Holding (Waiting trace c)) (intact : ∀ v ∈ fs, v.Holding (Intact trace c)) :
    ∃ l, Line c.world fs l ∧ ∀ q ∈ l, q.2.Takes ∨ q.2.Passes c.world.store := by
  induction fs with
  | nil => exact ⟨[], .nil, by simp⟩
  | cons v fs ih =>
      simp only [List.forall_mem_cons] at proper waiting intact
      obtain ⟨l, line, all⟩ := ih proper.2 waiting.2 intact.2
      cases proper.1 with
      | handler h t => exact ⟨l, .handler line, all⟩
      | generator g t =>
          obtain ⟨rests, u, other, poised⟩ := waiting.1 g t rfl
          obtain ⟨k, hang, all', -⟩ := footing.takes_or_passes rests poised other (intact.1 g t rfl)
          exact ⟨k ++ l, .generator hang line, List.forall_mem_append.2 ⟨all', all⟩⟩

end Footing

/-! ## What waits in frames is distinct -/

/-- What waits in a line of frames waits in one of them. -/
theorem Line.of_mem {fs : List Val} {l : List (Gen × Routine G)} (line : Line w fs l) {i : Nat}
    (mem : i ∈ bodies l) :
    ∃ g t k, .frame (.generator (.gen g) t) ∈ fs ∧ Hang w g k ∧ i ∈ bodies k := by
  induction line with
  | nil => simp at mem
  | handler below ih =>
      obtain ⟨g, t, k, there, hang, here⟩ := ih mem
      exact ⟨g, t, k, .tail _ there, hang, here⟩
  | @generator g t fs l l' hang below ih =>
      simp only [bodies_append, List.mem_append] at mem
      rcases mem with mem | mem
      · exact ⟨g, t, l, .head _, hang, mem⟩
      · obtain ⟨g, t, k, there, hang, here⟩ := ih mem
        exact ⟨g, t, k, .tail _ there, hang, here⟩

/-- What waits is not running. -/
theorem Hang.idle {g : Gen} {l : List (Gen × Routine G)} (hang : Hang w g l) {i : Nat}
    (mem : i ∈ bodies l) : w.gens[i]? ≠ some .running := by
  obtain ⟨h, l₁, -, rfl, here, hang, -⟩ := hang.of_mem mem
  intro running
  cases hang with
  | gone => simp at here
  | waits status => simp [World.getElem?_of_status status] at running
  | relays status => simp [World.getElem?_of_status status] at running

/-- The key of the generator of a frame. -/
theorem Key.mem_of_frame {g : Gen} {t : Tag} {fs : List Val}
    (mem : .frame (.generator (.gen g) t) ∈ fs) : Key.gen g.id ∈ fs.flatMap Val.keys :=
  List.mem_flatMap.2 ⟨_, mem, by simp [Val.keys]⟩

/-- Nothing delegates to what is in a frame. -/
def Roots (trace : Trace G) (fs : List Val) : Prop :=
  ∀ g t, .frame (.generator (.gen g) t) ∈ fs → ∀ i, (i, g.id) ∉ trace.delegated

section Distinct

variable (recorded : Recorded trace c) (descent : Descent trace c)

include recorded descent

theorem Line.nodup {fs : List Val} {l : List (Gen × Routine G)} (line : Line c.world fs l)
    (roots : Roots trace fs) (once : (fs.flatMap Val.keys).Nodup) : (bodies l).Nodup := by
  induction line with
  | nil => simp
  | @handler h t fs l below ih =>
      refine ih (fun g t mem => roots g t (.tail _ mem)) ?_
      exact (List.nodup_append.1 (by simpa using once)).2.1
  | @generator g t fs l l' hang below ih =>
      rw [List.flatMap_cons, List.nodup_append] at once
      rw [bodies_append, List.nodup_append]
      refine ⟨hang.nodup, ih (fun g t mem => roots g t (.tail _ mem)) once.2.1, ?_⟩
      rintro i mem j mem' rfl
      obtain ⟨h, u, k, there, hang', here⟩ := below.of_mem mem'
      have other : g.id ≠ h.id := fun same => once.2.2 (.gen g.id) (by simp [Val.keys]) (.gen h.id)
        (Key.mem_of_frame there) (by rw [same])
      exact hang.disjoint hang' recorded descent (roots g t (.head _)) (roots h u (.tail _ there))
        other mem here

end Distinct

/-! ## What waits down the joined stack -/

/-- The activations that make several stacks of frames one. -/
inductive Activation.Joining : Activation G → Prop
  | calling (g : Gen) (m : Nat) : Joining (.running g (.library (.machine m .calling)))
  | advancing (g : Gen) (m : Nat) (content : Val) :
      Joining (.running g (.library (.machine m (.advancing content))))
  | relaying (g : Gen) (p : Routine G) (e : Gen) : Joining (.relaying g p e)

theorem Machine.Phase.Guards.suffix {p : Machine.Phase} {fs fs' : List Val}
    (guards : p.Guards fs fs') : fs' <:+ fs := by
  cases guards with
  | calling => exact List.suffix_rfl
  | advancing content v => exact List.suffix_cons v _

/-- What waits down joined stacks waits in a frame of a machine there, or is there itself. -/
theorem Joins.of_mem {acts : List (Activation G)} {l : List (Gen × Routine G)}
    (joins : Joins w acts l) {i : Nat} (mem : i ∈ bodies l) :
    (∃ m ∈ machines acts, ∃ g t k, .frame (.generator (.gen g) t) ∈ w.store.stack m ∧
      Hang w g k ∧ i ∈ bodies k) ∨ ∃ g p e, .relaying g p e ∈ acts ∧ g.id = i := by
  induction joins with
  | nil => simp at mem
  | @machine g m p fs acts l l' guards line below ih =>
      simp only [bodies_append, List.mem_append] at mem
      rcases mem with mem | mem
      · obtain ⟨h, t, k, there, hang, here⟩ := line.of_mem mem
        exact .inl ⟨m, by simp, h, t, k, guards.suffix.subset there, hang, here⟩
      · rcases ih mem with ⟨n, there, rest⟩ | ⟨h, p, e, there, same⟩
        · exact .inl ⟨n, by simp [there], rest⟩
        · exact .inr ⟨h, p, e, .tail _ there, same⟩
  | @relays g e p acts l below ih =>
      simp only [bodies_cons, List.mem_cons] at mem
      rcases mem with rfl | mem
      · exact .inr ⟨g, p, e, .head _, rfl⟩
      · rcases ih mem with ⟨n, there, rest⟩ | ⟨h, p, e, there, same⟩
        · exact .inl ⟨n, by simpa using there, rest⟩
        · exact .inr ⟨h, p, e, .tail _ there, same⟩

namespace Footing

/-- Nothing delegates to what is in a frame, except for what is advanced next. -/
theorem root (footing : Footing trace c) {i : Nat} (framed : i ∈ trace.framed) {r : Reply}
    (signal : c.signal = .reply r) (j : Nat) : (j, i) ∉ trace.delegated := by
  intro delegated
  rcases footing.descent.advanced j i delegated with advanced | ⟨g, k, -, asked, -⟩
  · exact footing.ordered.apart i framed advanced
  · exact absurd (signal.symm.trans asked) (by simp)

/-- Down the joined stack, everything waits. -/
theorem exists_joins (footing : Footing trace c) {acts : List (Activation G)} (sub : acts ⊆ c.stack)
    (joining : ∀ a ∈ acts, a.Joining)
    (intact : ∀ m ∈ machines acts, ∀ v ∈ c.world.store.stack m, v.Holding (Intact trace c)) :
    ∃ l, Joins c.world acts l ∧ ∀ q ∈ l, q.2.Takes ∨ q.2.Passes c.world.store := by
  induction acts with
  | nil => exact ⟨[], .nil, by simp⟩
  | cons a acts ih =>
      have standing := footing.ordered.toStanding
      obtain ⟨here, rest⟩ := List.cons_subset.1 sub
      simp only [List.forall_mem_cons] at joining
      have of_machine {g : Gen} {m : Nat} {p : Machine.Phase} {fs : List Val}
          (same : a = .running g (.library (.machine m p)))
          (guards : p.Guards (c.world.store.stack m) fs) (buried : ∀ v ∈ fs, Buried trace c v) :
          ∃ l, Joins c.world (a :: acts) l ∧ ∀ q ∈ l, q.2.Takes ∨ q.2.Passes c.world.store := by
        subst same
        simp only [machines_machine, List.forall_mem_cons] at intact
        obtain ⟨l', below, all'⟩ := ih rest joining.2 intact.2
        obtain ⟨l, line, all⟩ := footing.exists_line
          (fun v mem => standing.sound.onStacks m v (guards.suffix.subset mem))
          (fun v mem => footing.keeps.holding (buried v mem))
          fun v mem => intact.1 v (guards.suffix.subset mem)
        refine ⟨l ++ l', .machine guards line below, fun q mem => ?_⟩
        exact (List.mem_append.1 mem).elim (all q) (all' q)
      cases joining.1 with
      | calling g m => exact of_machine rfl (.calling _) fun v mem => .calling here rfl mem
      | advancing g m content =>
          obtain ⟨h, t, frames, -, top⟩ := standing.aligned.held _ here m _ rfl
          have guards : (Machine.Phase.advancing content).Guards (c.world.store.stack m) frames := by
            rw [top]
            exact .advancing content _ frames
          exact of_machine rfl guards fun v mem => .stacked (by rw [top]; exact mem)
      | relaying g p e =>
          simp only [machines_relaying] at intact
          obtain ⟨l, below, all⟩ := ih rest joining.2 intact
          refine ⟨(g, p) :: l, .relays below, ?_⟩
          simp only [List.forall_mem_cons]
          refine ⟨?_, all⟩
          cases p with
          | guest b => exact .inl trivial
          | library p =>
              exact Process.takes_of_leans (footing.placed.relaying _ p e here)
                (standing.seated.stack _ here).1

section Distinct

variable (footing : Footing trace c) {r : Reply} (signal : c.signal = .reply r)
  {a : Activation G} {g : Gen} {m : Nat} {p : Machine.Phase} {fs : List Val}
  {acts : List (Activation G)} {l l' : List (Gen × Routine G)}

include footing

/-- What is on top of a joined stack does not wait below it, and is not there again. -/
theorem top_not_mem (sub : (a :: acts).Sublist c.stack) (body : a.active? = some g)
    (joins : Joins c.world acts l) : g.id ∉ bodies l ++ seats acts := by
  have active := footing.ordered.active
  have once : (OneShot.active (a :: acts)).Nodup := (List.Sublist.filterMap _ sub).nodup active.once
  rw [active_cons_of_some body, List.nodup_cons] at once
  intro mem
  rcases List.mem_append.1 mem with mem | mem
  · rcases joins.of_mem mem with ⟨m, -, h, t, k, -, hang, here⟩ | ⟨h, p, e, there, same⟩
    · exact hang.idle here (Manned.running active (sub.subset (.head _)) body)
    · exact once.1 (List.mem_filterMap.2 ⟨_, there, by simp [same]⟩)
  · obtain ⟨b, there, found⟩ := List.mem_filterMap.1 mem
    cases b with
    | running h p => exact once.1 (List.mem_filterMap.2 ⟨_, there, found⟩)
    | _ => cases found

include signal

theorem roots (m : Nat) : Roots trace (c.world.store.stack m) := fun g t mem =>
  footing.root (footing.ordered.starting.stacked m g t mem) signal

theorem roots_of_suffix (suffix : fs <:+ c.world.store.stack m) : Roots trace fs :=
  fun g t mem => footing.roots signal m g t (suffix.subset mem)

/-- What waits in frames that no machine further down has does not wait further down. -/
theorem line_not_mem (sub : acts.Sublist c.stack) (roots : Roots trace fs)
    (apart : ∀ n ∈ machines acts, ∀ x ∈ fs.flatMap Val.keys,
      x ∉ (c.world.store.stack n).flatMap Val.keys)
    (line : Line c.world fs l) (below : Joins c.world acts l') :
    ∀ i ∈ bodies l, i ∉ bodies l' ++ seats acts := by
  intro i mem mem'
  obtain ⟨h, t, k, on, hang, here⟩ := line.of_mem mem
  have idle {b : Activation G} {e : Gen} (mem : b ∈ acts) (body : b.active? = some e)
      (same : e.id = i) : False :=
    hang.idle here (same ▸ Manned.running footing.ordered.active (sub.subset mem) body)
  rcases List.mem_append.1 mem' with mem' | mem'
  · rcases below.of_mem mem' with ⟨n, mem_n, e, u, k', on', hang', here'⟩ | ⟨e, q, f, there, same⟩
    · have other : h.id ≠ e.id := fun same =>
        apart n mem_n _ (Key.mem_of_frame on) (same ▸ Key.mem_of_frame on')
      exact hang.disjoint hang' footing.recorded footing.descent (roots h t on)
        (footing.roots signal n e u on') other here here'
    · exact idle there rfl same
  · obtain ⟨b, there, found⟩ := List.mem_filterMap.1 mem'
    cases b with
    | running e q => exact idle there rfl (Option.some.inj found)
    | _ => cases found

omit signal in
/-- What a machine on the stack has is not on the stack of another one there. -/
theorem apart_machines (sub : (.running g (.library (.machine m p)) :: acts).Sublist c.stack) :
    ∀ n ∈ machines acts, ∀ x ∈ (c.world.store.stack m).flatMap Val.keys,
      x ∉ (c.world.store.stack n).flatMap Val.keys := by
  intro n mem x here there
  have one : m = n := footing.ordered.owning.unique (footing.ordered.inside_machines sub.subset (by simp))
    (footing.ordered.inside_machines sub.subset (by simp [mem])) here there
  have once := footing.ordered.nodup_machines sub
  rw [machines_machine, List.nodup_cons] at once
  exact once.1 (one ▸ mem)

/-- What waits down the joined stack is distinct. -/
theorem nodup_joins (sub : acts.Sublist c.stack) (joins : Joins c.world acts l) :
    (bodies l ++ seats acts).Nodup := by
  have ordered := footing.ordered
  induction joins with
  | nil => simp [seats]
  | @machine g m p fs acts l l' guards line below ih =>
      have here := sub.subset (.head _)
      have rest := (List.sublist_cons_self _ acts).trans sub
      have roots := footing.roots_of_suffix signal guards.suffix
      obtain ⟨above, split⟩ := guards.suffix
      have within (x : Key) (mem : x ∈ fs.flatMap Val.keys) :
          x ∈ (c.world.store.stack m).flatMap Val.keys := by
        rw [← split, List.flatMap_append]
        exact List.mem_append_right _ mem
      have distinct : (bodies l).Nodup := by
        refine line.nodup footing.recorded footing.descent roots ?_
        have once := ordered.owning.once_stacked (footing.ordered.inside_machines sub.subset (by simp : m ∈ _))
        rw [← split, List.flatMap_append, List.nodup_append] at once
        exact once.2.1
      have apart := footing.line_not_mem signal rest roots
        (fun n mem x here => footing.apart_machines sub n mem x (within x here)) line below
      have top := footing.top_not_mem sub rfl below
      have idle : g.id ∉ bodies l := fun mem => by
        obtain ⟨h, t, k, -, hang, there⟩ := line.of_mem mem
        exact hang.idle there (Manned.running ordered.active here rfl)
      have further := ih rest
      simp only [bodies_append, seats_running]
      grind
  | @relays g e p acts l below ih =>
      have further := ih ((List.sublist_cons_self _ acts).trans sub)
      simpa using ⟨by simpa using footing.top_not_mem sub rfl below, further⟩

end Distinct

end Footing

end OneShot
