import OneShot.Proofs.Frames.Dispatch
import OneShot.Proofs.Frames.Following
import OneShot.Proofs.Frames.Resting

/-!
# Depth

The machines that a buried frame holds are spent.  So the machines under way that are
reached from one another through the topmost frames of their stacks get no more by
effects that are handled or by continuations that are resumed, but only when a machine
makes its first step.
-/

namespace OneShot

open Store (Quietly)

variable {G : Guest} {trace : Trace G} {c d : Config G}

/-! ## What frames hold -/

/-- `g` has `e` run in its place. -/
def Config.Relays (c : Config G) (g e : Gen) : Prop :=
  (∃ p, c.world.status g = .delegating p e) ∨ ∃ h p, h.id = g.id ∧ .relaying h p e ∈ c.stack

/--
`e` is `g`, or what that has run in its place, and so on, where nothing was closed on
the way.
-/
inductive Holds (trace : Trace G) (c : Config G) : Gen → Gen → Prop
  | self (g : Gen) : Holds trace c g g
  | through {g h e : Gen} (unclosed : g.id ∉ trace.closed) (relays : c.Relays g h)
      (further : Holds trace c h e) : Holds trace c g e

/-- What runs is not suspended. -/
theorem Config.Active.ne_of_mem (active : c.Active) {a : Activation G} {g h : Gen} {t : Status G}
    (mem : a ∈ c.stack) (body : a.active? = some h) (same : h.id = g.id)
    (status : c.world.status g = t) (idle : t ≠ .running) : False := by
  have running := World.status_of (Manned.running active mem body)
  rw [World.status_congr _ same, status] at running
  exact idle running

/-- What something at rest holds is at rest. -/
theorem Rests.of_holds {g e : Gen} (holds : Holds trace c g e) (rests : Rests trace c g)
    (active : c.Active) (recorded : Recorded trace c) : Rests trace c e := by
  induction holds with
  | self g => exact rests
  | @through g h e unclosed relays further ih =>
      cases rests with
      | spent ran spent still =>
          rcases relays with ⟨p, status⟩ | ⟨g', p, same, mem⟩
          · exact (recorded.manned _ _ _ ran (World.getElem?_of_status status (by simp))).elim
          · obtain ⟨q, machine⟩ := recorded.bodies _ g' _ (same.symm ▸ ran) mem rfl
            cases machine
      | closed closed inside other => exact absurd closed unclosed
      | waits status other =>
          rcases relays with ⟨p, status'⟩ | ⟨g', p, same, mem⟩
          · rw [status] at status'
            cases status'
          · exact (active.ne_of_mem mem rfl same status (by simp)).elim
      | relays status inner =>
          rcases relays with ⟨p, status'⟩ | ⟨g', p, same, mem⟩
          · rw [status] at status'
            cases status'
            exact ih inner
          · exact (active.ne_of_mem mem rfl same status (by simp)).elim

/-- A machine at rest is spent. -/
theorem Rests.machine {e : Gen} {m : Nat} (rests : Rests trace c e) (recorded : Recorded trace c)
    (ran : (m, e.id) ∈ trace.ran) : Spent c e m ∧
      (c.world.status e = .suspended (.library (.machine m .resent)) .inner ∨
        e.id ∈ trace.closed) := by
  cases rests with
  | spent ran' spent still =>
      obtain rfl := recorded.alone _ _ _ ran ran'
      exact ⟨spent, still⟩
  | closed closed inside other => exact absurd ran (other m)
  | waits status other => exact absurd ran (other m)
  | relays status inner =>
      exact (recorded.manned _ _ _ ran (World.getElem?_of_status status (by simp))).elim

/-! ## Machines under way -/

/-- A machine has begun and has something on its stack. -/
def Live (trace : Trace G) (c : Config G) (m : Nat) : Prop :=
  m ∈ trace.stepped ∧ c.world.store.stack m ≠ []

/-- Or it waits for a clause to make something of what it has captured. -/
def Busy (trace : Trace G) (c : Config G) (m : Nat) : Prop :=
  m ∈ trace.stepped ∧
    (c.world.store.stack m ≠ [] ∨ ∃ a ∈ c.stack, a.machine? = some (m, .calling))

/-- A number of machines under way, each reached through the topmost frame of the one before. -/
inductive Depth (trace : Trace G) (c : Config G) (way : Nat → Prop) : Nat → Nat → Prop
  | one {m : Nat} (here : way m) : Depth trace c way m 1
  | next {m n k : Nat} {g e : Gen} {t : Tag} {rest : List Val} (here : way m)
      (top : c.world.store.stack m = .frame (.generator (.gen g) t) :: rest)
      (holds : Holds trace c g e) (ran : (n, e.id) ∈ trace.ran) (below : Depth trace c way n k) :
      Depth trace c way m (k + 1)

theorem Depth.mono {way way' : Nat → Prop} {m k : Nat} (depth : Depth trace c way m k)
    (imp : ∀ m, way m → way' m) : Depth trace c way' m k := by
  induction depth with
  | one here => exact .one (imp _ here)
  | next here top holds ran below ih => exact .next (imp _ here) top holds ran ih

theorem Live.busy {m : Nat} (live : Live trace c m) : Busy trace c m :=
  ⟨live.1, .inl live.2⟩

theorem Busy.live {m : Nat} (busy : Busy trace c m)
    (idle : ∀ a ∈ c.stack, ∀ m, a.machine? ≠ some (m, .calling)) : Live trace c m :=
  ⟨busy.1, busy.2.resolve_right fun ⟨a, mem, machine⟩ => idle a mem m machine⟩

/-- A spent machine is not under way. -/
theorem Spent.not_busy {e : Gen} {m : Nat} (spent : Spent c e m) (standing : Standing trace c)
    (ran : (m, e.id) ∈ trace.ran) : ¬ Busy trace c m := by
  rintro ⟨-, some_stack | ⟨a, mem, machine⟩⟩
  · exact some_stack spent.1
  · obtain ⟨i, rfl, ran', -⟩ := standing.seated.machine mem machine
    have same := standing.seated.once m _ _ ran' ran
    rcases spent.2 with suspended | ⟨h, rest, r, same', stack, -⟩ | ending
    · exact standing.active.ne_of_mem mem rfl same suspended (by simp)
    · rw [stack] at mem
      rcases List.mem_cons.1 mem with here | below
      · cases here
      · exact standing.seated.alone standing.active (stack.trans (List.nil_append _).symm) below
          rfl rfl
    · exact standing.active.ne_of_mem mem rfl same ending (by simp)

/-- A machine that has nothing and waits for no clause gets nothing in a turn. -/
theorem Machine.Does.idle {s t : Store} {m : Nat} {p : Phase} {r : Reply} {moved : Turn Phase}
    (does : Does s m p r t moved) (own : s.Own) (inside : m < s.machines.size)
    (holding : p.Holding (s.stack m)) (empty : s.stack m = []) (other : p ≠ .calling) :
    t.stack m = [] ∧ ∀ a, moved ≠ .ask a .calling := by
  have advancing {content : Val} (same : p = .advancing content) : False := by
    subst same
    obtain ⟨g, u, rest, -, top⟩ := holding
    rw [empty] at top
    contradiction
  cases does with
  | @settles _ _ o base left u _ _ delivers delivered after =>
      have sets := delivers.sets own inside after
      have of_stack (same : base = s.stack m) : t.stack m = [] ∧ ∀ a, moved ≠ .ask a .calling := by
        rw [empty] at same
        subst same
        cases delivered with
        | finish o =>
            refine ⟨sets.stack_eq, fun a same => ?_⟩
            cases o with
            | ok v => cases same
            | failed v => cases v <;> cases same
      cases delivers with
      | start r => exact of_stack rfl
      | answered r v waits => exact of_stack rfl
      | raised x waits => exact of_stack rfl
      | discarded op r x => exact of_stack rfl
      | pushed value made => exact absurd rfl other
      | _ => exact (advancing rfl).elim
  | halts left after ending unasked begun =>
      refine ⟨(sets_of_take left own after).stack_eq.trans empty, fun a same => ?_⟩
      rw [same] at ending
      contradiction
  | closes contents =>
      refine ⟨empty, fun a same => ?_⟩
      cases same
  | _ => exact (advancing rfl).elim

/-! ## Steps -/

section Step

variable (ordered : Ordered trace c) (recorded : Recorded trace c) (tidy : Tidy trace c)
  (stepped : c.step = .ok d)

include ordered tidy stepped

/-- What is under way after a step that is not its first was so before. -/
theorem Busy.before {m : Nat} (busy : Busy (c :: trace) d m)
    (old : ∀ m, c.stepped? = some m → m ∈ trace.stepped) : Busy trace c m := by
  have after := (ordered.toStanding.step tidy.toGenuine stepped).seated
  have begun : m ∈ trace.stepped := (Trace.mem_stepped_cons busy.1).elim (old m) id
  obtain ⟨i, ran⟩ := ordered.starting.inside m begun
  have inside := ordered.sound.ran m i ran
  refine ⟨begun, ?_⟩
  by_cases turning : c.stepped? = some m
  · obtain ⟨a, rest, r, p, stack, signal, machine⟩ := Config.stepped?_eq_some turning
    have mem : a ∈ c.stack := by simp [stack]
    obtain ⟨g, rfl, -⟩ := ordered.seated.machine mem machine
    by_cases calling : p = .calling
    · subst calling
      exact .inr ⟨_, mem, rfl⟩
    · refine .inl fun empty => ?_
      obtain ⟨t, moved, -, does, followed⟩ :=
        ordered.sound.follows ordered.seated stack signal stepped
      have holding := ordered.aligned.held _ mem m p rfl
      obtain ⟨nothing, uncalled⟩ := does.idle ordered.sound.own inside holding empty calling
      rcases busy.2 with some_stack | ⟨b, waits, machine'⟩
      · refine some_stack ?_
        have own := does.own ordered.sound.own inside
        rw [own.stack_eq (Store.machines_of_engine followed.quiet.engine), nothing]
      · obtain ⟨j, rfl, -⟩ := after.machine waits machine'
        obtain ⟨b, asks⟩ := followed.calling (fun there => ordered.seated.alone ordered.active
          (stack.trans (List.nil_append _).symm) there rfl rfl) waits
        exact uncalled b asks
  · rcases busy.2 with some_stack | ⟨a, waits, machine⟩
    · have shift := ordered.toStanding.shift tidy.toGenuine stepped
      rw [shift.stack_eq ordered.sound ordered.seated inside turning] at some_stack
      exact .inl some_stack
    · have before := ordered.toStanding.calling_before after stepped waits machine
      exact .inr ⟨a, before.resolve_right turning, machine⟩

omit tidy in
/-- What has something run in its place had so before, or has it from now on. -/
theorem Config.Relays.before {g e : Gen} (relays : d.Relays g e) :
    c.Relays g e ∨ ∃ h, h.id = g.id ∧ c.delegated? = some (h, e) := by
  rcases relays with ⟨p, status⟩ | ⟨h, p, same, mem⟩
  · have there := World.getElem?_of_status status (by simp)
    rcases (Config.moves_step stepped).sets ordered.active there with before | sets
    · exact .inl (.inl ⟨p, World.status_of before⟩)
    · cases sets with
      | hands stack signal same => exact .inl (.inr ⟨_, p, same, by rw [stack]; exact .head _⟩)
  · rcases Config.pushes_step stepped mem with before | pushes
    · exact .inl (.inr ⟨h, p, same, before⟩)
    · cases pushes with
      | relays status => exact .inl (.inl ⟨p, (World.status_congr _ same).symm.trans status⟩)
      | delegates stack signal turn passes made => exact .inr ⟨h, same, made⟩

include recorded

omit tidy in
/-- What was never advanced has nothing run in its place. -/
theorem Recorded.not_relays {g e : Gen} (new : g.id ∉ trace.entered) : ¬ d.Relays g e := by
  have begun {h : Gen} {t : Status G} (same : h.id = g.id) (status : c.world.gens[h.id]? = some t)
      (other : ∀ p, t ≠ .fresh p) (under : t ≠ .finished) : False := by
    rcases recorded.entered _ _ status with ⟨p, fresh⟩ | ending | entered
    · exact other p fresh
    · exact under ending
    · exact new (same ▸ entered)
  intro relays
  rcases Config.Relays.before ordered stepped relays with
    (⟨p, status⟩ | ⟨h, p, same, mem⟩) | ⟨h, same, made⟩
  · exact begun rfl (World.getElem?_of_status status (by simp)) (by simp) (by simp)
  · exact begun same (Manned.running ordered.active mem rfl) (by simp) (by simp)
  · obtain ⟨p, rest, stack⟩ := Config.stack_of_delegated made
    have mem : Activation.running h p ∈ c.stack := by rw [stack]; exact .head _
    exact begun same (Manned.running ordered.active mem rfl) (by simp) (by simp)

omit tidy in
/-- What was never advanced holds no machine that has begun. -/
theorem Recorded.holds_none {g e : Gen} {n : Nat} (new : g.id ∉ trace.entered)
    (holds : Holds (c :: trace) d g e) (ran : (n, e.id) ∈ trace.ran) (begun : n ∈ trace.stepped) :
    False := by
  cases holds with
  | self => exact new (recorded.stepped n _ ran begun)
  | through unclosed relays further =>
      exact recorded.not_relays ordered stepped new relays

/-- Machines under way were held in the same way before. -/
theorem Holds.before {g e : Gen} {n : Nat} (holds : Holds (c :: trace) d g e)
    (ran : (n, e.id) ∈ trace.ran) (begun : n ∈ trace.stepped) : Holds trace c g e := by
  induction holds with
  | self g => exact .self g
  | @through g h e unclosed relays further ih =>
      have unclosed' : g.id ∉ trace.closed :=
        fun closed => unclosed (Trace.mem_closed_cons.2 (.inr closed))
      rcases Config.Relays.before ordered stepped relays with before | ⟨i, same, made⟩
      · exact .through unclosed' before (ih ran)
      · have new := (tidy.delegated i h made).2.2
        exact (recorded.holds_none ordered stepped new further ran begun).elim

/-- What is on top of the stack of a machine that has made a step held what is under way before. -/
theorem Resting.top_before (resting : Resting trace c) {m n : Nat} {g e : Gen} {t : Tag}
    {below : List Val} (turning : c.stepped? = some m)
    (top : d.world.store.stack m = .frame (.generator (.gen g) t) :: below)
    (holds : Holds (c :: trace) d g e) (ran : (n, e.id) ∈ trace.ran) (busy : Busy trace c n) :
    Holds trace c g e ∧ ∃ u rest, c.world.store.stack m = .frame (.generator (.gen g) u) :: rest := by
  have held := holds.before ordered recorded tidy stepped ran busy.1
  obtain ⟨a, rest, r, p, stack, signal, machine⟩ := Config.stepped?_eq_some turning
  have mem : a ∈ c.stack := by simp [stack]
  obtain ⟨i, rfl, ran', -⟩ := ordered.seated.machine mem machine
  have inside := ordered.sound.ran m _ ran'
  obtain ⟨t', moved, -, does, followed⟩ :=
    ordered.sound.follows ordered.seated stack signal stepped
  have own := does.own ordered.sound.own inside
  have buries := resting.keeps.buries ordered tidy stack signal does
  rw [own.stack_eq (Store.machines_of_engine followed.quiet.engine)] at top
  rcases buries.top _ _ top with rests | head | ⟨h, u, same, framed⟩
  · obtain ⟨spent, -⟩ :=
      ((rests g t rfl).of_holds held ordered.active recorded).machine recorded ran
    exact absurd busy (spent.not_busy ordered.toStanding ran)
  · obtain ⟨rest', stack'⟩ := List.head?_eq_some_iff.1 head
    exact ⟨held, t, rest', stack'⟩
  · cases same
    obtain ⟨-, unframed, unadvanced⟩ :=
      tidy.framed g ((Config.framed?_machine stack signal).trans framed)
    refine (recorded.holds_none ordered stepped (fun entered => ?_) holds ran busy.1).elim
    exact (recorded.entries _ entered).elim unframed unadvanced

/-- A step lengthens no chain of machines under way, unless it is the first one of a machine. -/
theorem Depth.before (resting : Resting trace c) {m k : Nat}
    (depth : Depth (c :: trace) d (Busy (c :: trace) d) m k)
    (old : ∀ m, c.stepped? = some m → m ∈ trace.stepped) : Depth trace c (Busy trace c) m k := by
  induction depth with
  | one here => exact .one (here.before ordered tidy stepped old)
  | @next m n k g e t rest here top holds ran below ih =>
      have busy : Busy trace c n := by
        cases ih with
        | one here => exact here
        | next here => exact here
      have ran' : (n, e.id) ∈ trace.ran := by
        obtain ⟨i, before⟩ := ordered.starting.inside n busy.1
        exact (Trace.mem_ran_cons ran).resolve_left fun now =>
          (tidy.toGenuine.ran n _ now).2 i before
      have here' := here.before ordered tidy stepped old
      by_cases turning : c.stepped? = some m
      · obtain ⟨held, u, rest', top'⟩ :=
          resting.top_before ordered recorded tidy stepped turning top holds ran' busy
        exact .next here' top' held ran' ih
      · obtain ⟨i, ran_m⟩ := ordered.starting.inside m here'.1
        have shift := ordered.toStanding.shift tidy.toGenuine stepped
        have inside := ordered.sound.ran m i ran_m
        rw [shift.stack_eq ordered.sound ordered.seated inside turning] at top
        exact .next here' top (holds.before ordered recorded tidy stepped ran' busy.1) ran' ih

end Step

/-! ## Deciding tidiness -/

theorem tidy_iff : Tidy trace c ↔ Orderly trace c ∧
    (∀ q ∈ c.delegated?, q.2.id < c.world.gens.size ∧ q.2.id ∉ trace.framed ∧
      q.2.id ∉ trace.entered) ∧
    ∀ g ∈ c.entered?, ∀ q ∈ trace.delegated, q.2 = g.id →
      (c.stack.head?.any fun
        | .relaying h _ e => decide (e = g ∧ h.id = q.1)
        | _ => false) = true := by
  constructor
  · rintro ⟨orderly, delegated, sole⟩
    refine ⟨orderly, fun q made => delegated q.1 q.2 made, fun g asked q mem same => ?_⟩
    unfold Config.entered? at asked
    split at asked
    · rename_i g' i signal
      cases asked
      obtain ⟨h, p, head, same'⟩ := sole g i q.1 signal (same ▸ mem)
      simp [head, same']
    · contradiction
  · rintro ⟨orderly, delegated, sole⟩
    refine ⟨orderly, fun g e made => delegated (g, e) made, fun g i j signal mem => ?_⟩
    have found := sole g (by simp [Config.entered?, signal]) (j, g.id) mem rfl
    cases head : c.stack.head? with
    | none => simp [head] at found
    | some a =>
        cases a <;> simp [head] at found
        obtain ⟨rfl, rfl⟩ := found
        exact ⟨_, _, rfl, rfl⟩

instance (trace : Trace G) (c : Config G) : Decidable (Tidy trace c) :=
  decidable_of_iff _ tidy_iff.symm

/-! ## Runs -/

/-- What holds all along a tidy run. -/
structure Tended (trace : Trace G) (c : Config G) : Prop where
  ordered : Ordered trace c
  recorded : Recorded trace c
  resting : Resting trace c

theorem RunOf.tended (run : RunOf Tidy trace c) : Tended trace c := by
  induction run with
  | start fresh => exact ⟨.of_fresh fresh, .of_fresh fresh, .of_fresh fresh⟩
  | step before tidy stepped ih =>
      obtain ⟨ordered, recorded, resting⟩ := ih
      exact {
        ordered := ordered.step tidy.toOrderly stepped
        recorded := recorded.step ordered.toStanding stepped ordered.starting tidy.toGenuine
        resting := resting.step ordered recorded tidy stepped }

/-- A run goes on from `c` to `d`, and no machine makes its first step in it. -/
inductive Onward (trace : Trace G) (c : Config G) : Trace G → Config G → Prop
  | refl : Onward trace c trace c
  | step {later : Trace G} {d d' : Config G} (before : Onward trace c later d) (tidy : Tidy later d)
      (stepped : d.step = .ok d') (old : ∀ m, d.stepped? = some m → m ∈ later.stepped) :
      Onward trace c (d :: later) d'

theorem Onward.run {later : Trace G} (onward : Onward trace c later d) (run : RunOf Tidy trace c) :
    RunOf Tidy later d := by
  induction onward with
  | refl => exact run
  | step before tidy stepped old ih => exact .step ih tidy stepped

theorem Onward.depth {later : Trace G} (onward : Onward trace c later d) (run : RunOf Tidy trace c)
    {m k : Nat} (depth : Depth later d (Busy later d) m k) : Depth trace c (Busy trace c) m k := by
  induction onward with
  | refl => exact depth
  | step before tidy stepped old ih =>
      obtain ⟨ordered, recorded, resting⟩ := (before.run run).tended
      exact ih (depth.before ordered recorded tidy stepped resting old)

/--
A machine that a buried frame holds has no stack, and waits at its resend unless it was
closed there.  And unless a machine makes its first step, chains of machines under way
only get shorter, counted where no machine is about to make something of a clause.
-/
theorem RunOf.buried_spent (run : RunOf Tidy trace c) :
    (∀ g t e m, Buried trace c (.frame (.generator (.gen g) t)) → Holds trace c g e →
      (m, e.id) ∈ trace.ran → c.world.store.stack m = [] ∧
        (c.world.status e = .suspended (.library (.machine m .resent)) .inner ∨
          e.id ∈ trace.closed)) ∧
    ∀ later d m k, Onward trace c later d → (∀ a ∈ c.stack, ∀ m, a.machine? ≠ some (m, .calling)) →
      Depth later d (Live later d) m k → Depth trace c (Live trace c) m k := by
  obtain ⟨ordered, recorded, resting⟩ := run.tended
  refine ⟨fun g t e m buried holds ran => ?_, fun later d m k onward idle depth => ?_⟩
  · have rests := (resting.buried _ buried g t rfl).of_holds holds ordered.active recorded
    obtain ⟨spent, still⟩ := rests.machine recorded ran
    exact ⟨spent.1, still⟩
  · have busy := onward.depth run (depth.mono fun m live => live.busy)
    exact busy.mono fun m busy => busy.live idle

/-! ## Machines in the frames of continuations -/

/-- What a generator has run in its place, or itself. -/
def Config.inner (c : Config G) (g : Gen) : Gen :=
  match c.world.status g with
  | .delegating _ e => e
  | _ => g

/-- A machine that a frame of a continuation holds. -/
structure Held where
  cont : Cont
  outer : Gen
  tag : Tag
  inner : Gen
  machine : Nat

/-- The first machine that a frame of a continuation holds. -/
def Config.held? (trace : Trace G) (c : Config G) (k : Cont) : Option Held :=
  (c.world.store.frames k).findSome? fun
    | .frame (.generator (.gen g) t) =>
      (trace.ran.find? (·.2 == (c.inner g).id)).map fun q => ⟨k, g, t, c.inner g, q.1⟩
    | _ => none

theorem Config.of_held? {k : Cont} {h : Held} (found : c.held? trace k = some h) :
    .frame (.generator (.gen h.outer) h.tag) ∈ c.world.store.frames k ∧
      h.inner = c.inner h.outer ∧ (h.machine, h.inner.id) ∈ trace.ran := by
  obtain ⟨v, mem, found⟩ := List.exists_of_findSome?_eq_some found
  split at found
  · obtain ⟨q, ran, rfl⟩ := Option.map_eq_some_iff.1 found
    refine ⟨mem, rfl, ?_⟩
    have same := List.find?_some ran
    simp only [beq_iff_eq] at same
    exact same ▸ List.mem_of_find?_eq_some ran
  · contradiction

theorem Holds.inner {g : Gen} (unclosed : g.id ∉ trace.closed) : Holds trace c g (c.inner g) := by
  unfold Config.inner
  split
  · rename_i p e status
    exact .through unclosed (.inl ⟨p, status⟩) (.self e)
  · exact .self g

open Script

theorem exists_held : ∃ (trace : Trace language) (c : Config language), RunOf Tidy trace c ∧
    (trace.closed.isEmpty && (c.held? trace ⟨1, true⟩).isSome &&
      !c.world.store.isTaken ⟨1, true⟩) = true :=
  exists_run (fresh_begin crossing) 120 (by decide +kernel)

/-- A machine that a resend has passed is in a continuation that was not taken yet, and is spent. -/
theorem RunOf.buried_spent_crossing : ∃ (trace : Trace language) (c : Config language) (k : Cont)
    (g e : Gen) (t : Tag) (m : Nat), RunOf Tidy trace c ∧ c.world.store.isTaken k = false ∧
      .frame (.generator (.gen g) t) ∈ c.world.store.frames k ∧ Holds trace c g e ∧
      (m, e.id) ∈ trace.ran ∧ c.world.store.stack m = [] := by
  obtain ⟨trace, c, run, found⟩ := exists_held
  simp only [Bool.and_eq_true, List.isEmpty_iff, Bool.not_eq_true'] at found
  obtain ⟨⟨unclosed, some_held⟩, kept⟩ := found
  obtain ⟨h, held⟩ := Option.isSome_iff_exists.1 some_held
  obtain ⟨mem, inner, ran⟩ := Config.of_held? held
  have holds : Holds trace c h.outer h.inner := inner ▸ .inner (by simp [unclosed])
  have spent := (RunOf.buried_spent run).1 _ _ _ _ (.slices (.inl kept) mem) holds ran
  exact ⟨trace, c, _, _, _, _, _, run, kept, mem, holds, ran, spent.1⟩

namespace Script

/-- A program that resumes a computation, which then runs another one under a handler. -/
def goingFurther : Function :=
  ⟨.plain, "main", [], ["ask", "tell", "inner", "body"], [
    .assign "ask" (uses (.op .effect) []),
    .assign "tell" (uses (.op .effect) []),
    .assign "inner" (.function ⟨.generator, "inner", [], [], [
      .result (.yield (uses (.service (.build .escape)) [.literal .none]))]⟩),
    .assign "body" (.function ⟨.generator, "body", [], [], [
      .expr (.yield (.call (.name "ask") [])),
      .result (.delegate (uses (.service .handle) [
        uses (.op .handler) [.name "tell", .literal .none, .name "ask"], .name "inner"]))]⟩),
    .result (uses (.service .execute) [.function ⟨.plain, "outer", [], [], [
      .result (uses (.service .handle) [
        uses (.op .handler) [.name "ask", .literal .none,
          .function ⟨.generator, "clause", ["k"], [], [
            .result (.delegate (.call (.name "k") [.literal (.int 1)]))]⟩],
        .name "body"])]⟩])]⟩

end Script

theorem exists_going_further : ∃ (trace : Trace language) (c : Config language),
    RunOf Tidy trace c ∧ (trace.closed.isEmpty &&
      (c.held? trace ⟨0, false⟩).any fun h => !(c.world.store.stack h.machine).isEmpty) = true :=
  exists_run (fresh_begin goingFurther) 155 (by decide +kernel)

/--
It is not so that every machine in the frames of a continuation is spent: once it is
resumed, a continuation lists frames that go on.
-/
theorem not_all_spent : ¬ ∀ (trace : Trace language) (c : Config language), RunOf Tidy trace c →
    ∀ k g t e m, .frame (.generator (.gen g) t) ∈ c.world.store.frames k → Holds trace c g e →
      (m, e.id) ∈ trace.ran → c.world.store.stack m = [] := by
  intro spent
  obtain ⟨trace, c, run, found⟩ := exists_going_further
  simp only [Bool.and_eq_true, List.isEmpty_iff, Option.any_eq_true, Bool.not_eq_true'] at found
  obtain ⟨unclosed, h, held, stacked⟩ := found
  obtain ⟨mem, inner, ran⟩ := Config.of_held? held
  have holds : Holds trace c h.outer h.inner := inner ▸ .inner (by simp [unclosed])
  have empty := spent trace c run _ _ _ _ _ mem holds ran
  rw [empty] at stacked
  contradiction

end OneShot
