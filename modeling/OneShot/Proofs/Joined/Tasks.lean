import OneShot.Proofs.Joined.Simulating

/-!
# Tasks

A computation under an asynchronous driver as a task, which is advanced now and then.  When
it gives way, its driver waits for the coroutine of an action, or passes an outcome in next
time.  What is known of it then are facts of its own, so whatever else happens to the world
in the meantime leaves them alone.
-/

namespace OneShot.Joined

open Config (Leads)
open Deep (Failure Result)

variable {c : Code}

/-! ## A task at rest, and advanced -/

variable {V : Drivers c} {J J' : Program c} {mem : Memo c} {A : List (Activation (guest c))}
  {F R : Facts (guest c)} {D : Base c} {C : Config (guest c)} {d e root : Gen} {n : Nat} {t : c.Task}
  {s : c.State} {a : Deep.Answer} {hs : List (Hop (guest c))} {M : Memory c} {ending : Ending}

/-- The driver of a task, advanced by an event loop that knows of other things besides. -/
inductive TaskDriver (d : Gen) (R : Facts (guest c)) : Drivers c
  | mk (n : Nat) : TaskDriver d R (fun g => [.running d (.library (.executeAsync (.running g n)))])
      ({.gen d.id .running} + R)

/-- The driver of a task while it awaits what an action has given. -/
def awaitingHop (d root : Gen) (n : Nat) : Hop (guest c) := ⟨d, .library (.executeAsync (.awaiting root n))⟩

/-- Whatever outcome the driver passes in, the code goes on that waits for it. -/
def Wakes (d root : Gen) (n : Nat) (J : Program c) (s : c.State) (mem : Memo c) (F : Facts (guest c)) : Prop :=
  ∀ (R : Facts (guest c)) (a : Deep.Answer) (M : Memory c) (C : Config (guest c)),
    At [.running d (.library (.executeAsync (.running root n)))] (.advance root a.input) { mem with memory := M }
      ({.gen d.id .running} + (F + R)) C → Leads 0 C (Going (TaskDriver d R) { J with memory := M } s a)

theorem Wakes.of_eq (h : Wakes d root n J s mem F) (slices : J'.slices = J.slices) (stack : J'.stack = J.stack) :
    Wakes d root n J' s mem F := fun R a M C there =>
  (h R a M C there).mono fun _ going => going.of_eq rfl slices stack

/-- A task that is not advanced, with what is known of it. -/
inductive Parked (d : Gen) (J : Program c) (mem : Memo c) : Facts (guest c) → Prop
  | fresh {p : Comp c.State} (begins : J = begin p mem.memory.data) (log : mem.memory.log = [])
      (handles : mem.handles = []) (there : mem.thunks[0]? = some (p.wraps, p.source)) :
      Parked d J mem {.gen d.id (.fresh (.library (.executeAsync (.start (thunk 0)))))}
  | awaiting {t : c.Task} {s : c.State} {e root : Gen} {n : Nat} {hs : List (Hop (guest c))} {F : Facts (guest c)}
      (control : J.control = .task t s) (memory : mem.memory = J.memory) (handing : Handing hs)
      (wakes : Wakes d root n J s mem F) :
      Parked d J mem ({.gen e.id (.suspended (.guest (Body.task t)) .pause)} +
        (restingHops e (hs ++ [awaitingHop d root n]) + F))
  | pausing {s : c.State} {a : Deep.Answer} {root : Gen} {n : Nat} {F : Facts (guest c)}
      (control : J.control = .code s a) (memory : mem.memory = J.memory) (wakes : Wakes d root n J s mem F) :
      Parked d J mem ({.gen d.id (.suspended (pausingRoutine root n a) .pause)} + F)

theorem Parked.memory (h : Parked d J mem F) : mem.memory = J.memory := by
  cases h with
  | fresh begins log handles there =>
      subst begins
      rw [begin, ← log]
  | awaiting control memory => exact memory
  | pausing control memory => exact memory

/-- A task is advanced, and its computation or the coroutine of an action goes on. -/
inductive Works (d : Gen) (R : Facts (guest c)) (J : Program c) (C : Config (guest c)) : Prop
  | carries (carries : Carries (TaskDriver d R) J C)
  | task {t : c.Task} {s : c.State} {e root : Gen} {n : Nat} {hs : List (Hop (guest c))} {F : Facts (guest c)}
      {mem : Memo c} (control : J.control = .task t s) (memory : mem.memory = J.memory) (handing : Handing hs)
      (wakes : Wakes d root n J s mem F)
      (here : At (.running e (.guest (Body.task t)) :: relayingHops e (hs ++ [awaitingHop d root n]))
        (.reply (.value .none)) mem ({.gen e.id .running} + (runningHops (hs ++ [awaitingHop d root n]) + (F + R))) C)

/-- A task gives way. -/
def Rests (d : Gen) (R : Facts (guest c)) (J : Program c) (C : Config (guest c)) : Prop :=
  ∃ mem F, Parked d J mem F ∧ At [] (.reply (.yielded .none)) mem (F + R) C

/-- A task has ended, and nothing is left of it. -/
def Gone (R : Facts (guest c)) (M : Memory c) (e : Ending) (C : Config (guest c)) : Prop :=
  ∃ mem r, mem.memory = M ∧ e.Replies r ∧ At [] (.reply r) mem R C

/-- A task that was parked goes on when it is advanced. -/
theorem Parked.advances (h : Parked d J mem F) (here : At [] (.advance d (.send .none)) mem (F + R) C) :
    Leads 1 C (Works d R J) := by
  cases h with
  | @fresh p begins log handles there =>
      subst begins
      refine ((At.fresh here).followed fun C₁ entered => ?_)
      have begun := At.begins (some d) (TaskDriver.mk (R := R) 0) (fun g => rfl) (fun st => rfl)
        (fun st g => rfl) (fun st g => rfl) there log handles entered
      exact (begun.mono fun C₂ carries => .carries carries).eventually
  | @awaiting t s e root n hs F control memory handing wakes =>
      have outer : At [] (.advance (bottom e (hs ++ [awaitingHop d root n])) (Deep.Answer.value .none).input) mem
          (restingHops e (hs ++ [awaitingHop d root n]) +
            ({.gen e.id (.suspended (.guest (Body.task t)) .pause)} + (F + R))) C := by
        rw [bottom_concat]
        exact At.of_eq here (by abel)
      refine (At.intoChain outer).bind (n := 1) fun C₁ there => ?_
      have woken := At.suspended (there.of_eq (add_left_comm _ _ _))
      refine woken.mono fun C₂ running => .task (e := e) control memory handing wakes ?_
      rw [List.append_nil] at running
      exact running
  | @pausing s a root n F control memory wakes =>
      refine (At.sendsIn (here.of_eq (add_assoc _ _ _))).followed fun C₁ sent => ?_
      refine (wakes R a mem.memory C₁ sent).mono fun C₂ going => .carries (.code control ?_)
      exact going.of_eq memory.symm rfl rfl

/-! ## Steps -/

/-- What comes of a step of the program of a task. -/
inductive Proceeds (d : Gen) (R : Facts (guest c)) (J : Program c) (C : Config (guest c)) :
    Except (Memory c × Ending) (Program c) → Prop
  | goes {J' : Program c} (works : Leads 1 C (Works d R J') ∨ Leads 0 C (Works d R J') ∧ J'.weight < J.weight) :
      Proceeds d R J C (.ok J')
  | rests {J' : Program c} (rests : Leads 0 C (Rests d R J')) : Proceeds d R J C (.ok J')
  | ends {M : Memory c} {e : Ending} (gone : Leads 0 C (Gone R M e)) : Proceeds d R J C (.error (M, e))

/-- The driver of a task ends with what its machine ends with. -/
theorem Arrived.leavesTask {es : List (Entry c)} {B : Facts (guest c)} {r : Result} (driver : TaskDriver d R D B)
    (h : Arrived D r mem (entryFacts es + B) [] C) : Leads 0 C (Gone R mem.memory (.result r)) := by
  generalize none_left : ([] : List (Mark c.State)) = ms at h
  cases h with
  | out here =>
      cases driver with
      | mk n =>
          have ended := At.libraryEnds (a := r.answer) (At.of_eq here (add_left_comm _ _ _)) fun st => by
            cases r.answer with
            | value v => exact ⟨Store.engine_note _ _ _, rfl⟩
            | failed x => exact ⟨rfl, rfl⟩
          exact (ended.mono fun C' there => ⟨mem, _, rfl, .result r, there.right⟩).eventually
  | _ => contradiction

/-- The driver of a task gives up, and closes what is left of its computation. -/
theorem Uncaught.leavesTask {e : Effect} (h : Uncaught (TaskDriver d R) J e s C) :
    Leads 0 C (Gone R (J.memory.closing (.code s :: J.stack)) (.uncaught e)) := by
  obtain ⟨D, B, es, mem, args, context, p, us, k, id, g, m, driver, recalls, place, marked, here⟩ := h
  cases driver with
  | mk n =>
      have closed := At.abandons (I := {.gen d.id .running}) (some d) (q := .executeAsync (.running g n))
        (R := {.cont k.index (vals (p :: us)) false} + ((Tip.relay m).facts + (entryFacts es + R)))
        (fun rest => .executeAsync (.abandoning (.resend id ⟨.effect e, args, .cont k, context⟩) rest))
        (fun st => rfl) (fun st v rest => rfl) (fun rest same => by cases same; rfl)
        (fun w bears => ?_) ((Tip.relay m).leaves.closes _) (At.of_eq here (by abel))
      · refine closed.leads.followed fun C₁ there => ?_
        obtain ⟨C₂, x, stepped, replies, turned⟩ := At.errs (givesUp_resend place id e args (.cont k))
          (fun st => rfl) there
        have left := Turning.ends (turned.of_eq (add_left_comm _ _ _))
        refine (Leads.step stepped (.here ⟨_, _, ?_, replies, left.right.right.right.right⟩)).eventually
        rw [Memory.closing_eq, stackMarks_cons, ← recalls.memory]
        simp [Memo.exits, marked, Tip.marks, Part.marks]
      · have frames := (bears.of_eq (E := {.cont k.index (vals (p :: us)) false} + ({.gen d.id .running} +
          (facts (p :: us) + ({.gen g.id (.suspended (Tip.relay m).routine (Tip.relay m : Tip c).how)} +
            ((Tip.relay m).facts + (entryFacts es + R)))))) (by abel)).frames
        simp only [OneShot.Driver.abandoned, frames, contents]

/-- The driver of a task awaits what an action has given, which then runs in the task. -/
theorem Escaped.worksTask {es : List (Entry c)} {B : Facts (guest c)} {held : List (Mark c.State)}
    (driver : TaskDriver d R D B) (recalls : Recalls J es mem)
    (h : Escaped D t s (stackMarks J.stack) mem (entryFacts es + B) held C) :
    Leads 1 C (Works d R { J with control := .task t s }) := by
  obtain ⟨root, id, action, E, F, asking, paused, here⟩ := h.paused
  cases driver with
  | mk n =>
      refine (At.awaited (R := F + (entryFacts es + R)) asking.launches (At.of_eq here (by abel))).mono ?_
      rintro C' ⟨e, hs, handing, there⟩
      have woken : Wakes d root (n + 1) { J with control := .task t s } s mem (F + entryFacts es) := by
        intro R' a M C₁ sent
        have running := paused.wakes (D := fun g => [.running d (.library (.executeAsync (.running g (n + 1))))])
          (R := entryFacts es + ({.gen d.id .running} + R')) (At.of_eq sent (by abel))
        exact running.mono fun C₂ running => ⟨_, _, es, { mem with memory := M }, .waiting s, a.reply,
          .mk (n + 1), ⟨rfl, recalls.handles, recalls.slices⟩, goes_waiting s a, running⟩
      refine .task (e := e) rfl recalls.memory handing woken ?_
      rw [relayingHops_concat, runningHops_concat]
      exact there.of_eq (by simp only [awaitingHop]; abel)

theorem Carries.proceeds (h : Carries (TaskDriver d R) J C) : Proceeds d R J C (J.next true) := by
  have comes := h.comes
  unfold Program.next
  generalize J.step = out at comes
  cases comes with
  | more advances =>
      exact .goes (advances.imp (fun leads => leads.mono fun C' => .carries)
        fun both => ⟨both.1.mono fun C' => .carries, both.2⟩)
  | finished driver recalls arrived => exact .ends (recalls.memory ▸ arrived.leavesTask driver)
  | leaves resent => exact .ends (resent.followed fun C' resent => resent.uncaught.leavesTask).eventually
  | escapes escapes =>
      refine .goes (.inl (escapes.followed fun C' escaped => ?_))
      obtain ⟨D, B, es, mem, driver, recalls, escaped⟩ := escaped
      exact (escaped.worksTask driver recalls).eventually

theorem Works.proceeds (h : Works d R J C) : Proceeds d R J C (J.next true) := by
  cases h with
  | carries carries => exact carries.proceeds
  | @task t s e root n hs F mem control memory handing wakes here =>
      simp only [Program.next, Program.step, control, ← memory]
      let mem₁ : Memo c := { mem with memory := (mem.memory.task t).1 }
      cases moved : (mem.memory.task t).2 with
      | pause t' =>
          have stepped : Body.step mem (.task t) (.value .none) =
              (mem₁, .ask (.yield .none .pause) (.task t')) := by
            simp only [Body.step, moved, mem₁]
          refine .rests ((At.guest (some e) here stepped).followed fun C₁ turned => ?_).eventually
          have given : At (relayingHops e (hs ++ [awaitingHop d root n]) ++ []) (.reply (.yielded .none)) mem₁
              (runningHops (hs ++ [awaitingHop d root n]) +
                ({.gen e.id (.suspended (.guest (Body.task t')) .pause)} + (F + R))) C₁ := by
            rw [List.append_nil]
            exact (Turning.yield turned).of_eq (add_left_comm _ _ _)
          have out := At.outOfChain given
          refine out.mono fun C₂ there =>
            ⟨mem₁, _, .awaiting (e := e) rfl rfl handing (wakes.of_eq rfl rfl), ?_⟩
          exact there.of_eq (by abel)
      | done a =>
          have stepped : Body.step mem (.task t) (.value .none) = (mem₁, a.turn) := by
            cases a <;> simp only [Body.step, moved, mem₁] <;> rfl
          refine .rests ((At.guest (some e) here stepped).followed fun C₁ turned => ?_).eventually
          rw [Deep.Answer.map_turn, relayingHops_concat, runningHops_concat] at turned
          refine (At.handsDown handing ((Turning.ends turned).of_eq (add_assoc _ _ _))).followed fun C₂ ended => ?_
          refine (At.ended ended).after fun C₃ ended => ?_
          refine ((At.pauses ended).mono fun C₄ there => ?_).eventually
          exact ⟨mem₁, _, .pausing rfl rfl (wakes.of_eq rfl rfl), there.of_eq (add_assoc _ _ _).symm⟩

/-! ## Advances -/

/-- Where an advance of a task comes to: the task gives way, after some steps of its program, or has ended. -/
def ComesBack (d : Gen) (R : Facts (guest c)) (J : Program c) (C : Config (guest c)) : Prop :=
  (∃ n J', J.Steps true (n + 1) J' ∧ Rests d R J' C) ∨ ∃ M e, J.Ends true M e ∧ Gone R M e C

/-- A step of the program before what is left of an advance. -/
theorem ComesBack.step (first : J.next true = .ok J') (h : ComesBack d R J' C) : ComesBack d R J C := by
  rcases h with ⟨n, J₁, steps, rests⟩ | ⟨M, e, ends, gone⟩
  · exact .inl ⟨n + 1, J₁, .succ first steps, rests⟩
  · exact .inr ⟨M, e, .step first ends, gone⟩

/-- The end of an advance. -/
theorem ComesBack.stops (h : ComesBack d R J C) : ∃ w r, C = ⟨w, [], .reply r⟩ := by
  rcases h with ⟨n, J', steps, mem, F, parked, w, rfl, -⟩ | ⟨M, e, ends, mem, r, same, replies, w, rfl, -⟩
  · exact ⟨w, _, rfl⟩
  · exact ⟨w, r, rfl⟩

/-- If the program ends, every advance of its task comes back. -/
theorem Works.comesBack (h : Works d R J C) (ends : J.Ends true M ending) : Leads 0 C (ComesBack d R J) := by
  induction ends generalizing C with
  | stops last =>
      have proceeds := h.proceeds
      rw [last] at proceeds
      cases proceeds with
      | ends gone => exact gone.mono fun C' gone => .inr ⟨_, _, .stops last, gone⟩
  | step first rest ih =>
      have proceeds := h.proceeds
      rw [first] at proceeds
      cases proceeds with
      | goes works =>
          have goes_on (C' : Config (guest c)) (works : Works d R _ C') : Leads 0 C' (ComesBack d R _) :=
            (ih works).mono fun C'' => .step first
          rcases works with leads | ⟨leads, -⟩
          · exact (leads.followed goes_on).eventually
          · exact leads.followed goes_on
      | rests rests => exact rests.mono fun C' rests => .inl ⟨0, _, .one first, rests⟩

/-- A run that ends has ended where an advance has come to. -/
theorem ComesBack.of_leads {n fuel : Nat} {P : Config (guest c) → Prop} {w : World (guest c)} {r : Reply}
    (leads : Leads n C P) (ended : Config.run fuel C = some (w, r)) (back : ∀ C', P C' → ComesBack d R J C') :
    ComesBack d R J ⟨w, [], .reply r⟩ := by
  obtain ⟨fuel', C', -, ended', holds⟩ := run_of_leads leads ended
  obtain ⟨w', r', rfl⟩ := (back C' holds).stops
  have there : Config.run 1 ⟨w', [], .reply r'⟩ = some (w', r') := rfl
  cases run_unique ended' there
  exact back _ holds

/-- If an advance comes back, then as the program goes on. -/
theorem Works.returned {fuel : Nat} {w : World (guest c)} {r : Reply} (h : Works d R J C)
    (ended : Config.run fuel C = some (w, r)) : ComesBack d R J ⟨w, [], .reply r⟩ := by
  refine of_run (Q := fun J => ComesBack d R J ⟨w, [], .reply r⟩) (fun {J C fuel} works ended => ?_) h ended
  have proceeds := works.proceeds
  generalize next : J.next true = out at proceeds
  cases proceeds with
  | rests rests => exact .inl (.of_leads rests ended fun C' rests => .inl ⟨0, _, .one next, rests⟩)
  | ends gone => exact .inl (.of_leads gone ended fun C' gone => .inr ⟨_, _, .stops next, gone⟩)
  | goes works => exact .inr ⟨_, .step next, works⟩

end OneShot.Joined
