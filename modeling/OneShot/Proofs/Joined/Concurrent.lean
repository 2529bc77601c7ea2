import OneShot.Proofs.Joined.Tasks
import OneShot.Proofs.Joined.Ordering
import Mathlib.Algebra.BigOperators.Group.Finset.Piecewise

/-!
# Concurrent tasks

An event loop advances tasks in any order, each until it gives way.  All tasks run the same
code, and use one store and one collection of generators; what code remembers, each task has
for itself.  Whatever the order is, each task does what its computation does when it is run
alone.
-/

namespace OneShot.Joined

open Config (Leads Reaches)

variable {c : Code}

/-! ## Event loops -/

/-- A computation that runs as a task, with what its code remembers. -/
structure Job (c : Code) where
  computation : Comp c.State
  data : c.Memory
  coroutine : Gen
  memory : Memo c
  /-- How often it was advanced. -/
  turns : Nat
  /-- What it has ended with. -/
  outcome : Option Reply

/-- What code remembers when it is to run a computation. -/
def Comp.memo (p : Comp c.State) (d : c.Memory) : Memo c := ⟨⟨d, []⟩, [], [(p.wraps, p.source)], []⟩

/-- A task that was advanced until it gave way or ended. -/
def Job.advanced (job : Job c) (w : World (guest c)) (r : Reply) : Job c :=
  { job with
    memory := w.memory
    turns := job.turns + 1
    outcome :=
      match r with
      | .yielded _ => none
      | r => some r }

structure EventLoop (c : Code) where
  store : Store
  gens : Array (Status (guest c))
  jobs : List (Job c)

inductive Action (c : Code) where
  /-- Calls the asynchronous driver, and makes a task of the coroutine that it gives. -/
  | launch (p : Comp c.State) (d : c.Memory)
  | advance (i : Nat)

namespace EventLoop

def initial (settings : Settings) : EventLoop c :=
  ⟨{ Store.initial settings with looping := true }, #[], []⟩

/-- The world in which a task is run. -/
def world (E : EventLoop c) (mem : Memo c) : World (guest c) := ⟨E.store, E.gens, mem⟩

/-- Acts on an event loop; the kernel takes at most `fuel` steps. -/
def act (fuel : Nat) (E : EventLoop c) : Action c → Option (EventLoop c)
  | .launch p d =>
    match Config.run fuel ⟨E.world (p.memo d), [], .call (.native (.service .executeAsync)) [thunk 0] .program⟩ with
    | some (w, .value (.gen g)) => some ⟨w.store, w.gens, E.jobs ++ [⟨p, d, g, w.memory, 0, none⟩]⟩
    | _ => none
  | .advance i => do
    let job ← E.jobs[i]?
    if job.outcome.isSome then none
    else
      let (w, r) ← Config.run fuel ⟨E.world job.memory, [], .advance job.coroutine (.send .none)⟩
      return ⟨w.store, w.gens, E.jobs.set i (job.advanced w r)⟩

/-- Acts on a fresh event loop in a given order. -/
def run (fuel : Nat) (settings : Settings) (actions : List (Action c)) : Option (EventLoop c) :=
  actions.foldlM (act fuel) (initial settings)

variable {E E' : EventLoop c} {fuel : Nat} {i : Nat} {p : Comp c.State} {d : c.Memory}

theorem of_advance (acted : E.act fuel (.advance i) = some E') : ∃ job w r,
    E.jobs[i]? = some job ∧ job.outcome = none ∧
      Config.run fuel ⟨E.world job.memory, [], .advance job.coroutine (.send .none)⟩ = some (w, r) ∧
      E' = ⟨w.store, w.gens, E.jobs.set i (job.advanced w r)⟩ := by
  simp only [act, bind, Option.bind_eq_some_iff] at acted
  obtain ⟨job, there, acted⟩ := acted
  split at acted
  · contradiction
  · rename_i waits
    obtain ⟨⟨w, r⟩, ran, acted⟩ := Option.bind_eq_some_iff.1 acted
    exact ⟨job, w, r, there, by simpa using waits, ran, (Option.some.inj acted).symm⟩

theorem of_launch (acted : E.act fuel (.launch p d) = some E') : ∃ w g,
    Config.run fuel ⟨E.world (p.memo d), [], .call (.native (.service .executeAsync)) [thunk 0] .program⟩ =
      some (w, .value (.gen g)) ∧ E' = ⟨w.store, w.gens, E.jobs ++ [⟨p, d, g, w.memory, 0, none⟩]⟩ := by
  simp only [act] at acted
  split at acted
  · rename_i w g ran
    exact ⟨w, g, ran, (Option.some.inj acted).symm⟩
  · contradiction

/-! ### Running for longer -/

theorem run_concat (fuel : Nat) (settings : Settings) (actions : List (Action c)) (action : Action c) :
    run fuel settings (actions ++ [action]) = (run fuel settings actions).bind fun E => E.act fuel action := by
  simp [run, bind]

theorem act_mono {m n : Nat} (less : m ≤ n) {action : Action c} (acted : E.act m action = some E') :
    E.act n action = some E' := by
  cases action with
  | launch p d =>
      obtain ⟨w, g, ran, rfl⟩ := of_launch acted
      simp only [act, Config.run_mono less ran]
  | advance i =>
      obtain ⟨job, w, r, there, waits, ran, rfl⟩ := of_advance acted
      simp [act, there, waits, Config.run_mono less ran]

theorem run_mono {m n : Nat} (less : m ≤ n) {settings : Settings} {actions : List (Action c)}
    (ran : run m settings actions = some E) : run n settings actions = some E := by
  induction actions using List.reverseRecOn generalizing E with
  | nil => exact ran
  | append_singleton actions action ih =>
      obtain ⟨E₁, before, acted⟩ := Option.bind_eq_some_iff.1 ((run_concat ..).symm.trans ran)
      rw [run_concat, ih before]
      exact act_mono less acted

end EventLoop

/-! ## What is known of tasks -/

variable {E E' : EventLoop c} {F R : Facts (guest c)} {job : Job c} {J J' : Program c} {M : Memory c}
  {C : Config (guest c)} {w₀ w : World (guest c)} {r : Reply} {fuel n : Nat} {e : Ending} {async : Bool}

/-- A task has come as far as its program comes by itself, with what is known of it besides. -/
inductive Job.Sound (job : Job c) : Facts (guest c) → Prop
  | waits {n : Nat} {J : Program c} {F : Facts (guest c)} (outcome : job.outcome = none)
      (steps : (begin job.computation job.data).Steps true n J) (turns : job.turns ≤ n)
      (parked : Parked job.coroutine J job.memory F) : Job.Sound job F
  | ended {r : Reply} {e : Ending} (outcome : job.outcome = some r)
      (ends : (begin job.computation job.data).Ends true job.memory.memory e) (replies : e.Replies r) :
      Job.Sound job 0

/-- What is left of a program that ends, ends as well. -/
theorem Program.Steps.rest (steps : J.Steps async n J') (ends : J.Ends async M e) : J'.Ends async M e := by
  obtain ⟨fuel, ended⟩ := Program.ends_iff_run.1 ends
  obtain ⟨fuel', -, ended'⟩ := steps.run_of_run ended
  exact Program.ends_iff_run.2 ⟨fuel', ended'⟩

/-- A task that is advanced leaves alone what else is known. -/
theorem Job.Sound.advanced (h : job.Sound F) (waits : job.outcome = none) (bears : w₀.Bears (F + R))
    (memory : w₀.memory = job.memory)
    (ran : Config.run fuel ⟨w₀, [], .advance job.coroutine (.send .none)⟩ = some (w, r)) :
    ∃ F', (job.advanced w r).Sound F' ∧ w.Bears (F' + R) := by
  cases h with
  | ended outcome => simp [outcome] at waits
  | @waits n J F outcome steps turns parked =>
      have here : At [] (.advance job.coroutine (.send .none)) job.memory (F + R)
          ⟨w₀, [], .advance job.coroutine (.send .none)⟩ := ⟨w₀, rfl, memory, bears⟩
      obtain ⟨fuel', C', -, ended', works⟩ := run_of_leads (parked.advances here) ran
      rcases works.returned ended' with ⟨m, J', more, mem, F', parked', w', same, memory', bears'⟩ |
        ⟨M, e, ends, mem, r', memory', replies, w', same, same_memory, bears'⟩
      · cases same
        subst memory'
        exact ⟨F', .waits rfl (steps.trans more) (Nat.add_le_add turns (Nat.le_add_left 1 m)) parked', bears'⟩
      · cases same
        subst memory' same_memory
        refine ⟨0, .ended (r := r) ?_ (steps.ends ends) replies, (zero_add R).symm ▸ bears'⟩
        cases replies with
        | result a => cases a <;> rfl
        | _ => rfl

/-- A task whose computation ends by itself can be advanced. -/
theorem Job.Sound.advances (h : job.Sound F) (waits : job.outcome = none) (bears : w₀.Bears (F + R))
    (memory : w₀.memory = job.memory) (ends : (begin job.computation job.data).Ends true M e) :
    ∃ fuel out, Config.run fuel ⟨w₀, [], .advance job.coroutine (.send .none)⟩ = some out := by
  cases h with
  | ended outcome => simp [outcome] at waits
  | @waits n J F outcome steps turns parked =>
      have here : At [] (.advance job.coroutine (.send .none)) job.memory (F + R)
          ⟨w₀, [], .advance job.coroutine (.send .none)⟩ := ⟨w₀, rfl, memory, bears⟩
      have back := (parked.advances here).followed fun C works => works.comesBack (steps.rest ends)
      obtain ⟨m, C, -, reached, back⟩ := back
      obtain ⟨w, r, rfl⟩ := back.stops
      exact ⟨m + 1, (w, r), reached.run_add 1⟩

/-- What is known of all tasks of an event loop, of each by itself. -/
structure EventLoop.Sound (E : EventLoop c) (F : Nat → Facts (guest c)) : Prop where
  bears : ∀ mem, (E.world mem).Bears (∑ i ∈ Finset.range E.jobs.length, F i)
  sound : ∀ (i : Nat) (job : Job c), E.jobs[i]? = some job → job.Sound (F i)

namespace EventLoop

variable {settings : Settings} {Fs : Nat → Facts (guest c)} {i : Nat} {p : Comp c.State} {d : c.Memory}
  {actions : List (Action c)}

theorem sound_initial (settings : Settings) : (initial settings : EventLoop c).Sound fun _ => 0 where
  bears mem := ⟨fun f mem => absurd mem (Multiset.notMem_zero f), List.nodup_nil⟩
  sound i job there := by simp [initial] at there

/-- What is known besides a task. -/
theorem Sound.others (h : E.Sound Fs) (there : E.jobs[i]? = some job) (mem : Memo c) :
    (E.world mem).Bears (Fs i + ∑ k ∈ (Finset.range E.jobs.length).erase i, Fs k) := by
  have inside : i ∈ Finset.range E.jobs.length :=
    Finset.mem_range.2 (List.getElem?_eq_some_iff.1 there).choose
  exact (h.bears mem).of_eq (Finset.add_sum_erase _ Fs inside).symm

theorem Sound.advance (h : E.Sound Fs) (acted : E.act fuel (.advance i) = some E') :
    ∃ Fs', E'.Sound Fs' := by
  obtain ⟨job, w, r, there, waits, ran, rfl⟩ := of_advance acted
  obtain ⟨F', sound, bears⟩ := (h.sound i job there).advanced waits (h.others there job.memory) rfl ran
  have inside : i ∈ Finset.range E.jobs.length :=
    Finset.mem_range.2 (List.getElem?_eq_some_iff.1 there).choose
  refine ⟨Function.update Fs i F', fun mem => ?_, fun k job' there' => ?_⟩
  · refine (bears.memory mem).of_eq ?_
    simp only [List.length_set, Finset.sum_update_of_mem inside, Finset.sdiff_singleton_eq_erase]
  · by_cases same : k = i
    · subst same
      rw [List.getElem?_set_self (by simpa using inside)] at there'
      cases there'
      rwa [Function.update_self]
    · rw [List.getElem?_set_ne (Ne.symm same)] at there'
      rw [Function.update_of_ne same]
      exact h.sound k job' there'

theorem Sound.launch (h : E.Sound Fs) (acted : E.act fuel (.launch p d) = some E') :
    ∃ Fs', E'.Sound Fs' := by
  obtain ⟨w, g, ran, rfl⟩ := of_launch acted
  let q : Process := .executeAsync (.start (thunk 0))
  have called : At [] (.call (.native (.service .executeAsync)) [thunk 0] .program) (p.memo d)
      (∑ k ∈ Finset.range E.jobs.length, Fs k) ⟨E.world (p.memo d), [], _⟩ :=
    ⟨_, rfl, rfl, h.bears (p.memo d)⟩
  have spawned := (At.starts (t := .spawn .coroutine "execute_async" q) called nofun fun st => ⟨rfl, rfl⟩).mono
    fun C => Invoked.spawn
  obtain ⟨fuel', C, -, ended, g', -, w', rfl, memory, bears⟩ := run_of_leads spawned ran
  have there : Config.run 1 ⟨w', [], .reply (.value (.gen g'))⟩ = some (w', .value (.gen g')) := rfl
  cases run_unique ended there
  refine ⟨Function.update Fs E.jobs.length {.gen g.id (.fresh (.library q))}, fun mem => ?_, fun k job there => ?_⟩
  · refine (bears.memory mem).of_eq ?_
    rw [List.length_append, List.length_singleton, Finset.sum_range_succ, Function.update_self,
      Finset.sum_update_of_notMem Finset.notMem_range_self, add_comm]
  · rcases Nat.lt_trichotomy k E.jobs.length with less | rfl | more
    · rw [List.getElem?_append_left less] at there
      rw [Function.update_of_ne less.ne]
      exact h.sound k job there
    · rw [List.getElem?_concat_length] at there
      cases there
      rw [Function.update_self]
      refine .waits rfl (.zero _) (Nat.le_refl 0) (.fresh (p := p) ?_ ?_ ?_ ?_) <;> rw [memory] <;> rfl
    · rw [List.getElem?_eq_none (by rw [List.length_append]; exact more)] at there
      contradiction

/-- Each task is where its program comes by itself, whatever the event loop has done. -/
theorem Sound.of_run (ran : run fuel settings actions = some E) : ∃ Fs, E.Sound Fs := by
  induction actions using List.reverseRecOn generalizing E with
  | nil =>
      cases ran
      exact ⟨_, sound_initial settings⟩
  | append_singleton actions action ih =>
      obtain ⟨E₁, before, acted⟩ := Option.bind_eq_some_iff.1 ((run_concat ..).symm.trans ran)
      obtain ⟨Fs, sound⟩ := ih before
      cases action with
      | launch p d => exact sound.launch acted
      | advance i => exact sound.advance acted

end EventLoop

/-! ## What tasks do -/

/-- A task that runs a computation. -/
structure EventLoop.Runs (E : EventLoop c) (i : Nat) (p : Comp c.State) (d : c.Memory) (job : Job c) : Prop where
  there : E.jobs[i]? = some job
  computation : job.computation = p
  data : job.data = d

/-- The kernel follows the steps of a program. -/
theorem Carries.follows (h : Carries (Driver async) J C) (steps : J.Steps async n J') :
    Leads 0 C (Carries (Driver async) J') := by
  induction steps generalizing C with
  | zero J => exact .here h
  | succ first rest ih =>
      rcases h.next with ⟨J₁, next, advances⟩ | ⟨M, e, next, -⟩
      · cases first.symm.trans next
        rcases advances with leads | ⟨leads, -⟩
        · exact (leads.followed fun C' carries => ih carries).eventually
        · exact leads.followed fun C' carries => ih carries
      · cases first.symm.trans next

/-- What a task has done so far is what its computation does alone. -/
theorem Job.Sound.alone (h : job.Sound F) (settings : Settings) :
    ∃ n C, Reaches n (start true job.computation job.data settings) C ∧ C.world.memory.memory = job.memory.memory := by
  cases h with
  | waits outcome steps turns parked =>
      have leads := (start_leads true job.computation job.data settings).followed fun C carries =>
        carries.follows steps
      obtain ⟨n, C, -, reached, carries⟩ := leads
      exact ⟨n, C, reached, carries.memory.trans parked.memory.symm⟩
  | ended outcome ends replies =>
      obtain ⟨fuel, w, r, ran, memory, -⟩ := (adequate true _ _ settings).1 _ _ ends
      obtain ⟨n, reached⟩ := Reaches.of_run ran
      exact ⟨n, _, reached, memory⟩

theorem Job.Sound.orderly (h : job.Sound F) : ∃ e rest, Orderly true e (job.memory.memory.log ++ rest) := by
  cases h with
  | waits outcome steps turns parked =>
      rw [parked.memory]
      exact orderly_of_steps steps
  | @ended r e outcome ends replies => exact ⟨e, [], by simpa using orderly_of_ends ends⟩

/--
Tasks on one event loop do not interfere.  In whatever order they are launched and advanced,
what a task has done is what its computation does when it is run alone, step by step, with
what its code remembers and has logged; each coroutine that it awaits is run to its outcome
before anything else of it, and with that goes on just what has waited.  A task ends with the
result or the error that its computation ends with alone.  And if its computation ends alone,
a task can always be advanced, and ends after a number of advances that no order exceeds.
-/
theorem tasks_independent (p : Comp c.State) (d : c.Memory) (settings : Settings) :
    (∀ settings' fuel actions (E : EventLoop c) i job, EventLoop.run fuel settings' actions = some E →
      E.Runs i p d job →
      (∃ n C, Reaches n (start true p d settings) C ∧ C.world.memory.memory = job.memory.memory) ∧
      (∃ e rest, Orderly true e (job.memory.memory.log ++ rest)) ∧
      ∀ r, job.outcome = some r → ∃ fuel' w r', Config.run fuel' (start true p d settings) = some (w, r') ∧
        w.memory.memory = job.memory.memory ∧
          ∃ e : Ending, e.Replies r ∧ e.Replies r' ∧ Orderly true e job.memory.memory.log) ∧
    ∀ fuel' w r', Config.run fuel' (start true p d settings) = some (w, r') → ∃ most : Nat,
      ∀ settings' fuel actions (E : EventLoop c) i job, EventLoop.run fuel settings' actions = some E →
        E.Runs i p d job → job.outcome = none →
        job.turns < most ∧ ∃ fuel'' E', EventLoop.run fuel'' settings' (actions ++ [.advance i]) = some E' := by
  refine ⟨fun settings' fuel actions E i job ran runs => ?_, fun fuel' w r' alone => ?_⟩
  · obtain ⟨there, rfl, rfl⟩ := runs
    obtain ⟨Fs, sound⟩ := EventLoop.Sound.of_run ran
    have task := sound.sound i job there
    refine ⟨task.alone settings, task.orderly, fun r outcome => ?_⟩
    generalize Fs i = F at task
    cases task with
    | waits outcome' => cases outcome.symm.trans outcome'
    | @ended r e outcome' ends replies =>
        cases outcome.symm.trans outcome'
        obtain ⟨fuel', w, r', alone, memory, replies'⟩ := (adequate true _ _ settings).1 _ _ ends
        exact ⟨fuel', w, r', alone, memory, e, replies, replies', orderly_of_ends ends⟩
  · obtain ⟨e, ends, -⟩ := (adequate true p d settings).2 fuel' w r' alone
    obtain ⟨most, ended⟩ := Program.ends_iff_run.1 ends
    refine ⟨most, fun settings' fuel actions E i job ran runs waits => ?_⟩
    obtain ⟨there, rfl, rfl⟩ := runs
    obtain ⟨Fs, sound⟩ := EventLoop.Sound.of_run ran
    refine ⟨?_, ?_⟩
    · have task := sound.sound i job there
      generalize Fs i = F at task
      cases task with
      | ended outcome => cases waits.symm.trans outcome
      | waits outcome steps turns parked =>
          obtain ⟨left, less, ended'⟩ := steps.run_of_run ended
          cases left with
          | zero => contradiction
          | succ left => omega
    · obtain ⟨more, out, advanced⟩ := (sound.sound i job there).advances waits (sound.others there job.memory)
        rfl ends
      refine ⟨max fuel more, ⟨out.1.store, out.1.gens, E.jobs.set i (job.advanced out.1 out.2)⟩, ?_⟩
      rw [EventLoop.run_concat, EventLoop.run_mono (Nat.le_max_left _ _) ran]
      have acted : E.act more (.advance i) =
          some ⟨out.1.store, out.1.gens, E.jobs.set i (job.advanced out.1 out.2)⟩ := by
        simp [EventLoop.act, there, waits, advanced]
      exact EventLoop.act_mono (Nat.le_max_right _ _) acted

/-- Code that has its own text fetched twice, by an escape and through an awaiter, and returns what it got. -/
def fetching : Code where
  Memory := String
  State := Nat
  Task := Bool
  step d n a := (d, match n, a with
    | 0, _ => .escape false 1
    | 1, _ => .perform (.await 0 false) 2
    | _, .value (.str v) => .done (.value (.str v) (Val.generator?_str v))
    | _, _ => .done (.value .none Val.generator?_none))
  exit d _ := d
  task d paused := (d ++ "!", if paused then .done (.value (.str d)) else .pause true)
  onReturn _ d _ := (d, .result (.value .none Val.generator?_none))
  clause _ d _ _ := (d, .result (.value .none Val.generator?_none))
  init _ _ := (0, .none)

def fetches : Comp fetching.State := ⟨[.scope (.await 0 false)], false, (0 : Nat)⟩

/-- Two tasks that fetch, advanced in turns of different lengths. -/
def fetchesInTurns : List (Action fetching) :=
  [.launch fetches "a", .launch fetches "b"] ++ [0, 1, 1, 0, 1, 0, 0, 1, 1, 0].map .advance

/-- What tasks run, and what they have ended with. -/
def EventLoop.results (E : EventLoop c) : List (Comp c.State × c.Memory × Option Reply) :=
  E.jobs.map fun job => (job.computation, job.data, job.outcome)

theorem EventLoop.runs_of_results {E : EventLoop c} {i : Nat} {p : Comp c.State} {d : c.Memory}
    {outcome : Option Reply} (there : E.results[i]? = some (p, d, outcome)) :
    ∃ job, E.Runs i p d job ∧ job.outcome = outcome := by
  rw [results, List.getElem?_map] at there
  obtain ⟨job, here, same⟩ := Option.map_eq_some_iff.1 there
  cases same
  exact ⟨job, ⟨here, rfl, rfl⟩, rfl⟩

/-- The second of two tasks gives what it gives alone; and after its first turn it could go on. -/
theorem tasks_independent_fetching :
    (∃ fuel w, Config.run fuel (start true fetches "b" default) = some (w, .value (.str "b!!!"))) ∧
    ∃ fuel E', EventLoop.run fuel default ([.launch fetches "b", .advance 0] ++ [.advance 0]) = some E' := by
  have both : (EventLoop.run 60 default fetchesInTurns).map EventLoop.results =
      some [(fetches, "a", some (.value (.str "a!!!"))), (fetches, "b", some (.value (.str "b!!!")))] := rfl
  obtain ⟨E, ran, results⟩ := Option.map_eq_some_iff.1 both
  obtain ⟨job, runs, outcome⟩ := EventLoop.runs_of_results (E := E) (i := 1) (by rw [results]; rfl)
  obtain ⟨-, -, ends⟩ := (tasks_independent fetches "b" default).1 default 60 _ E 1 job ran runs
  obtain ⟨fuel, w, r, alone, -, e, replies, replies', -⟩ := ends _ outcome
  refine ⟨⟨fuel, w, replies.eq_value replies' ▸ alone⟩, ?_⟩
  have one : (EventLoop.run 60 default [.launch fetches "b", .advance 0]).map EventLoop.results =
      some [(fetches, "b", none)] := rfl
  obtain ⟨E, ran, results⟩ := Option.map_eq_some_iff.1 one
  obtain ⟨job, runs, waits⟩ := EventLoop.runs_of_results (E := E) (i := 0) (by rw [results]; rfl)
  obtain ⟨most, goes_on⟩ := (tasks_independent fetches "b" default).2 fuel w r alone
  exact (goes_on default 60 _ E 0 job ran runs waits).2

end OneShot.Joined
