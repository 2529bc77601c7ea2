import OneShot.Proofs.Joined.Escaping

/-!
# Awaiting

A coroutine is run for a computation: by a loop inside the clause of a blocking
awaiter, or by the asynchronous driver, which an escape has come to.  Its outcome
goes to the computation that waits for it.
-/

namespace OneShot.Joined

open Config (Leads)
open Deep (Failure Result)

variable {c : Code} {V : Drivers c} {J : Program c} {es : List (Entry c)} {mem : Memo c}
  {A : List (Activation (guest c))} {B E F I R : Facts (guest c)} {D : Base c}
  {C : Config (guest c)} {a : Deep.Answer} {d g : Gen} {n : Nat} {t : c.Task} {s : c.State}
  {f v action : Val} {L : Level c} {Ls : List (Level c)} {ms held : List (Mark c.State)} {outer : Bool}
  {hs : List (Hop (guest c))}

/-! ## Coroutines that run a task -/

/-- A coroutine that has not been started, and will run a task. -/
inductive Idle : Gen → c.Task → Facts (guest c) → Prop
  | task {g : Gen} (kind : g.kind = .coroutine) (t : c.Task) :
      Idle g t {.gen g.id (.fresh (.guest (.task t)))}
  /-- It awaits another one. -/
  | awaits {g d : Gen} (kind : g.kind = .coroutine) (kind' : d.kind = .coroutine) (t : c.Task) :
      Idle g t ({.gen g.id (.fresh (.library (.asking (.await (.gen d)))))} +
        {.gen d.id (.fresh (.guest (.task t)))})

theorem Idle.kind (h : Idle g t I) : g.kind = .coroutine := by
  cases h <;> assumption

theorem Idle.facts (h : Idle g t I) : ∃ r E, I = {.gen g.id (.fresh r)} + E := by
  cases h with
  | task kind t => exact ⟨_, 0, (add_zero _).symm⟩
  | awaits kind kind' t => exact ⟨_, _, rfl⟩

/-- A coroutine is awaited that has not been started. -/
theorem Turning.awaits {p r : Routine (guest c)} (kind : d.kind = .coroutine)
    (h : Turning (some g) A (.ask (.await (.gen d)) p) mem ({.gen d.id (.fresh r)} + F) C) :
    At (.relaying g p d :: A) (.advance d (.send .none)) mem ({.gen d.id (.fresh r)} + F) C := by
  obtain ⟨w, rfl, memory, bears⟩ := h
  refine ⟨w, ?_, memory, bears⟩
  have status := World.status_of bears.here
  simp only [Config.turned, Config.turnOf, Config.await, kind, if_pos, status]

/-- All generators of a chain hand on whatever comes. -/
def Handing (hs : List (Hop (guest c))) : Prop := ∀ l ∈ hs, l.routine = .library .passing

theorem At.handsDown (handing : Handing hs)
    (h : At (relayingHops d hs ++ A) (.reply a.reply) mem (runningHops hs + F) C) :
    Leads 0 C (At A (.reply a.reply) mem F) := by
  induction hs generalizing d C with
  | nil => exact .here (h.of_eq (zero_add _))
  | cons l hs ih =>
      have ended := At.ended h
      rw [handing l List.mem_cons_self] at ended
      refine ended.after fun C₁ there => ?_
      have passed := At.passing (there.of_eq (E := {.gen l.gen.id .running} + (runningHops hs + F)) (by
        simp only [runningHops]; abel))
      refine passed.after fun C₂ there => ?_
      exact ih (fun l' mem => handing l' (.tail _ mem)) there

/-- An idle coroutine is started, and its task begins. -/
theorem Idle.starts (idle : Idle g t I) (h : At A (.advance g (.send .none)) mem (I + F) C) :
    Leads 1 C fun C' => ∃ d hs, bottom d hs = g ∧ Handing hs ∧
      At (.running d (.guest (Body.task t)) :: (relayingHops d hs ++ A)) (.reply (.value .none)) mem
        ({.gen d.id .running} + (runningHops hs + F)) C' := by
  cases idle with
  | task kind t =>
      exact (At.fresh h).mono fun C' there =>
        ⟨g, [], rfl, fun h mem => absurd mem List.not_mem_nil, there.of_eq (by rw [runningHops, zero_add])⟩
  | @awaits d kind kind' t =>
      refine (At.fresh (h.of_eq (add_assoc _ _ _))).followed fun C₁ running => ?_
      have asked := At.library (t := .ask (.await (.gen d)) .passing) (some g) running
        fun st => ⟨rfl, rfl⟩
      refine asked.after fun C₂ turned => ?_
      have awaited := Turning.awaits kind' (turned.of_eq (add_left_comm _ _ _))
      refine ((At.fresh awaited).mono fun C₃ there => ⟨d, [⟨g, .library .passing⟩], rfl, ?_,
        there.of_eq ?_⟩).eventually
      · simp [Handing]
      · simp only [runningHops]
        abel

/-- A call gives a coroutine that will run a task. -/
def Launches (f : Val) (t : c.Task) (mem : Memo c) (E : Facts (guest c)) : Prop :=
  ∀ (A : List (Activation (guest c))) (caller : Caller) (R : Facts (guest c)) (C : Config (guest c)),
    At A (.call f [] caller) mem (E + R) C → Leads 1 C fun C' => ∃ g I, Idle g t I ∧
      At A (.reply (.value (.gen g))) mem (I + R) C'

theorem launches_awaiting (id : Nat) (kind : g.kind = .coroutine) (t : c.Task) (mem : Memo c) :
    Launches (.native (.awaiting id (.gen g))) t mem {.gen g.id (.fresh (.guest (.task t)))} := by
  intro A caller R C h
  have spawned := At.starts (t := .spawn .coroutine "_await" (.asking (.await (.gen g)))) h nofun
    fun st => ⟨rfl, rfl⟩
  refine spawned.mono fun C' started => ?_
  obtain ⟨g', kind', here⟩ := started.spawn
  exact ⟨g', _, .awaits kind' kind t, here.of_eq (add_assoc _ _ _).symm⟩

theorem launches_coroutine {i : Nat} (there : mem.tasks[i]? = some t) :
    Launches (coroutine i) t mem 0 := by
  intro A caller R C h
  refine (At.spawns h (enter_task there [])).mono ?_
  rintro C' ⟨g, kind, here⟩
  exact ⟨g, _, .task kind t, here.of_eq (by rw [zero_add])⟩

/-- The action of an escape for a task: a function of the program, or what awaits a coroutine. -/
inductive Asking (mem : Memo c) (t : c.Task) : Val → Facts (guest c) → Prop
  | coroutine {i : Nat} (there : mem.tasks[i]? = some t) : Asking mem t (coroutine i) 0
  | awaiting {g : Gen} (id : Nat) (kind : g.kind = .coroutine) :
      Asking mem t (.native (.awaiting id (.gen g))) {.gen g.id (.fresh (.guest (.task t)))}

theorem Asking.launches (h : Asking mem t action E) : Launches action t mem E := by
  cases h with
  | coroutine there => exact launches_coroutine there
  | awaiting id kind => exact launches_awaiting id kind t mem

/-! ## The clause of an awaiter -/

def waitingRoutine (k : Cont) : Routine (guest c) := .library (.awaitClause (.waiting (.cont k)))

/-- The clause of an awaiter resumes its continuation with the outcome. -/
theorem At.clauseAnswers {k : Cont} {p : Piece c} {below : List (Piece c)} (waits : p.Waits s)
    (h : At (.running d (waitingRoutine k) :: under D d (L :: Ls)) (.reply a.reply) mem
      ({.gen d.id .running} + ({.cont k.index (vals (p :: below)) false} + (facts (p :: below) +
        (levelFacts d (L :: Ls) + R)))) C) :
    Leads 1 C fun C' => ∃ ms', .code s :: ms' = pieceMarks (p :: below) ++ marks (L :: Ls) ∧
      Running D (codeRoutine s) a.reply ms' mem R C' := by
  obtain ⟨f, args, called, made⟩ : ∃ f args, (∀ st, AwaitClause.step st (.waiting (.cont k)) a.reply =
      (st, .ask (.call f args) .resuming)) ∧
        ∀ caller, (Signal.call f args caller).request? = some ⟨k, a.sent, a.thrown⟩ := by
    cases a with
    | value v => exact ⟨_, _, fun st => rfl, fun _ => rfl⟩
    | failed x => exact ⟨_, _, fun st => if_pos x.isException, fun _ => rfl⟩
  have asked := At.library (t := .ask (.call f args) (.awaitClause .resuming)) (some d) h fun st => by
    simp only [Process.step, called]
    exact ⟨rfl, rfl⟩
  refine asked.followed fun C₁ turned => ?_
  have hands := hands_delegating (D := D) (g := d) (L := L) .clause Ls
    (p := .library (.awaitClause .resuming)) fun d' mem F C h =>
      At.library (t := .ask (.delegate (.gen d')) (.awaitClause .delegating)) (some d) h
        fun st => ⟨rfl, rfl⟩
  have woken := hands.wakes (R := R) (made _) waits (turned.call.of_eq (by abel))
  refine (woken.mono ?_).eventually
  rintro C₂ ⟨ms', marked, running⟩
  exact ⟨ms', marked, running.weaken⟩

/-- The clause of an awaiter has been called, and runs a routine of its own. -/
def Clausing (D : Base c) (q : Val → Val → AwaitClause.Phase) (t : c.Task) (s : c.State)
    (ms held : List (Mark c.State)) (mem : Memo c) (R : Facts (guest c)) (C : Config (guest c)) : Prop :=
  ∃ d L Ls k p below g, g.kind = .coroutine ∧ Piece.Waits p s ∧ marks (L :: Ls) = held ∧
    .code s :: ms = pieceMarks (p :: below) ++ marks (L :: Ls) ∧
      At (.running d (.library (.awaitClause (q (.cont k) (.gen g)))) :: under D d (L :: Ls))
        (.reply (.value .none)) mem
        ({.gen d.id .running} + ({.gen g.id (.fresh (.guest (Body.task t)))} +
          ({.cont k.index (vals (p :: below)) false} + (facts (p :: below) +
            (levelFacts d (L :: Ls) + R))))) C

theorem Performed.clausing {blocking : Bool} {above below : List (Part c.State)}
    (stack : J.stack = above ++ .await n blocking :: below)
    (free : Free (awaitEffect n) (stackMarks above))
    (h : Performed D mem (stackMarks J.stack) s (.await n t) R C) :
    Leads 1 C (Clausing D (fun k g => .start k g blocking) t s (stackMarks J.stack)
      (stackMarks below) mem R) := by
  cases h with
  | made other => exact absurd rfl (other n t)
  | @await _ _ a context p g R C kind waits values place dispatched =>
      have owns := (Answers.task (c := c) n blocking t).owns
      have split : stackMarks J.stack =
          stackMarks above ++ .bound (.await n blocking) :: stackMarks below := by
        rw [stack, stackMarks_append, stackMarks_cons]
        rfl
      rw [split] at dispatched ⊢
      obtain ⟨us, ps, u, k, gm, m, Ls, slice, rest, called⟩ := dispatched.answered free owns
      rw [values] at called
      have spawned : Leads 1 C fun C' => ∃ d : Gen, d.kind = .generator ∧
          At (Machine.activation gm m .calling :: under D gm Ls) (.reply (.value (.gen d))) mem
            ({.gen d.id (.fresh (.library (.awaitClause (.start (.cont k) (.gen g) blocking))))} +
              ({.cont k.index (vals (p :: us ++ [.bound (.await n blocking) u])) false} +
                (facts (p :: us) + (inside gm m ps Ls +
                  ({.gen g.id (.fresh (.guest (Body.task t)))} + R))))) C' := by
        cases blocking with
        | true => exact (At.starts called nofun fun st => ⟨rfl, rfl⟩).mono fun C' h => h.spawn
        | false => exact (At.starts called nofun fun st => ⟨rfl, rfl⟩).mono fun C' h => h.spawn
      refine spawned.followed fun C₁ made => ?_
      obtain ⟨d, kind', here⟩ := made
      have pushed := At.pushed kind' (here.of_eq (E := {.machine m (vals ps)} +
        ({.gen d.id (.fresh (.library (.awaitClause (.start (.cont k) (.gen g) blocking))))} +
          ({.cont k.index (vals (p :: us ++ [.bound (.await n blocking) u])) false} +
            (facts (p :: us) + ({.gen gm.id .running} + (facts ps + (levelFacts gm Ls +
              ({.gen g.id (.fresh (.guest (Body.task t)))} + R)))))))) (by
                simp only [inside]; abel))
      refine pushed.after fun C₂ there => ?_
      obtain ⟨u', there⟩ := there
      let L : Level c := ⟨[], u', gm, m, ps⟩
      refine ((At.fresh (there.of_eq (add_left_comm _ _ _))).mono fun C₃ running =>
        ⟨d, L, Ls, k, p, us ++ [.bound (.await n blocking) u], g, kind, waits, ?_, ?_, ?_⟩).eventually
      · simpa [L] using rest.symm
      · have whole := congrArg (· ++ pieceMarks [.bound (.await n blocking) u]) slice
        simp only [← pieceMarks_append, List.cons_append] at whole
        rw [whole, rest]
        simp [Piece.marks, L]
      · rw [under_cons]
        refine At.of_eq running ?_
        simp only [L, levelFacts, Level.facts, hops, List.map_nil, bottom, runningHops, List.cons_append,
          facts, facts_append, Piece.facts, vals]
        abel

/-! ## A loop inside the clause -/

/-- A loop ends with the outcome of its coroutine. -/
theorem At.loopEnds (h : At (looping g outer :: A) (.reply a.reply) mem F C) :
    Leads 1 C (At A (.reply a.reply) mem F) := by
  refine At.libraryReturns h fun st => ?_
  cases a <;> exact ⟨rfl, rfl⟩

theorem Clausing.blocks (driver : V D B) (recalls : Recalls J es mem)
    (h : Clausing D (fun k g => .start k g true) t s (stackMarks J.stack) held mem
      (entryFacts es + B) C) :
    Leads 1 C (Carries V { J with control := .task t s }) := by
  obtain ⟨d, L, Ls, k, p, below, g, kind, waits, -, marked, here⟩ := h
  have asked := At.library (t := .ask (.call (.native (.service .awaitNow)) [.gen g])
    (.awaitClause (.waiting (.cont k)))) (some d) here fun st => ⟨rfl, rfl⟩
  refine asked.followed fun C₁ turned => ?_
  have entered := At.invokes turned.call nofun fun st => rfl
  refine entered.after fun C₂ started => ?_
  obtain ⟨st, started⟩ := started
  have launching : Invoked _ (.enter (.launching (.call (.native (.awaiting st.nextId (.gen g))) [])))
    mem _ C₂ := started
  have called := At.library (t := .ask (.call (.native (.awaiting st.nextId (.gen g))) []) .launched)
    none launching.enter fun st => ⟨rfl, rfl⟩
  refine called.after fun C₃ turned => ?_
  have launched := launches_awaiting st.nextId kind t mem _ _ _ _ ((Turning.call turned).of_eq
    (add_left_comm _ _ _))
  refine launched.after fun C₄ launched => ?_
  obtain ⟨g', I, idle, here⟩ := launched
  have looped := At.library (t := .more (.loop (.start g'))) none here fun st => ⟨rfl, rfl⟩
  refine looped.after fun C₅ turned => ?_
  have started := At.turns none (Turning.more turned) fun st => rfl
  refine started.after fun C₆ turned => ?_
  obtain ⟨st, turned⟩ := turned
  refine ((idle.starts (Turning.advance turned)).mono ?_).eventually
  rintro C₇ ⟨e, hs, rfl, handing, here⟩
  refine .task rfl recalls.memory here fun a M C' ended => ?_
  refine (At.handsDown handing ended).followed fun C₁ ended => ?_
  refine (At.loopEnds ended).after fun C₂ replied => ?_
  have answered := At.clauseAnswers (R := entryFacts es + B) waits (replied.of_eq (by abel))
  refine (answered.mono ?_).eventually
  rintro C₃ ⟨ms', same, running⟩
  obtain rfl : ms' = stackMarks J.stack := (List.cons_eq_cons.1 (same.trans marked.symm)).2
  exact ⟨D, B, es, { mem with memory := M }, .waiting s, a.reply, driver,
    ⟨rfl, recalls.handles, recalls.slices⟩, goes_waiting s a, running⟩

/-! ## The driver -/

/--
An escape has come to what waits for the outermost machine.  It was yielded by
code that waits for the outcome, or by the clause of an awaiter; what is below
that, and was not captured, is held.
-/
inductive Escaped (D : Base c) (t : c.Task) (s : c.State) (ms : List (Mark c.State)) (mem : Memo c)
    (R : Facts (guest c)) : List (Mark c.State) → Config (guest c) → Prop
  | code {d : Gen} {L : Level c} {Ls : List (Level c)} {id : Nat} {action : Val}
      {C : Config (guest c)} (marked : marks (L :: Ls) = ms) (asking : Asking mem t action 0)
      (here : At (D (root d (L :: Ls))) (.reply (.yielded (.escape id action))) mem
        ({.gen d.id (.suspended (codeRoutine s) .direct)} + (pausedFacts d (L :: Ls) + R)) C) :
      Escaped D t s ms mem R (.code s :: ms) C
  | clause {d g : Gen} {L : Level c} {Ls : List (Level c)} {k : Cont} {p : Piece c}
      {below : List (Piece c)} {id i : Nat} {C : Config (guest c)} (kind : g.kind = .coroutine)
      (waits : p.Waits s) (marked : .code s :: ms = pieceMarks (p :: below) ++ marks (L :: Ls))
      (here : At (D (root d (L :: Ls))) (.reply (.yielded (.escape id (.native (.awaiting i (.gen g))))))
        mem ({.gen d.id (.suspended (waitingRoutine k) .direct)} +
          ({.gen g.id (.fresh (.guest (Body.task t)))} +
            ({.cont k.index (vals (p :: below)) false} + (facts (p :: below) +
              (pausedFacts d (L :: Ls) + R))))) C) :
      Escaped D t s ms mem R (marks (L :: Ls)) C

/-- The clause of an asynchronous awaiter escapes. -/
theorem Clausing.escapes (h : Clausing D (fun k g => .start k g false) t s ms held mem R C) :
    Leads 1 C (Escaped D t s ms mem R held) := by
  obtain ⟨d, L, Ls, k, p, below, g, kind, waits, rfl, marked, here⟩ := h
  have turned := At.turns (some d) here fun st => rfl
  refine turned.followed fun C₁ turned => ?_
  obtain ⟨st, turned⟩ := turned
  have yielded := turned.yield
  have out := At.escapesOut (R := {.gen d.id (.suspended (waitingRoutine k) .direct)} +
    ({.gen g.id (.fresh (.guest (Body.task t)))} + ({.cont k.index (vals (p :: below)) false} +
      (facts (p :: below) + R)))) (yielded.of_eq (by simp only [waitingRoutine]; abel))
  exact (out.mono fun C₂ there => .clause kind waits marked (there.of_eq (by abel))).eventually

/-- Code that yields an escape. -/
theorem Running.escapes {body : Body c} {r : Reply} {s' : c.State} (goes : Goes body r s a)
    (acts : (mem.memory.step s a).2 = .escape t s') (h : Running D (.guest body) r ms mem R C) :
    Leads 1 C fun C' => ∃ mem' : Memo c, mem'.memory = (mem.memory.step s a).1 ∧
      mem'.handles = mem.handles ∧ Escaped D t s' ms mem' R (.code s' :: ms) C' := by
  obtain ⟨d, L, Ls, rfl, here⟩ := h
  let mem₁ : Memo c := { mem with memory := (mem.memory.step s a).1 }
  have stepped : (guest c).step mem body r = Body.act mem₁ (.escape t s') := by
    rw [← acts]
    exact goes mem
  refine (At.guest (some d) here stepped).followed fun C₁ turned => ?_
  have built := At.invokes turned.call nofun fun st => rfl
  refine built.after fun C₂ started => ?_
  obtain ⟨st, started⟩ := started
  have made : Invoked _ (.done (.escape st.nextId (mem₁.newTask t).2)) (mem₁.newTask t).1 _ C₂ := started
  have turned := At.guest (t := .ask (.yield (.escape st.nextId (mem₁.newTask t).2) .direct)
    (Body.waiting s')) (some d) made.done rfl
  refine turned.after fun C₃ turned => ?_
  have out := At.escapesOut (R := {.gen d.id (.suspended (codeRoutine s') .direct)} + R)
    ((Turning.yield turned).of_eq (by simp only [codeRoutine]; abel))
  exact (out.mono fun C₄ there => ⟨(mem₁.newTask t).1, rfl, rfl,
    .code rfl (.coroutine (by simp [Memo.newTask])) (there.of_eq (by abel))⟩).eventually

/-- An asynchronous driver, with the machine of `g`, that a loop runs. -/
def driverActs (d : Gen) (outer : Bool) (p : ExecuteAsync.Phase) : List (Activation (guest c)) :=
  [.running d (.library (.executeAsync p)), looping d outer, .calling (.guest .passing)]

theorem relayingHops_concat (d : Gen) (hs : List (Hop (guest c))) (l : Hop (guest c)) :
    relayingHops d (hs ++ [l]) = relayingHops d hs ++ [.relaying l.gen l.routine (bottom d hs)] := by
  induction hs generalizing d with
  | nil => rfl
  | cons h hs ih => exact congrArg (_ :: ·) (ih h.gen)

theorem runningHops_concat (hs : List (Hop (guest c))) (l : Hop (guest c)) :
    runningHops (hs ++ [l]) = runningHops hs + {.gen l.gen.id .running} := by
  induction hs with
  | nil => simp [runningHops]
  | cons h hs ih => rw [List.cons_append, runningHops, ih, runningHops, add_assoc]

theorem bottom_concat (d : Gen) (hs : List (Hop (guest c))) (l : Hop (guest c)) :
    bottom d (hs ++ [l]) = l.gen := by
  induction hs generalizing d with
  | nil => rfl
  | cons h hs ih => exact ih h.gen

/-- The asynchronous driver awaits what the action of an escape gives. -/
theorem At.awaited {id : Nat} (launches : Launches action t mem E)
    (h : At (.running d (.library (.executeAsync (.running g n))) :: A)
      (.reply (.yielded (.escape id action))) mem ({.gen d.id .running} + (E + R)) C) :
    Leads 1 C fun C' => ∃ e hs, Handing hs ∧
      At (.running e (.guest (Body.task t)) :: (relayingHops e hs ++
          .relaying d (.library (.executeAsync (.awaiting g (n + 1)))) (bottom e hs) :: A))
        (.reply (.value .none)) mem
        ({.gen e.id .running} + (runningHops hs + ({.gen d.id .running} + R))) C' := by
  have called := At.library (t := .ask (.call action []) (.executeAsync (.acting g (n + 1)))) (some d) h
    fun st => ⟨Store.engine_note _ _ _, rfl⟩
  refine called.followed fun C₁ turned => ?_
  have launched := launches _ _ _ _ (turned.call.of_eq (add_left_comm _ _ _))
  refine launched.after fun C₂ launched => ?_
  obtain ⟨g', I, idle, here⟩ := launched
  have asked := At.library (t := .ask (.await (.gen g')) (.executeAsync (.awaiting g (n + 1))))
    (some d) here fun st => ⟨rfl, rfl⟩
  refine asked.after fun C₃ turned => ?_
  obtain ⟨r, I', rfl⟩ := idle.facts
  have awaited := Turning.awaits (F := I' + ({.gen d.id .running} + R)) idle.kind
    (turned.of_eq (add_assoc _ _ _))
  refine ((idle.starts (awaited.of_eq (add_assoc _ _ _).symm)).mono ?_).eventually
  rintro C₄ ⟨e, hs, rfl, handing, here⟩
  exact ⟨e, hs, handing, here⟩

/-- An asynchronous driver that gives way before it passes an outcome in. -/
def pausingRoutine (g : Gen) (n : Nat) (a : Deep.Answer) : Routine (guest c) :=
  .library (.executeAsync (.pausing g n a.input))

theorem At.pauses (h : At (.running d (.library (.executeAsync (.awaiting g n))) :: A) (.reply a.reply)
      mem ({.gen d.id .running} + R) C) :
    Leads 1 C (At A (.reply (.yielded .none)) mem
      ({.gen d.id (.suspended (pausingRoutine g n a) .pause)} + R)) := by
  have paused := At.library (t := .ask (.yield .none .pause) (.executeAsync (.pausing g n a.input)))
    (some d) h fun st => by
      cases a with
      | value v => exact ⟨rfl, rfl⟩
      | failed x =>
          simp only [Process.step, Deep.Answer.reply, ExecuteAsync.step, ExecuteAsync.awaitFailed,
            if_pos x.isException]
          exact ⟨Store.engine_note _ _ _, rfl⟩
  exact paused.mono fun C' turned => Turning.yield turned

/-- The asynchronous driver sends or throws the outcome in. -/
theorem At.sendsIn (h : At A (.advance d (.send .none)) mem
      ({.gen d.id (.suspended (pausingRoutine g n a) .pause)} + R) C) :
    Leads 1 C (At (.running d (.library (.executeAsync (.running g n))) :: A) (.advance g a.input) mem
      ({.gen d.id .running} + R)) := by
  refine (At.suspended (a := .value .none) h).followed fun C₁ there => ?_
  have sent := At.library (t := .ask (.advance g a.input) (.executeAsync (.running g n))) (some d)
    there fun st => ⟨rfl, rfl⟩
  exact (sent.mono fun C₂ turned => turned.advance).eventually

/-- A loop advances the driver again, which passes the outcome in. -/
theorem At.passesIn (h : At (driverActs d outer (.awaiting g n)) (.reply a.reply) mem
      ({.gen d.id .running} + R) C) :
    Leads 1 C (At (driverActs d outer (.running g n)) (.advance g a.input) mem
      ({.gen d.id .running} + R)) := by
  refine (At.pauses h).followed fun C₁ there => ?_
  have again := At.library (t := .ask (.advance d (.send .none)) (.loop (.running d outer))) none
    there fun st => ⟨rfl, rfl⟩
  refine again.after fun C₂ turned => ?_
  exact (At.sendsIn (Turning.advance turned)).eventually

/-- The driver runs the task of an escape, given that the outcome wakes code. -/
theorem Launches.carries {id : Nat} {root : Gen} (launches : Launches action t mem E)
    (memory : mem.memory = J.memory)
    (wakes : ∀ (a : Deep.Answer) (M : Memory c) (C' : Config (guest c)),
      At (driverActs d outer (.running root (n + 1))) (.advance root a.input)
        { mem with memory := M } ({.gen d.id .running} + F) C' →
      Leads 0 C' (Going (Driver true) { J with memory := M } s a))
    (h : At (driverActs d outer (.running root n)) (.reply (.yielded (.escape id action))) mem
      ({.gen d.id .running} + (E + F)) C) :
    Leads 1 C (Carries (Driver true) { J with control := .task t s }) := by
  let awaiting : Hop (guest c) := ⟨d, .library (.executeAsync (.awaiting root (n + 1)))⟩
  refine (At.awaited launches h).mono ?_
  rintro C' ⟨e, hs, handing, there⟩
  have waits : At (.running e (.guest (Body.task t)) :: (relayingHops e (hs ++ [awaiting]) ++
      looping (bottom e (hs ++ [awaiting])) outer :: [.calling (.guest .passing)])) (.reply (.value .none)) mem
      ({.gen e.id .running} + (runningHops (hs ++ [awaiting]) + F)) C' := by
    rw [relayingHops_concat, bottom_concat, runningHops_concat, List.append_assoc, add_assoc]
    exact there
  refine .task rfl memory waits fun a M C₁ ended => ?_
  · rw [relayingHops_concat, bottom_concat, runningHops_concat, List.append_assoc, add_assoc] at ended
    refine (At.handsDown handing ended).followed fun C₂ ended => ?_
    refine (At.ended ended).after fun C₃ ended => ?_
    refine (At.passesIn (n := n + 1) ended).after fun C₄ sent => ?_
    exact (wakes a M C₄ sent).mono fun C₅ going => going.of_eq rfl rfl rfl

/--
What an escape has suspended, by the generator of the outermost machine: code that waits for
the outcome, or the clause of an awaiter, which has the continuation of code that does.  If
it is closed, so is what is held.
-/
inductive Paused (s : c.State) (ms : List (Mark c.State)) :
    List (Mark c.State) → Gen → Facts (guest c) → Prop
  | code {d : Gen} {L : Level c} {Ls : List (Level c)} (marked : marks (L :: Ls) = ms) :
      Paused s ms (.code s :: ms) (root d (L :: Ls))
        ({.gen d.id (.suspended (codeRoutine s) .direct)} + pausedFacts d (L :: Ls))
  | clause {d : Gen} {k : Cont} {p : Piece c} {below : List (Piece c)} {L : Level c} {Ls : List (Level c)}
      (waits : p.Waits s) (marked : .code s :: ms = pieceMarks (p :: below) ++ marks (L :: Ls)) :
      Paused s ms (marks (L :: Ls)) (root d (L :: Ls))
        ({.gen d.id (.suspended (waitingRoutine k) .direct)} +
          ({.cont k.index (vals (p :: below)) false} + (facts (p :: below) + pausedFacts d (L :: Ls))))

/-- What has escaped asks for its task. -/
theorem Escaped.paused (h : Escaped D t s ms mem R held C) : ∃ g id action E F,
    Asking mem t action E ∧ Paused s ms held g F ∧
      At (D g) (.reply (.yielded (.escape id action))) mem (E + (F + R)) C := by
  cases h with
  | code marked asking here => exact ⟨_, _, _, 0, _, asking, .code marked, At.of_eq here (by abel)⟩
  | clause kind waits marked here =>
      exact ⟨_, _, _, _, _, .awaiting _ kind, .clause waits marked, At.of_eq here (by abel)⟩

/-- Whatever goes in from where an escape has come to wakes the code that waits, whoever has it go in. -/
theorem Paused.wakes (h : Paused s ms held g F) (sent : At (D g) (.advance g a.input) mem (F + R) C) :
    Leads 0 C (Running D (codeRoutine s) a.reply ms mem R) := by
  cases h with
  | @code d L Ls marked =>
      have inside := At.escapesIn (L :: Ls) (d := d) (R := {.gen d.id (.suspended (codeRoutine s) .direct)} + R)
        (At.of_eq sent (by abel))
      refine inside.followed fun C₁ there => ?_
      have woken := At.suspended (At.of_eq there (E := {.gen d.id (.suspended (codeRoutine s) .direct)} +
        (levelFacts d (L :: Ls) + R)) (by abel))
      exact (woken.mono fun C₂ running => ⟨d, L, Ls, marked, running⟩).eventually
  | @clause d k p below L Ls waits marked =>
      have inside := At.escapesIn (L :: Ls) (d := d) (R := {.gen d.id (.suspended (waitingRoutine k) .direct)} +
        ({.cont k.index (vals (p :: below)) false} + (facts (p :: below) + R)))
          (At.of_eq sent (by abel))
      refine inside.followed fun C₁ there => ?_
      have woken := At.suspended (At.of_eq there (E := {.gen d.id (.suspended (waitingRoutine k)
        .direct)} + ({.cont k.index (vals (p :: below)) false} + (facts (p :: below) +
          (levelFacts d (L :: Ls) + R)))) (by abel))
      refine woken.after fun C₂ there => ?_
      refine ((At.clauseAnswers (D := D) waits there).mono ?_).eventually
      rintro C₃ ⟨ms', same, running⟩
      obtain rfl : ms' = ms := (List.cons_eq_cons.1 (same.trans marked.symm)).2
      exact running

/-- The driver has the task of an escape run, and its outcome goes to the code that waits. -/
theorem Escaped.carries (driver : Driver true D B) (recalls : Recalls J es mem)
    (h : Escaped D t s (stackMarks J.stack) mem (entryFacts es + B) held C) :
    Leads 1 C (Carries (Driver true) { J with control := .task t s }) := by
  obtain ⟨root, id, action, E, F, asking, paused, here⟩ := h.paused
  cases driver with
  | async d n outer =>
      refine asking.launches.carries (F := F + entryFacts es) recalls.memory (fun a M C' sent => ?_)
        (At.of_eq here (by abel))
      have woken := paused.wakes (D := fun g => driverActs d outer (.running g (n + 1)))
        (R := entryFacts es + {.gen d.id .running}) (At.of_eq sent (by abel))
      exact woken.mono fun C'' running => ⟨_, _, es, { mem with memory := M }, .waiting s, a.reply,
        .async d (n + 1) outer, ⟨rfl, recalls.handles, recalls.slices⟩, goes_waiting s a, running⟩

end OneShot.Joined
