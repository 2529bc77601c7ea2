import OneShot.Proofs.Joined.Delivering
import OneShot.Proofs.Joined.Owning

/-!
# Performing operations

Code performs an operation by yielding an invocation, or by delegating to a
generator that does so.  The invocation is dispatched; the owner answers by a
clause of the program, by the loop of a state, or by having a coroutine run.
-/

namespace OneShot.Joined

open Config (Leads)
open Deep (Failure Result Place)

variable {c : Code} {V : Drivers c} {J : Program c} {es : List (Entry c)} {mem mem' : Memo c}
  {B F R : Facts (guest c)} {D : Base c} {C : Config (guest c)} {g d : Gen} {m : Nat} {b : Bound}
  {e : Effect} {args : List Val} {s : c.State} {L : Level c} {Ls : List (Level c)}
  {A : List (Activation (guest c))} {ms : List (Mark c.State)}

/-! ## Places of invocations -/

/-- What an invocation records of the place where code makes it, under the settings of a run. -/
def recorded (S : Settings) (caller : Caller) (i : Nat) : Val :=
  if S.debug then
    .context ⟨i, .str caller.file, .int caller.line, .str caller.function,
      Site.sourceLine S (.str caller.file) (.int caller.line)⟩
  else .none

theorem invocation_recorded (st : Store) (e : Effect) (args : List Val) (caller : Caller) :
    ∃ id a i, (e.invocation st args caller).2 = .invocation id ⟨.effect e, a, recorded st.settings caller i⟩ ∧
      a.values = args := by
  cases debug : st.settings.debug with
  | true =>
      obtain ⟨id, a, made, values⟩ := Deep.invocationAt_eq (Site.callerContext caller st).1 e args
        (recorded st.settings caller st.freshId.2)
      refine ⟨id, a, st.freshId.2, ?_, values⟩
      rw [← made, Effect.invocation, recorded]
      simp only [debug, if_true]
      rfl
  | false =>
      obtain ⟨id, a, made, values⟩ := Deep.invocationAt_eq st e args .none
      refine ⟨id, a, 0, ?_, values⟩
      simpa [Effect.invocation, recorded, debug] using made

/-- The place of an invocation that code makes, as far as the settings are known. -/
def Recorded (F : Facts (guest c)) (caller : Caller) (context : Val) : Prop :=
  ∃ S i, context = recorded S caller i ∧ ∀ S', .settings S' ∈ F → S = S'

theorem Recorded.place {caller : Caller} {context : Val} (h : Recorded F caller context) : Place context := by
  obtain ⟨S, i, rfl, -⟩ := h
  unfold recorded
  split
  · exact .known _
  · exact .unknown

theorem Recorded.mono {caller : Caller} {context : Val} (h : Recorded F caller context)
    (less : ∀ f ∈ R, f ∈ F) : Recorded R caller context := by
  obtain ⟨S, i, same, known⟩ := h
  exact ⟨S, i, same, fun S' there => known S' (less _ there)⟩

def Operation.caller {τ : Type} : Operation τ → Caller
  | .await _ _ => .awaiting
  | .shift _ _ => .shift
  | _ => .program

/-! ## Yielding invocations -/

/-- A generator that is about to yield an invocation of an effect. -/
def Invokes (A : List (Activation (guest c))) (d : Gen) (tip : Tip c) (e : Effect)
    (args : List Val) (caller : Caller) (mem : Memo c) (F : Facts (guest c)) (C : Config (guest c)) : Prop :=
  ∃ j a context, a.values = args ∧ Recorded F caller context ∧
    At A (.reply (.yielded (.invocation j ⟨.effect e, a, context⟩))) mem
      ({.gen d.id (.suspended tip.routine tip.how)} + F) C

/-- Code calls an effect, and yields the invocation that it gets. -/
theorem At.yieldsInvocation (h : At (.running d (.guest (Body.yielding s)) :: A)
      (.call (.effect e) args .program) mem ({.gen d.id .running} + F) C) :
    Leads 1 C (Invokes A d (.code s) e args .program mem F) := by
  have called := At.invokesUnder h (by simp) fun st => Store.engine_invocation st e args .program
  refine called.followed fun C₁ started => ?_
  obtain ⟨st, suits, started⟩ := started
  obtain ⟨j, a, i, made, values⟩ := invocation_recorded st e args .program
  have done : Invoked (.running d (.guest (Body.yielding s)) :: A)
      (.done (.invocation j ⟨.effect e, a, recorded st.settings .program i⟩)) mem
        ({.gen d.id .running} + F) C₁ := by
    rw [← made]
    exact started
  have turned := At.guest (t := .ask (.yield (.invocation j ⟨.effect e, a, _⟩) .direct)
    (Body.waiting s)) (some d) done.done rfl
  exact (turned.mono fun C₂ turning => ⟨j, a, _, values,
    ⟨_, i, rfl, fun S there => suits S (Multiset.mem_add.2 (.inr there))⟩, turning.yield⟩).eventually

/-- A generator of the library performs an effect. -/
theorem At.performsEffect {caller : Caller} (h : At A (.advance d (.send .none)) mem
      ({.gen d.id (.fresh (.library (.performing e args caller)))} + F) C) :
    Leads 1 C (Invokes A d .pass e args caller mem F) := by
  refine (At.fresh h).followed fun C₁ running => ?_
  have turned := At.turnsUnder (some d) running fun st => by
    simp only [Process.step, Store.engine_invocation]
  refine (turned.mono fun C₂ turning => ?_).eventually
  obtain ⟨st, suits, turning⟩ := turning
  obtain ⟨j, a, i, made, values⟩ := invocation_recorded st e args caller
  refine ⟨j, a, _, values, ⟨_, i, rfl, fun S there => suits S (Multiset.mem_add.2 (.inr there))⟩, Turning.yield ?_⟩
  rw [← made]
  exact turning

/-- Code has performed an operation, and the invocation was dispatched. -/
inductive Performed (D : Base c) (mem : Memo c) (ms : List (Mark c.State)) (s : c.State) :
    Operation c.Task → Facts (guest c) → Config (guest c) → Prop
  | made {o : Operation c.Task} {a : Arguments} {context : Val} {p : Piece c}
      {R : Facts (guest c)} {C : Config (guest c)} (other : ∀ n t, o ≠ .await n t)
      (waits : p.Waits s) (values : a.values = o.args) (place : Recorded R o.caller context)
      (dispatched : Dispatched D o.effect a context p mem R (.code s :: ms) C) :
      Performed D mem ms s o R C
  /-- The invocation carries a coroutine that was not started. -/
  | await {n : Nat} {u : c.Task} {a : Arguments} {context : Val} {p : Piece c} {g : Gen}
      {R : Facts (guest c)} {C : Config (guest c)} (kind : g.kind = .coroutine) (waits : p.Waits s)
      (values : a.values = [.gen g]) (place : Recorded R .awaiting context)
      (dispatched : Dispatched D (awaitEffect n) a context p mem
        ({.gen g.id (.fresh (.guest (Body.task u)))} + R) (.code s :: ms) C) :
      Performed D mem ms s (.await n u) R C

/-- Code delegates to a generator of the library that performs an effect. -/
theorem At.performsThrough {caller : Caller} (kind : g.kind = .generator)
    (h : At (.running d (.guest (Body.asked (.delegate s))) :: under D d (L :: Ls))
      (.reply (.value (.gen g))) mem
      ({.gen g.id (.fresh (.library (.performing e args caller)))} +
        ({.gen d.id .running} + (levelFacts d (L :: Ls) + R))) C) :
    Leads 1 C fun C' => ∃ p a context, p.Waits s ∧ a.values = args ∧ Recorded R caller context ∧
      Dispatched D e a context p mem R (.code s :: marks (L :: Ls)) C' := by
  refine ((At.guest (t := .ask (.delegate (.gen g)) (Body.waiting s)) (some d) h rfl).bind
    (n := 0) fun C₁ turned => ?_)
  have delegated := At.delegates (.code s) (L := L) (R := R)
    (E := {.gen g.id (.fresh (.library (.performing e args caller)))})
    ((turned.delegate kind).of_eq (by abel))
  refine (At.performsEffect delegated).after fun C₂ invokes => ?_
  obtain ⟨j, a, context, values, place, here⟩ := invokes
  have performed := At.performs (L := L.linked d (.code s)) (R := R) .pass (here.of_eq (by
    simp only [Tip.facts]
    abel))
  refine (performed.mono fun C₃ dispatched => ?_).eventually
  rw [marks_linked] at dispatched
  exact ⟨_, a, context, .pass g d s L.links L.tag, values,
    place.mono fun f there => Multiset.mem_add.2 (.inr there), dispatched⟩

theorem enter_task {m : Memo c} {i : Nat} {t : c.Task} (there : m.tasks[i]? = some t)
    (args : List Val) : enter m (5 * i + 3) args = (m, .spawn .coroutine (.task t)) := by
  have kind : (5 * i + 3) % 5 = 3 := by omega
  have number : (5 * i + 3) / 5 = i := by omega
  simp only [enter, kind, number, there]

/-- A call of the function of a coroutine. -/
theorem At.makesTask {t : c.Task} {caller : Caller} (mem : Memo c)
    (h : At A (.call (mem.newTask t).2 [] caller) (mem.newTask t).1 F C) :
    Leads 1 C fun C' => ∃ g : Gen, g.kind = .coroutine ∧ At A (.reply (.value (.gen g)))
      (mem.newTask t).1 ({.gen g.id (.fresh (.guest (Body.task t)))} + F) C' :=
  At.spawns h (enter_task (by simp [Memo.newTask]) [])

theorem Running.performs {body : Body c} {r : Reply} {a : Deep.Answer} {o : Operation c.Task}
    {s' : c.State} (goes : Goes body r s a) (acts : (mem.memory.step s a).2 = .perform o s')
    (h : Running D (.guest body) r ms mem R C) :
    Leads 1 C fun C' => ∃ mem' : Memo c, mem'.memory = (mem.memory.step s a).1 ∧
      mem'.handles = mem.handles ∧ Performed D mem' ms s' o R C' := by
  obtain ⟨d, L, Ls, rfl, here⟩ := h
  let mem' : Memo c := { mem with memory := (mem.memory.step s a).1 }
  have stepped : (guest c).step mem body r = Body.act mem' (.perform o s') := by
    rw [← acts]
    exact goes mem
  -- An effect that code calls itself, and yields the invocation.
  have yields (other : ∀ n t, o ≠ .await n t) (caller : o.caller = .program) (asked : Body.act mem' (.perform o s') =
      (mem', .ask (.call (.effect o.effect) o.args) (.yielding s'))) :
      Leads 1 C fun C' => ∃ mem' : Memo c, mem'.memory = (mem.memory.step s a).1 ∧
        mem'.handles = mem.handles ∧ Performed D mem' (marks (L :: Ls)) s' o R C' := by
    refine (At.guest (some d) here (stepped.trans asked)).followed fun C₁ turned => ?_
    refine (At.yieldsInvocation turned.call).after fun C₂ invokes => ?_
    obtain ⟨j, arguments, context, values, place, here⟩ := invokes
    have performed := At.performs (R := R) (.code s') (here.of_eq (by
      simp only [Tip.facts]
      abel))
    exact (performed.mono fun C₃ dispatched =>
      ⟨mem', rfl, rfl, .made other (.code d s' L.links L.tag) values
        (caller ▸ place.mono fun f there => Multiset.mem_add.2 (.inr there)) dispatched⟩).eventually
  cases o with
  | ask e args => exact yields (by simp) rfl rfl
  | get n => exact yields (by simp) rfl rfl
  | put n v => exact yields (by simp) rfl rfl
  | shift n j =>
      refine (At.guest (some d) here stepped).followed fun C₁ turned => ?_
      have spawned := At.starts (t := .spawn .generator "Prompt.shift0"
        (.performing (shiftEffect n) [clause j] .shift)) (Turning.call turned) (by simp)
          fun st => ⟨rfl, rfl⟩
      refine spawned.after fun C₂ started => ?_
      obtain ⟨g, kind, here⟩ := started.spawn
      refine ((At.performsThrough (R := R) kind here).mono fun C₃ performed => ?_).eventually
      obtain ⟨p, arguments, context, waits, values, place, dispatched⟩ := performed
      exact ⟨mem', rfl, rfl, .made (by simp) waits values place dispatched⟩
  | await n u =>
      refine (At.guest (some d) here stepped).followed fun C₁ turned => ?_
      refine (At.makesTask mem' (Turning.call turned)).after fun C₂ made => ?_
      obtain ⟨g, kind, here⟩ := made
      refine ((At.guest (t := .ask (.call (.native (.service .awaitEffect))
        [.awaiter (awaiter n), .gen g]) (Body.asked (.delegate s'))) (some d) here rfl).followed
          fun C₃ turned => ?_).eventually
      have spawned := At.starts (t := .spawn .generator "AsyncAwait.await_"
        (.performing (awaitEffect n) [.gen g] .awaiting)) turned.call (by simp) fun st => ⟨rfl, rfl⟩
      refine spawned.after fun C₄ started => ?_
      obtain ⟨g', kind', here⟩ := started.spawn
      have through := At.performsThrough (R := {.gen g.id (.fresh (.guest (Body.task u)))} + R) kind'
        (here.of_eq (by abel))
      refine (through.mono fun C₅ performed => ?_).eventually
      obtain ⟨p, arguments, context, waits, values, place, dispatched⟩ := performed
      exact ⟨(mem'.newTask u).1, rfl, rfl, .await kind waits values
        (place.mono fun f there => Multiset.mem_add.2 (.inr there)) dispatched⟩

/-! ## Who answers -/

section

variable {context v : Val} {a : Arguments} {p : Piece c} {above : List (Part c.State)}
  {rest : List (Mark c.State)}

/-- The first mark that owns the effect answers; what is above it was captured. -/
theorem Dispatched.answered (h : Dispatched D e a context p mem R
      (.code s :: (stackMarks above ++ .bound b :: rest)) C) (free : Free e (stackMarks above))
    (owns : b.handler.clause? e = some v) :
    ∃ us below t k g m Ls, pieceMarks (p :: us) = .code s :: stackMarks above ∧
      rest = pieceMarks below ++ marks Ls ∧
        At (Machine.activation g m .calling :: under D g Ls)
          (.call v (.cont k :: a.values) .machine) mem
          ({.cont k.index (vals (p :: us ++ [.bound b t])) false} +
            (facts (p :: us) + (inside g m below Ls + R))) C := by
  have free' : Free e (.code s :: stackMarks above) := by
    intro b mem
    exact free b (by simpa using mem)
  generalize same : Mark.code s :: (stackMarks above ++ .bound b :: rest) = ms at h
  cases h with
  | @owned us below b' t v' k g m Ls C free'' owns' here =>
      obtain ⟨marked, rfl, rfl⟩ := owner_unique same free' free''
        (by simp [owns]) (by simp [owns'])
      cases owns.symm.trans owns'
      exact ⟨us, below, t, k, g, m, Ls, marked.symm, rfl, here⟩
  | @unowned us k id g m C free'' here =>
      have missing := free'' b (same ▸ by simp)
      rw [missing] at owns
      contradiction

/-- What no mark owns has come to what waits for the outermost machine. -/
theorem Dispatched.unanswered (h : Dispatched D e a context p mem R ms C) (free : Free e ms) :
    ∃ us k id g m, pieceMarks (p :: us) = ms ∧
      At (D g) (.reply (.yielded (.resend id ⟨.effect e, a, .cont k, context⟩))) mem
        ({.cont k.index (vals (p :: us)) false} + (facts (p :: us) +
          ({.gen g.id (.suspended (Tip.relay m).routine (Tip.relay m : Tip c).how)} +
            ((Tip.relay m).facts + R)))) C := by
  cases h with
  | @owned us below b' t v' k g m Ls C free' owns' here =>
      have missing := free b' (by simp)
      rw [missing] at owns'
      contradiction
  | @unowned us k id g m C free' here => exact ⟨us, k, id, g, m, rfl, here⟩

end

/-! ## Clauses of the program -/

theorem enter_clause (m : Memo c) (j : Nat) (k : Cont) (args : List Val) :
    enter m (5 * j + 2) (.cont k :: args) =
      ({ m with memory := (m.memory.clause j m.handles.length args).1, handles := m.handles ++ [k] },
        entryOf (m.memory.clause j m.handles.length args).2) := by
  have kind : (5 * j + 2) % 5 = 2 := by omega
  have number : (5 * j + 2) / 5 = j := by omega
  simp only [enter, kind, number]

theorem Recalls.length_slices (h : Recalls J es mem) : J.slices.length = mem.handles.length := by
  rw [h.handles, List.length_map, h.slices.length_eq]

/-- A function of the program is called with the slice above a part of the stack. -/
theorem At.answers {f : Part c.State} {above below : List (Part c.State)} {p : Piece c}
    {us ps : List (Piece c)} {t : Tag} {k : Cont} {j : Nat} {caller : Caller}
    (driver : V D B) (recalls : Recalls J es mem) (bound : f.marks = [.bound b])
    (waits : p.Waits s) (slice : pieceMarks (p :: us) = .code s :: stackMarks above)
    (rest : stackMarks below = pieceMarks ps ++ marks Ls)
    (h : At (Machine.activation g m .calling :: under D g Ls) (.call (clause j) (.cont k :: args) caller)
      mem ({.cont k.index (vals (p :: us ++ [.bound b t])) false} +
        (facts (p :: us) + (inside g m ps Ls + (entryFacts es + B)))) C) :
    Leads 1 C (Carries V (J.answered j args (s, above ++ [f]) below)) := by
  let entry : Joined.Entry c := .pending k p (us ++ [.bound b t])
  have same : pieceMarks (p :: (us ++ [.bound b t])) = .code s :: stackMarks (above ++ [f]) := by
    rw [← List.cons_append, pieceMarks_append, slice]
    simp [Piece.marks, bound]
  let mem' : Memo c :=
    { mem with memory := (mem.memory.clause j mem.handles.length args).1,
               handles := mem.handles ++ [k] }
  let J' : Program c :=
    { J with memory := mem'.memory, slices := J.slices ++ [some (s, above ++ [f])], stack := below }
  have recalls' : Recalls J' (es ++ [entry]) mem' :=
    ⟨rfl, by simp [mem', recalls.handles, entry, Entry.cont],
      List.rel_append recalls.slices (.cons (.pending waits same) .nil)⟩
  have opened := At.opens _ driver recalls' rest (enter_clause mem j k args) (h.of_eq (by
    simp only [entryFacts_append, entryFacts, Entry.facts, entry, List.cons_append, facts,
      facts_append, Piece.facts]
    abel))
  simpa only [Program.answered, recalls.memory, recalls.length_slices, mem', J'] using opened

/-- A clause of the program is called, or the body that a prompt has got. -/
theorem Performed.clause {o : Operation c.Task} {f : Part c.State} {above below : List (Part c.State)} {j : Nat}
    {args : List Val} {v : Val} {left : List (Mark c.State)} (driver : V D B)
    (recalls : Recalls J es mem) (stack : J.stack = above ++ f :: below)
    (free : Free o.effect (stackMarks above)) (answers : Answers f o (.clause j args) b v left)
    (h : Performed D mem (stackMarks J.stack) s o (entryFacts es + B) C) :
    Leads 1 C (Carries V (J.answered j args (s, above ++ [f]) below)) := by
  have owns := answers.owns
  cases h with
  | await => cases answers
  | @made _ a context p R C other waits values place dispatched =>
      rw [stack, stackMarks_append, stackMarks_cons, answers.marks, List.cons_append] at dispatched
      obtain ⟨us, ps, t, k, g, m, Ls, slice, rest, called⟩ := dispatched.answered free owns
      rw [values] at called
      cases answers with
      | clause clause => exact At.answers driver recalls rfl waits slice rest called
      | body n j =>
          refine (At.starts (t := .call (Joined.clause j) [.cont k] .promptClause) called (by simp)
            fun st => ⟨rfl, rfl⟩).followed fun C' started => ?_
          exact (At.answers driver recalls rfl waits slice rest started.call).eventually

/-! ## States -/

theorem Running.weaken {p : Routine (guest c)} {r : Reply} {E : Facts (guest c)}
    (h : Running D p r ms mem (E + R) C) : Running D p r ms mem R C := by
  obtain ⟨d, L, Ls, marked, here⟩ := h
  exact ⟨d, L, Ls, marked, At.right (here.of_eq (E := E + ({.gen d.id .running} +
    (levelFacts d (L :: Ls) + R))) (by abel))⟩

/-- A clause has reported an operation; the loop of the state answers the report. -/
theorem Arrived.answersReport {v v' w : Val} {k : Cont} {id : Nat} {report : Report} {f : Val}
    {args : List Val} {p : Piece c} {below : List (Piece c)}
    (answers : StateLoop.answer v (.report id report) = .ask (.call f args) (.entering v'))
    (made : ∀ caller, (Signal.call f args caller).request? = some ⟨k, w, .none⟩) (waits : p.Waits s)
    (h : Arrived D (.value (.report id report) rfl) mem
      ({.cont k.index (vals (p :: below)) false} + (facts (p :: below) + R)) (.loop v :: ms) C) :
    Leads 1 C fun C' => ∃ ms', .code s :: ms' = pieceMarks (p :: below) ++ .loop v' :: ms ∧
      Running D (codeRoutine s) (.value w) ms' mem R C' := by
  cases h with
  | @loop d v L Ls C here =>
      have turned := At.library (t := .ask (.call f args) (.state (.entering v'))) (some d) here
        fun st => ⟨rfl, congrArg (Turn.map Process.state) answers⟩
      refine turned.followed fun C₁ turned => ?_
      have hands := hands_delegating (D := D) (g := d) (L := L) (.loop v') Ls
        (p := .library (.state (.entering v'))) fun d' mem F C h =>
          At.library (t := .ask (.delegate (.gen d')) (.state (.stepping v'))) (some d) h
            fun st => ⟨rfl, rfl⟩
      have woken := hands.wakes (R := R) (b := .value w) (made _) waits
        (turned.call.of_eq (by abel))
      refine (woken.mono ?_).eventually
      rintro C₂ ⟨ms', marked, running⟩
      exact ⟨ms', marked, running.weaken⟩

/-- The clause of a state, which reports the operation to the loop. -/
theorem At.reports {kind : ReportKind} {report : Report} {caller : Caller}
    (fits : (Report.signature kind).fault? args.length = none)
    (made : Report.ofKind kind args = some report)
    (h : At (Machine.activation g m .calling :: under D g Ls)
      (.call (.native (.report kind)) args caller) mem (inside g m ps Ls + R) C) :
    Leads 1 C fun C' => ∃ id, Arrived D (.value (.report id report) rfl) mem R
      (pieceMarks ps ++ marks Ls) C' := by
  have starts (st : Store) : invoke st (.native (.report kind)) args caller =
      (st.freshId.1, .done (.report st.freshId.2 report)) := by
    simp only [invoke, Native.start, Native.signature?, Option.bind_some, fits, made, Option.elim]
  refine (At.invokes h (by simp) fun st => by rw [starts]; rfl).followed fun C₁ started => ?_
  obtain ⟨st, started⟩ := started
  rw [starts] at started
  exact ((At.answeredAtOnce (r := .value (.report st.freshId.2 report) rfl) started.done).mono
    fun C₂ arrived => ⟨_, arrived⟩).eventually

/-- A state answers an operation with a value. -/
theorem Performed.value {o : Operation c.Task} {f left : Part c.State} {above below : List (Part c.State)}
    {u v : Val} {rest : List (Mark c.State)} (driver : V D B) (recalls : Recalls J es mem)
    (stack : J.stack = above ++ f :: below) (free : Free o.effect (stackMarks above))
    (answers : Answers f o (.value v left) b u rest)
    (h : Performed D mem (stackMarks J.stack) s o (entryFacts es + B) C) :
    Leads 1 C (Carries V
      { J with stack := above ++ left :: below, control := .code s (.value v) }) := by
  have owns := answers.owns
  cases h with
  | await => cases answers
  | @made _ a context p R C other waits values place dispatched =>
      rw [stack, stackMarks_append, stackMarks_cons, answers.marks, List.cons_append] at dispatched
      obtain ⟨us, ps, t, k, g, m, Ls, slice, marked, called⟩ := dispatched.answered free owns
      rw [values] at called
      -- The loop resumes the slice, with a value of its own that it keeps or gets.
      have answered {kind : ReportKind} {args : List Val} {caller : Caller} {i n : Nat} {w w' : Val}
          {report : Report} {f' : Val} {args' : List Val} {C' : Config (guest c)}
          (bound : b = .state n) (kept : rest = [.loop w]) (left' : left = .state i n w')
          (fits : (Report.signature kind).fault? args.length = none)
          (made : Report.ofKind kind args = some report)
          (replies : ∀ id, StateLoop.answer w (.report id report) = .ask (.call f' args') (.entering w'))
          (requests : ∀ caller, (Signal.call f' args' caller).request? = some ⟨k, v, .none⟩)
          (called : At (Machine.activation g m .calling :: under D g Ls)
            (.call (.native (.report kind)) args caller) mem
            ({.cont k.index (vals (p :: us ++ [.bound b t])) false} +
              (facts (p :: us) + (inside g m ps Ls + (entryFacts es + B)))) C') :
          Leads 1 C' (Carries V
            { J with stack := above ++ left :: below, control := .code s (.value v) }) := by
        subst bound kept left'
        have reported := At.reports fits made (R := {.cont k.index (vals (p :: (us ++ [.bound (.state n) t])))
          false} + (facts (p :: (us ++ [.bound (.state n) t])) + (entryFacts es + B))) (called.of_eq (by
            simp only [List.cons_append, facts, facts_append, Piece.facts]
            abel))
        refine reported.followed fun C₁ arrived => ?_
        obtain ⟨id, arrived⟩ := arrived
        rw [← marked] at arrived
        refine ((arrived.answersReport (replies id) requests waits).mono ?_).eventually
        rintro C₂ ⟨ms', same, running⟩
        refine .code rfl ⟨D, B, es, mem, .waiting s, (Deep.Answer.value v).reply, driver,
          recalls.of_eq rfl rfl, goes_waiting s (.value v), ?_⟩
        rw [← List.cons_append, pieceMarks_append, slice] at same
        have stack' : stackMarks (above ++ .state i n w' :: below) = ms' := by
          simpa [Piece.marks, Part.marks] using same.symm
        exact stack'.symm ▸ running
      cases answers with
      | get i n w => exact answered rfl rfl rfl rfl rfl (fun id => rfl) (fun caller => rfl) called
      | put i n w w' => exact answered rfl rfl rfl rfl rfl (fun id => rfl) (fun caller => rfl) called

end OneShot.Joined
