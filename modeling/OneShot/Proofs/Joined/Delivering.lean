import OneShot.Proofs.Joined.Requests

/-!
# Delivering results

What becomes of a result that has come to the topmost part of a stack, and of
the calls of return handlers and clauses.
-/

namespace OneShot.Joined

open Config (Leads)
open Deep (Failure Result)

variable {c : Code} {V : Drivers c} {J : Program c} {es : List (Entry c)} {mem mem' : Memo c}
  {B R : Facts (guest c)} {D : Base c} {C : Config (guest c)} {g : Gen} {m : Nat} {b : Bound}
  {t : Tag} {r : Result} {ps : List (Piece c)} {Ls : List (Level c)} {ms : List (Mark c.State)}

/-! ## Calls of the program's functions -/

/-- What is below a machine's level, as parts of a program's stack. -/
theorem Settling.carried (driver : V D B) (recalls : Recalls J es mem)
    (marked : stackMarks J.stack = pieceMarks ps ++ marks Ls)
    (h : Settling g m (under D g Ls) r.answer.outcome mem
      (inside g m ps Ls + (entryFacts es + B)) C) :
    Leads 0 C (Carries V { J with control := .result r }) := by
  refine ((Settling.arrived h).eventually).mono fun C' arrived => ?_
  exact .result rfl driver (recalls.of_eq rfl rfl) (marked ▸ arrived)

/-- A machine gets a generator from a function that it has called. -/
theorem hands_calling (D : Base c) (g : Gen) (m : Nat) (ps : List (Piece c)) (Ls : List (Level c)) :
    Hands (.calling (.guest (Body.asked .pass)) :: Machine.activation g m .calling :: under D g Ls) D
      (pieceMarks ps ++ marks Ls) (inside g m ps Ls) := by
  intro d mem E R C kind h
  have wrapped := At.wrapped h
  refine wrapped.followed fun C₁ here => ?_
  have pushed := At.pushed kind (here.of_eq (E := {.machine m (vals ps)} +
    ({.gen g.id .running} + (facts ps + (levelFacts g Ls + (E + R))))) (by
      simp only [inside]
      abel))
  refine (pushed.mono ?_).eventually
  rintro C₂ ⟨t, here⟩
  refine ⟨⟨[], t, g, m, ps⟩, Ls, by simp, ?_⟩
  rw [under_cons]
  refine At.of_eq here ?_
  simp only [levelFacts, Level.facts, hops, List.map_nil, bottom, runningHops]
  abel

/-- A machine calls a return handler or a clause of the program. -/
theorem At.opens (mem' : Memo c) {id : Nat} {name : String} {args : List Val} {caller : Caller}
    {o : Opening c.State} (driver : V D B) (recalls : Recalls J es mem')
    (marked : stackMarks J.stack = pieceMarks ps ++ marks Ls)
    (entered : enter mem id args = (mem', entryOf o))
    (h : At (Machine.activation g m .calling :: under D g Ls) (.call (.closure id name) args caller)
      mem (inside g m ps Ls + (entryFacts es + B)) C) :
    Leads 1 C (Carries V (J.opened o)) := by
  cases o with
  | result r =>
      refine (At.enters h entered).followed fun C₁ running => ?_
      have turned := At.guest (t := r.turn) none running rfl
      refine turned.after fun C₂ turning => ?_
      rw [Result.turn_eq, Deep.Answer.map_turn] at turning
      refine (At.called turning.returns).after fun C₃ settling => ?_
      exact Settling.carried driver recalls marked settling
  | request q =>
      refine (At.enters h entered).followed fun C₁ running => ?_
      have turned := At.guest (t := (Body.request mem' .pass q).2) none running rfl
      refine turned.after fun C₂ turning => ?_
      refine Hands.requested _ (marked ▸ hands_calling D g m ps Ls) driver recalls
        (fun C' refused => ?_) turning
      have raised := Turning.returns (a := .failed resumedTwice) refused
      refine ((At.called (r := .failed resumedTwice) raised).followed fun C₃ settling =>
        ?_).eventually
      exact Settling.carried driver recalls marked settling

/-! ## Passing handlers -/

theorem inside_bound (g : Gen) (m : Nat) (b : Bound) (t : Tag) (ps : List (Piece c))
    (Ls : List (Level c)) (R : Facts (guest c)) : inside g m (.bound b t :: ps) Ls + R =
      {.machine m (boundFrame b t :: vals ps)} +
        ({.gen g.id .running} + (facts ps + (levelFacts g Ls + R))) := by
  simp only [inside, vals, List.map_cons, Piece.val, facts, Piece.facts]
  abel

theorem inside_eq (g : Gen) (m : Nat) (ps : List (Piece c)) (Ls : List (Level c))
    (R : Facts (guest c)) : {.machine m (vals ps)} +
      ({.gen g.id .running} + (facts ps + (levelFacts g Ls + R))) = inside g m ps Ls + R := by
  simp only [inside]
  abel

/-- A failure passes the frame of a handler. -/
theorem Arrived.passes {x : Failure} (h : Arrived D (.failed x) mem R (.bound b :: ms) C) :
    Leads 0 C (Arrived D (.failed x) mem R ms) := by
  cases h with
  | @bound g m b t ps Ls C here =>
      have passed := Settling.passes (h := b.handler) (t := t) (proper_vals ps)
        (Settling.of_eq here (inside_bound g m b t ps Ls R))
      exact (Settling.arrived (r := .failed x) (Settling.of_eq passed
        (inside_eq g m ps Ls R))).eventually

/-- A value comes to the call of the return handler of a frame. -/
theorem Arrived.returns {v : Val} {plain : v.generator? = none}
    (h : Arrived D (.value v plain) mem R (.bound b :: ms) C) :
    ∃ g m ps Ls, ms = pieceMarks ps ++ marks Ls ∧
      At (Machine.activation g m .calling :: under D g Ls) (.call b.handler.onReturn [v] .machine)
        mem (inside g m ps Ls + R) C := by
  cases h with
  | @bound g m b t ps Ls C here =>
      have called := Settling.returns (h := b.handler) (t := t)
        (Settling.of_eq here (inside_bound g m b t ps Ls R))
      exact ⟨g, m, ps, Ls, rfl, called.of_eq (inside_eq g m ps Ls R)⟩

/-- A return handler has answered at once. -/
theorem At.answeredAtOnce (h : At (Machine.activation g m .calling :: under D g Ls)
      (.reply r.answer.reply) mem (inside g m ps Ls + R) C) :
    Leads 1 C (Arrived D r mem R (pieceMarks ps ++ marks Ls)) := by
  refine (At.called h).followed fun C' settling => ?_
  exact (Settling.arrived settling).eventually

theorem Arrived.identity {v : Val} {plain : v.generator? = none}
    (identity : b.handler.onReturn = .native .identity)
    (h : Arrived D (.value v plain) mem R (.bound b :: ms) C) :
    Leads 1 C (Arrived D (.value v plain) mem R ms) := by
  obtain ⟨g, m, ps, Ls, rfl, called⟩ := h.returns
  rw [identity] at called
  refine (At.starts (t := .done v) called (by simp) fun s => ⟨rfl, rfl⟩).followed
    fun C' started => ?_
  exact (At.answeredAtOnce (r := .value v plain) started.done).eventually

/-- A value that passes the handler of a state is reported. -/
theorem Arrived.reports {v : Val} {plain : v.generator? = none} {n : Nat}
    (h : Arrived D (.value v plain) mem R (.bound (.state n) :: ms) C) :
    Leads 1 C fun C' => ∃ id, Arrived D (.value (.report id (.done v)) rfl) mem R ms C' := by
  obtain ⟨g, m, ps, Ls, rfl, called⟩ := h.returns
  have reported := At.invokes (f := (Bound.state n).handler.onReturn) called (by
    simp [Bound.handler, stateEffect, StateEffect.onDone]) fun s => rfl
  refine reported.followed fun C' started => ?_
  obtain ⟨s, started⟩ := started
  have done : Invoked (Machine.activation g m .calling :: under D g Ls)
      (.done (.report s.nextId (.done v))) mem (inside g m ps Ls + R) C' := started
  exact ((At.answeredAtOnce (r := .value (.report s.nextId (.done v)) rfl) done.done).mono
    fun C'' arrived => ⟨s.nextId, arrived⟩).eventually

/-- The loop of a state ends. -/
theorem Arrived.leavesLoop {r r' : Result} {w : Val}
    (answers : ∀ s, (Process.state (.stepping w)).step s r'.answer.reply = (s, r.answer.turn))
    (h : Arrived D r' mem R (.loop w :: ms) C) : Leads 1 C (Arrived D r mem R ms) := by
  cases h with
  | @loop d w L Ls C here =>
      have ended := At.libraryEnds (a := r.answer) here fun s => by
        rw [answers s]
        exact ⟨rfl, rfl⟩
      refine ended.followed fun C' there => ?_
      exact (At.arrives there).eventually

/-! ## Delivering -/

/-- Steps of a program that take no step of the kernel make its stack shorter. -/
def Program.weight (J : Program c) : Nat :=
  match J.control with
  | .result _ => J.stack.length + 1
  | _ => 0

/-- The kernel brings a program to the next one. -/
def Advances (V : Drivers c) (J J' : Program c) (C : Config (guest c)) : Prop :=
  Leads 1 C (Carries V J') ∨ Leads 0 C (Carries V J') ∧ J'.weight < J.weight

theorem enter_onReturn (m : Memo c) (i : Nat) (v : Val) :
    enter m (5 * i + 1) [v] =
      ({ m with memory := (m.memory.onReturn i v).1 }, entryOf (m.memory.onReturn i v).2) := by
  have kind : (5 * i + 1) % 5 = 1 := by omega
  have number : (5 * i + 1) / 5 = i := by omega
  simp only [enter, kind, number]

/-- A value passes the handler of a layer. -/
theorem Arrived.layer {v : Val} {plain : v.generator? = none} {l : Layer} {fs : List (Part c.State)}
    (driver : V D B) (recalls : Recalls J es mem) (stack : J.stack = .layer l :: fs)
    (h : Arrived D (.value v plain) mem (entryFacts es + B) (stackMarks (.layer l :: fs)) C) :
    ∃ J', J.delivered (.value v plain) = .more J' ∧ Leads 1 C (Carries V J') := by
  cases number : l.onReturn with
  | none =>
      have identity : (Bound.layer l).handler.onReturn = .native .identity := by
        simp [Bound.handler, Layer.handler, number]
      refine ⟨{ J with stack := fs, control := .result (.value v plain) }, ?_, ?_⟩
      · simp only [Program.delivered, stack, number]
      · exact (Arrived.identity identity h).mono fun C' arrived =>
          .result rfl driver (recalls.of_eq rfl rfl) arrived
  | some i =>
      obtain ⟨g, m, ps, Ls, marked, called⟩ := h.returns
      have closure : (Bound.layer l).handler.onReturn = .closure (5 * i + 1) "on_return" := by
        simp [Bound.handler, Layer.handler, number]
      rw [closure] at called
      refine ⟨{ J with memory := (J.memory.onReturn i v).1, stack := fs : Program c }.opened
        (J.memory.onReturn i v).2, by simp only [Program.delivered, stack, number], ?_⟩
      rw [← recalls.memory]
      exact At.opens { mem with memory := (mem.memory.onReturn i v).1 } driver
        ⟨rfl, recalls.handles, recalls.slices⟩ marked (enter_onReturn mem i v) called

/-- A result passes the handler of a state and its loop. -/
theorem Arrived.state {i n : Nat} {w : Val} {fs : List (Part c.State)}
    (h : Arrived D r mem R (stackMarks (.state i n w :: fs)) C) :
    Leads 1 C (Arrived D r mem R (stackMarks fs)) := by
  have marked : stackMarks (.state i n w :: fs) = .bound (.state n) :: .loop w :: stackMarks fs := rfl
  rw [marked] at h
  cases r with
  | value v plain =>
      refine h.reports.followed fun C' reported => ?_
      obtain ⟨id, arrived⟩ := reported
      exact (arrived.leavesLoop fun s => rfl).eventually
  | failed x =>
      refine (h.passes.bind (n := 1) fun C' arrived => ?_)
      exact arrived.leavesLoop fun s => rfl

/-- A result that has come to code. -/
theorem Arrived.going {s : c.State} {fs : List (Part c.State)} {o : Control c.State c.Task} (driver : V D B)
    (recalls : Recalls J es mem)
    (h : Arrived D r mem (entryFacts es + B) (stackMarks (.code s :: fs)) C) :
    Going V { J with stack := fs, control := o } s r.answer C := by
  have marked : stackMarks (.code s :: fs) = .code s :: stackMarks fs := rfl
  rw [marked] at h
  generalize same : stackMarks fs = ms at h
  cases h with
  | @code d s L Ls C here =>
      exact ⟨D, B, es, mem, .waiting s, r.answer.reply, driver, recalls.of_eq rfl rfl,
        goes_waiting s r.answer, d, L, Ls, same.symm, here⟩

/-- A result passes a part whose handler has the identity as its return handler. -/
theorem Arrived.identical {f : Part c.State} {fs : List (Part c.State)} (driver : V D B)
    (recalls : Recalls J es mem) (control : J.control = .result r) (stack : J.stack = f :: fs)
    (identity : b.handler.onReturn = .native .identity)
    (delivered : J.delivered r = .more { J with stack := fs, control := .result r })
    (h : Arrived D r mem (entryFacts es + B) (.bound b :: stackMarks fs) C) :
    ∃ J', J.delivered r = .more J' ∧ Advances V J J' C := by
  refine ⟨_, delivered, ?_⟩
  cases r with
  | value v plain =>
      exact .inl ((Arrived.identity identity h).mono fun C' arrived =>
        .result rfl driver (recalls.of_eq rfl rfl) arrived)
  | failed x =>
      refine .inr ⟨(Arrived.passes h).mono fun C' arrived =>
        .result rfl driver (recalls.of_eq rfl rfl) arrived, ?_⟩
      simp [Program.weight, control, stack]

/-- What a result comes to that is delivered to a stack. -/
theorem Carries.delivers (control : J.control = .result r) (some_part : J.stack ≠ [])
    (h : Carries V J C) : ∃ J', J.delivered r = .more J' ∧ Advances V J J' C := by
  have weight : J.weight = J.stack.length + 1 := by simp only [Program.weight, control]
  cases h with
  | code control' going => simp [control] at control'
  | task control' memory here ends => simp [control] at control'
  | @answering r' s fs control' stack going =>
      cases control.symm.trans control'
      refine ⟨{ J with stack := fs, control := .code s r.answer }, ?_, .inr ⟨?_, ?_⟩⟩
      · simp only [Program.delivered, stack]
      · exact .here (.code rfl (going.of_eq rfl rfl rfl))
      · rw [weight]
        exact Nat.succ_pos _
  | @result r' D B es mem control' driver recalls arrived =>
      cases control.symm.trans control'
      cases stack : J.stack with
      | nil => exact absurd stack some_part
      | cons f fs =>
          rw [stack] at arrived
          cases f with
          | code s =>
              refine ⟨{ J with stack := fs, control := .code s r.answer }, ?_, .inr ⟨.here ?_, ?_⟩⟩
              · simp only [Program.delivered, stack]
              · exact .code rfl (arrived.going driver recalls)
              · rw [weight]
                exact Nat.succ_pos _
          | layer l =>
              cases r with
              | value v plain =>
                  obtain ⟨J', delivered, leads⟩ := arrived.layer driver recalls stack
                  exact ⟨J', delivered, .inl leads⟩
              | failed x =>
                  refine ⟨{ J with stack := fs, control := .result (.failed x) }, ?_, .inr ⟨?_, ?_⟩⟩
                  · simp only [Program.delivered, stack]
                  · exact (Arrived.passes arrived).mono fun C' arrived =>
                      .result rfl driver (recalls.of_eq rfl rfl) arrived
                  · simp [Program.weight, control, stack]
          | state i n w =>
              refine ⟨{ J with stack := fs, control := .result r }, ?_, .inl ?_⟩
              · simp only [Program.delivered, stack]
              · exact (arrived.state).mono fun C' arrived =>
                  .result rfl driver (recalls.of_eq rfl rfl) arrived
          | await n blocking =>
              have identity : (Bound.await n blocking).handler.onReturn = .native .identity := by
                cases blocking <;> rfl
              exact arrived.identical driver recalls control stack identity
                (by simp only [Program.delivered, stack])
          | prompt n =>
              exact arrived.identical (b := .prompt n) driver recalls control stack rfl
                (by simp only [Program.delivered, stack])

end OneShot.Joined
