import OneShot.Proofs.Frames.Following
import OneShot.Proofs.Frames.Standing

/-!
# Dispatch

A machine looks for the owner of an effect on its own stack only.  That it finds
the innermost one of all is due to the machines further in: each resends an
invocation together with all its frames, none of which owns the effect.  So the
frames of a resent continuation start with the one whose generator has yielded the
invocation, and a clause that is called gets all of them, up to that of its handler.
-/

namespace OneShot

open Store (Quietly)

variable {G : Guest} {rule : Trace G → Config G → Prop} {trace : Trace G} {c d : Config G}

/-! ## Resends -/

namespace Config

/-- What the machine that makes the next step resends. -/
def resends? (c : Config G) : Option (Nat × Resend) :=
  match c.stack, c.signal with
  | .running _ (.library (.machine m p)) :: _, .reply r =>
      match (Machine.step c.world.store m p r).2 with
      | .ask (.yield (.resend id q) _) _ => some (id, q)
      | _ => none
  | _, _ => none

/-- A routine other than a machine yields a resend. -/
def forwards (c : Config G) : Bool :=
  match c.stack, c.yields? with
  | .running _ p :: _, some (_, .resend _ _) => p.machine?.isNone
  | _, _ => false

theorem resends?_eq_some {id : Nat} {q : Resend} (h : c.resends? = some (id, q)) :
    ∃ g m p r how p' rest, c.stack = .running g (.library (.machine m p)) :: rest ∧
      c.signal = .reply r ∧
      (Machine.step c.world.store m p r).2 = .ask (.yield (.resend id q) how) p' := by
  unfold resends? at h
  split at h
  · rename_i g m p rest r stack signal
    split at h
    · rename_i turn
      cases h
      exact ⟨g, m, p, r, _, _, rest, stack, signal, turn⟩
    · contradiction
  · contradiction

end Config

/-- What the machines have resent. -/
def Trace.resends (trace : Trace G) : List (Nat × Resend) := trace.filterMap (·.resends?)

theorem Trace.mem_resends_cons {q : Nat × Resend} :
    q ∈ Trace.resends (c :: trace) ↔ c.resends? = some q ∨ q ∈ trace.resends := by
  simp [resends, List.mem_filterMap]

/-- What the program does next builds no record of the engine, and what it resends was resent to it. -/
structure Faithful (trace : Trace G) (c : Config G) : Prop extends Genuine trace c where
  resent : ∀ id q, c.received? = some (.resend id q) → (id, q) ∈ trace.resends

/-- What was resent to a machine was resent by one, if nothing else yields resends. -/
theorem Yields.resent {g : Gen} {id : Nat} {q : Resend} (yields : Yields trace g (.resend id q))
    (only : ∀ c ∈ trace, c.forwards = false) : (id, q) ∈ trace.resends := by
  generalize same : Val.resend id q = v at yields
  induction yields with
  | @itself trace c g p p' r rest v how stack signal turn =>
      subst same
      refine Trace.mem_resends_cons.2 (.inl ?_)
      have quiet := only c List.mem_cons_self
      have suspends : c.yields? = some (g, .resend id q) := by simp [Config.yields?, stack, signal, turn]
      cases p with
      | guest b => simp [Config.forwards, stack, suspends, Routine.machine?] at quiet
      | library process =>
          cases process with
          | machine m phase =>
              obtain ⟨a, made, -⟩ := Turn.map_eq_ask turn
              obtain ⟨a', made, -⟩ := Turn.map_eq_ask made
              simp [Config.resends?, stack, signal, made]
          | _ => simp [Config.forwards, stack, suspends, Routine.machine?] at quiet
  | relayed inner stack signal ih =>
      have before := ih (fun c mem => only c (List.mem_cons_of_mem _ mem)) same
      exact Trace.mem_resends_cons.2 (.inr before)

/-- A run in which only machines yield resends is faithful. -/
theorem RunOf.faithful (run : RunOf (fun trace c => Genuine trace c ∧ c.forwards = false) trace c) :
    RunOf Faithful trace c ∧ ∀ c ∈ trace, c.forwards = false := by
  induction run with
  | start fresh => exact ⟨.start fresh, by simp⟩
  | @step trace c d before obeys stepped ih =>
      refine ⟨.step ih.1 ⟨obeys.1, fun id q received => ?_⟩ stepped, ?_⟩
      · obtain ⟨_, _, _, _, _, _, -, -, -, yields⟩ :=
          (before.standing fun _ _ h => h.1).received received
        exact yields.resent ih.2
      · simpa using ⟨obeys.2, ih.2⟩

/-! ## What comes with a resend -/

/-- The topmost frame is that of the generator that has once yielded an invocation. -/
def Origin (trace : Trace G) (i : Invocation) (frames : List Val) : Prop :=
  ∃ before g t id, before <:+ trace ∧ Yields before g (.invocation id i) ∧
    frames.head? = some (.frame (.generator (.gen g) t))

theorem Origin.cons {i : Invocation} {frames : List Val} (h : Origin trace i frames) :
    Origin (c :: trace) i frames := by
  obtain ⟨before, g, t, id, suffix, yields, top⟩ := h
  exact ⟨before, g, t, id, suffix.trans (List.suffix_cons c trace), yields, top⟩

theorem Origin.append {i : Invocation} {frames : List Val} (h : Origin trace i frames)
    (below : List Val) : Origin trace i (frames ++ below) := by
  obtain ⟨before, g, t, id, suffix, yields, top⟩ := h
  obtain ⟨tail, rfl⟩ := List.head?_eq_some_iff.1 top
  exact ⟨before, g, t, id, suffix, yields, rfl⟩

/-- What was resent continues from the generator that has asked, and passes no owner. -/
def Vouched (trace : Trace G) (s : Store) : Prop :=
  ∀ id q, (id, q) ∈ trace.resends → ∃ k, q.cont = .cont k ∧ Unowned q.effect (s.frames k) ∧
    Origin trace ⟨q.effect, q.args, q.context⟩ (s.frames k)

theorem Unowned.append {effect : Val} {frames below : List Val} (h : Unowned effect frames)
    (h' : Unowned effect below) : Unowned effect (frames ++ below) := by
  intro l t mem
  rcases List.mem_append.1 mem with here | there
  · exact h l t here
  · exact h' l t there

/-- What a machine captures comes from the generator that has asked, and what it was brought passes no owner. -/
theorem Standing.brings (standing : Standing trace c) (faithful : Faithful trace c)
    (vouched : Vouched trace c.world.store) {op : Val} {i : Invocation} {u : Store}
    {brought : List Val} {inner : Option Cont} (received : c.received? = some op)
    (invoked : op.invoked? = some i) (brings : Machine.Brings c.world.store op u brought inner) :
    Unowned i.effect brought ∧ ∀ m p above below, c.stack.head?.bind Activation.machine? = some (m, p) →
      c.world.store.stack m = above ++ below → above ≠ [] → Origin trace i (brought ++ above) := by
  cases brings with
  | invocation id i' =>
      cases invoked
      refine ⟨fun _ _ mem => absurd mem (by simp), fun m p above below machine whole some_above => ?_⟩
      obtain ⟨g, n, h, t, under, rest, stack, -, top, yields⟩ := standing.received received
      rw [stack] at machine
      cases machine
      rw [top] at whole
      obtain ⟨v, above, rfl⟩ := List.exists_cons_of_ne_nil some_above
      cases whole
      exact ⟨trace, h, t, id, List.suffix_rfl, yields, rfl⟩
  | resend id e args k context pending =>
      cases invoked
      obtain ⟨k', same, unowned, origin⟩ := vouched id _ (faithful.resent id _ received)
      obtain rfl : k = k' := Val.cont.inj same
      exact ⟨unowned, fun m p above below _ _ _ => origin.append above⟩

theorem Store.lt_of_head {s : Store} {k : Cont} {v : Val} (h : (s.frames k).head? = some v) :
    k.index < s.conts.size := by
  by_contra outside
  simp [Store.frames, Array.getElem?_eq_none (Nat.not_lt.1 outside)] at h

/-- All that is called to deliver something is a return handler. -/
theorem Machine.Delivered.returns_of_call {o : Outcome} {base left : List Val} {turn : Turn Phase}
    (h : Delivered o base left turn) {f : Val} {args : List Val} {p : Phase}
    (called : turn = .ask (.call f args) p) : ∃ h : Handler, ∃ v, f = h.onReturn ∧ args = [v] := by
  induction h with
  | finish o =>
      cases o with
      | ok v => contradiction
      | failed v => cases v <;> contradiction
  | returns h t v rest =>
      cases called
      exact ⟨h, v, rfl, rfl⟩
  | passes h t below ih => exact ih called
  | advances o g t rest => cases called

/-- Nothing is delivered when an invocation was received. -/
theorem Machine.Delivers.uninvoked {s u : Store} {m : Nat} {p : Phase} {r : Reply} {o : Outcome}
    {base : List Val} (h : Delivers s m p r u o base) :
    (received? p r).bind Val.invoked? = none := by
  cases h with
  | answered r v waits => rcases waits with rfl | rfl | rfl <;> rfl
  | raised x waits => rcases waits with rfl | rfl | rfl <;> rfl
  | @ended _ _ r c w stack value =>
      cases r with
      | yielded op => exact absurd rfl (value op)
      | _ => rfl
  | _ => rfl

theorem Machine.Followed.call {w : World G} {g : Gen} {m : Nat} {rest : List (Activation G)}
    {t : Store} {turn : Turn Machine.Phase} (followed : Followed w g m rest t turn d) {f : Val}
    {args : List Val} {caller : Caller} (called : d.signal = .call f args caller) :
    ∃ p, turn = .ask (.call f args) p ∧ d.world.store = t := by
  cases followed with
  | calls f' args' p =>
      cases called
      exact ⟨p, rfl, rfl⟩
  | _ => cases called

/-- A machine that resends something has captured its whole stack, which has no owner. -/
theorem Machine.Does.resends {s t : Store} {m : Nat} {p p' : Phase} {r : Reply} {id : Nat}
    {q : Resend} {how : Suspension} (does : Does s m p r t (.ask (.yield (.resend id q) how) p'))
    (own : s.Own) (inside : m < s.machines.size) :
    ∃ content op i brought inner u, p = .advancing content ∧ r = .yielded op ∧
      op.invoked? = some i ∧ Brings s op u brought inner ∧ Unowned i.effect (s.stack m) ∧
      q = ⟨i.effect, i.args, .cont ⟨s.conts.size, inner.isSome⟩, i.context⟩ ∧
      t.frames ⟨s.conts.size, inner.isSome⟩ = brought ++ s.stack m ∧
      t.isTaken ⟨s.conts.size, inner.isSome⟩ = false := by
  generalize made : Turn.ask (.yield (.resend id q) how) p' = turn at does
  cases does with
  | settles delivers delivered after =>
      exact absurd made.symm (delivered.ask_ne_yield _ _ _)
  | halts left after ending unasked begun =>
      subst made
      contradiction
  | escapes content id' action => cases made
  | @closes _ _ v rest x contents => cases v <;> cases made
  | @discards content op v rest stack unasked => cases content <;> cases made
  | @captures content op i above below brought inner u t turn invoked whole brings after directs =>
      cases directs with
      | owner effect clause captured unowned => cases made
      | outward id' empty unowned =>
          cases made
          subst empty
          have same : above = s.stack m := by simp [whole]
          refine ⟨content, op, i, brought, inner, u, rfl, rfl, invoked, brings, same ▸ unowned, rfl, ?_,
            brings.pending after _⟩
          rw [(brings.sets own inside after).frames, if_pos rfl, same]
          rfl

theorem Vouched.step (vouched : Vouched trace c.world.store) (standing : Standing trace c)
    (faithful : Faithful trace c) (stepped : c.step = .ok d) :
    Vouched (c :: trace) d.world.store := by
  intro id q mem
  rcases Trace.mem_resends_cons.1 mem with now | before
  · obtain ⟨g, m, p, r, how, p', rest, stack, signal, turn⟩ := Config.resends?_eq_some now
    obtain ⟨j, -, ran, -⟩ := standing.seated.machine (a := .running g (.library (.machine m p)))
      (by simp [stack]) rfl
    have inside := standing.sound.ran m j.id ran
    obtain ⟨t, moved, same, does, followed⟩ :=
      standing.sound.follows standing.seated stack signal stepped
    obtain rfl : moved = .ask (.yield (.resend id q) how) p' := by rw [← turn, same]
    obtain ⟨content, op, i, brought, inner, u, rfl, rfl, invoked, brings, unowned, rfl, frames, -⟩ :=
      does.resends standing.sound.own inside
    have received := Config.received?_machine stack signal
    obtain ⟨free, origin⟩ := standing.brings faithful vouched received invoked brings
    obtain ⟨g', m', h, tag, below, rest', stack', -, top, -⟩ := standing.received received
    rw [stack] at stack'
    cases stack'
    refine ⟨⟨c.world.store.conts.size, inner.isSome⟩, rfl, ?_⟩
    rw [Store.frames_of_conts (Store.conts_of_engine followed.quiet.engine), frames]
    have stacked : c.stack.head?.bind Activation.machine? = some (m, .advancing (.gen h)) := by
      rw [stack]
      rfl
    refine ⟨free.append unowned, Origin.cons ?_⟩
    cases i
    exact origin m _ (c.world.store.stack m) [] stacked (by simp) (by simp [top])
  · obtain ⟨k, same, unowned, origin⟩ := vouched id q before
    have top := origin
    obtain ⟨_, _, _, _, _, _, top⟩ := top
    have kept := (standing.shift faithful.toGenuine stepped).frames_eq standing.sound
      standing.seated (Store.lt_of_head top)
    exact ⟨k, same, kept ▸ unowned, kept ▸ origin.cons⟩

theorem RunOf.vouched (run : RunOf Faithful trace c) : Vouched trace c.world.store := by
  induction run with
  | start fresh => simp [Vouched, Trace.resends]
  | step before faithful stepped ih =>
      exact ih.step (before.standing fun _ _ h => h.toGenuine) faithful stepped

/-! ## Calls of clauses -/

/--
A clause is called with a new continuation and the arguments of an invocation.  The
frames go from that of the generator which has yielded the invocation, on top, down to
that of the innermost handler which owns the effect.  Those of a resent continuation
come first, and what is below the handler stays.
-/
structure Dispatched (trace : Trace G) (c d : Config G) (m : Nat) (op : Val) (i : Invocation)
    (f : Val) (k : Cont) : Prop where
  fresh : k.index = c.world.store.conts.size
  pending : d.world.store.isTaken k = false
  origin : Origin trace i (d.world.store.frames k)
  owner : ∃ brought above e h t, i.effect = .effect e ∧ h.clause? e = some f ∧
    c.world.store.stack m = above ++ .frame (.handler (.handler h) t) :: d.world.store.stack m ∧
    d.world.store.frames k = brought ++ above ++ [.frame (.handler (.handler h) t)] ∧
    Unowned i.effect (brought ++ above) ∧
    ((k.rehandled = true ∧ ∃ id j, op = .resend id ⟨i.effect, i.args, .cont j, i.context⟩ ∧
        (id, ⟨i.effect, i.args, .cont j, i.context⟩) ∈ trace.resends ∧
        brought = c.world.store.frames j) ∨
      (k.rehandled = false ∧ (∃ id, op = .invocation id i) ∧ brought = []))

/-- What a machine calls, and with what. -/
inductive CallOf (trace : Trace G) (c d : Config G) (m : Nat) : Val → List Val → Prop
  /-- A value comes down to a handler, and through its return handler. -/
  | returns (h : Handler) (v : Val) (unasked : c.received?.bind Val.invoked? = none) :
      CallOf trace c d m h.onReturn [v]
  | clause {op : Val} {i : Invocation} {f : Val} {k : Cont} (received : c.received? = some op)
      (invoked : op.invoked? = some i) (dispatched : Dispatched trace c d m op i f k) :
      CallOf trace c d m f (.cont k :: i.args.values)

/-- A machine that calls a clause has dispatched an invocation. -/
theorem Standing.dispatched (standing : Standing trace c) (faithful : Faithful trace c)
    (vouched : Vouched trace c.world.store) {m : Nat} {content op f : Val} {i : Invocation}
    {above below brought : List Val} {inner : Option Cont} {u : Store} {args : List Val}
    (machine : c.stack.head?.bind Activation.machine? = some (m, .advancing content))
    (inside : m < c.world.store.machines.size) (received : c.received? = some op)
    (invoked : op.invoked? = some i) (whole : c.world.store.stack m = above ++ below)
    (brings : Machine.Brings c.world.store op u brought inner)
    (after : Quietly ((u.setStack m below).newCont (brought ++ above) (inner.map .cont)).1
      d.world.store)
    (directs : Machine.Directs i ⟨c.world.store.conts.size, inner.isSome⟩ above below
      (.ask (.call f args) .calling)) :
    ∃ k, args = .cont k :: i.args.values ∧ Dispatched trace c d m op i f k := by
  have sets := brings.sets standing.sound.own inside after
  obtain ⟨free, origin⟩ := standing.brings faithful vouched received invoked brings
  have frames : d.world.store.frames ⟨c.world.store.conts.size, inner.isSome⟩ =
      brought ++ above := by
    rw [sets.frames, if_pos rfl]
    rfl
  cases directs with
  | @owner e h _ tag above' effect clause captured unowned =>
      refine ⟨⟨c.world.store.conts.size, inner.isSome⟩, rfl, rfl, brings.pending after _, ?_,
        brought, above', e, h, tag, effect, clause, ?_, ?_, free.append unowned, ?_⟩
      · rw [frames]
        exact origin m _ above below machine whole (by simp [captured])
      · rw [whole, sets.stack_eq, captured]
        simp
      · rw [frames, captured]
        simp
      · cases brings with
        | invocation id j =>
            cases invoked
            exact .inr ⟨rfl, ⟨id, rfl⟩, rfl⟩
        | resend id e' args k context pending =>
            cases invoked
            exact .inl ⟨rfl, id, k, rfl, faithful.resent id _ received, rfl⟩

/-- Each call of a machine is that of a return handler, or of the clause of the innermost owner. -/
theorem RunOf.innermost_owner (run : RunOf Faithful trace c) (faithful : Faithful trace c)
    (stepped : c.step = .ok d) {m : Nat} {f : Val} {args : List Val} {caller : Caller}
    (machine : c.stepped? = some m) (called : d.signal = .call f args caller) :
    CallOf trace c d m f args := by
  have standing := run.standing fun _ _ h => h.toGenuine
  have own := standing.sound.own
  obtain ⟨a, rest, r, p, stack, signal, here⟩ := Config.stepped?_eq_some machine
  have mem : a ∈ c.stack := by simp [stack]
  obtain ⟨g, rfl, ran, -⟩ := standing.seated.machine mem here
  have inside := standing.sound.ran m _ ran
  have received := Config.received?_machine stack signal
  obtain ⟨t, moved, -, does, followed⟩ := standing.sound.follows standing.seated stack signal stepped
  obtain ⟨p', rfl, same⟩ := followed.call called
  -- what a machine has closed is a generator, so that no other calls are made
  have asked := does.asked own inside (standing.sound.onStacks m)
    (standing.aligned.held _ mem m p rfl)
  cases asked
  generalize made : Turn.ask (.call f args) Machine.Phase.calling = turn at does
  cases does with
  | settles delivers delivered after =>
      obtain ⟨h, v, rfl, rfl⟩ := delivered.returns_of_call made.symm
      refine .returns h v ?_
      rw [received]
      exact delivers.uninvoked
  | halts left after ending unasked begun =>
      subst made
      contradiction
  | escapes content id' action => cases made
  | @closes _ _ v rest x contents => cases v <;> cases made
  | @discards content op v rest stack unasked => cases content <;> cases made
  | captures invoked whole brings after directs =>
      subst made
      have stacked := congrArg (fun l => l.head?.bind Activation.machine?) stack
      obtain ⟨k, rfl, dispatched⟩ := standing.dispatched faithful run.vouched stacked inside
        received invoked whole brings (same ▸ after) directs
      exact .clause received invoked dispatched

/-! ## A resend that is answered -/

namespace Script

/-- A program with an effect that passes one handler and is answered by the next. -/
def crossing : Function :=
  ⟨.plain, "main", [], ["ask", "tell", "body"], [
    .assign "ask" (uses (.op .effect) []),
    .assign "tell" (uses (.op .effect) []),
    .assign "body" (.function ⟨.generator, "body", [], [], [
      .result (.yield (.call (.name "ask") [.literal (.int 7)]))]⟩),
    .result (uses (.service .execute) [.function ⟨.plain, "outer", [], [], [
      .result (uses (.service .handle) [
        uses (.op .handler) [.name "ask", .literal .none,
          .function ⟨.plain, "clause", ["k", "v"], [], [.result (.name "v")]⟩],
        .function ⟨.plain, "inner", [], [], [
          .result (uses (.service .handle) [
            uses (.op .handler) [.name "tell", .literal .none, .name "ask"],
            .name "body"])]⟩])]⟩])]⟩

end Script

open Script

/-- A resend is received, and a call comes of it. -/
def Config.crosses (c : Config G) : Bool :=
  match c.received?, c.step with
  | some (.resend _ _), .ok d =>
      match d.signal with
      | .call _ _ _ => true
      | _ => false
  | _, _ => false

theorem Config.of_crosses (h : c.crosses = true) :
    ∃ id q d f args caller, c.received? = some (.resend id q) ∧ c.step = .ok d ∧
      d.signal = .call f args caller := by
  unfold crosses at h
  split at h
  · rename_i id q d received stepped
    split at h
    · rename_i f args caller called
      exact ⟨id, q, d, f, args, caller, received, stepped, called⟩
    · contradiction
  · contradiction

theorem exists_crossing : ∃ (trace : Trace language) (c : Config language),
    RunOf (fun trace c => Genuine trace c ∧ c.forwards = false) trace c ∧
      (decide (Genuine trace c ∧ c.forwards = false) && c.crosses) = true :=
  exists_run (fresh_begin crossing) 116 (by decide +kernel)

/-- The clause of an outer handler is called for an effect that was resent to its machine. -/
theorem RunOf.innermost_owner_crossing : ∃ (trace : Trace language) (c d : Config language)
    (m id : Nat) (q : Resend) (f : Val) (args : List Val), RunOf Faithful trace c ∧
      Faithful trace c ∧ c.step = .ok d ∧ c.stepped? = some m ∧
      c.received? = some (.resend id q) ∧ CallOf trace c d m f args := by
  obtain ⟨trace, c, before, found⟩ := exists_crossing
  obtain ⟨obeys, crosses⟩ := Bool.and_eq_true_iff.1 found
  obtain ⟨id, q, d, f, args, caller, received, stepped, called⟩ := Config.of_crosses crosses
  obtain ⟨run, -⟩ := (before.step (of_decide_eq_true obeys) stepped).faithful
  cases run with
  | step run faithful _ =>
      have standing := run.standing fun _ _ h => h.toGenuine
      obtain ⟨g, m, i, t, below, rest, stack, signal, -, -⟩ := standing.received received
      have machine := Config.stepped?_machine stack signal
      exact ⟨trace, c, d, m, id, q, f, args, run, faithful, stepped, machine, received,
        RunOf.innermost_owner run faithful stepped machine called⟩

end OneShot
