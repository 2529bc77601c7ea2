import OneShot.Proofs.Taking

/-!
# Refusals

What becomes of an attempt to take a continuation.  If it is taken already, the
step is refused: an error is raised at whoever made the attempt, and nothing
else happens.  If it is pending, the step is not refused.
-/

namespace OneShot

variable {G : Guest}

/-- Whether a reply is the refusal of a second take of a continuation. -/
def Signal.refuses (k : Cont) : Signal → Bool
  | .reply (.raised ⟨_, .doubleResume, _, .doubleResume (.cont j)⟩) => j.index == k.index
  | _ => false

/--
How a step is refused: the error is raised at whoever made the attempt.  If that
is a machine, the machine ends with it.
-/
def Config.refusal (c : Config G) (k : Cont) : Config G :=
  let (store, x) := c.world.store.doubleResumeError (.cont k)
  let w := { c.world with store }
  match c.signal, c.stack with
  | .reply _, .running g _ :: stack => ⟨w.setStatus g .finished, stack, .reply (.raised x)⟩
  | .reply _, _ :: stack => ⟨w, stack, .reply (.raised x)⟩
  | _, stack => ⟨w, stack, .reply (.raised x)⟩

/-! ## Calls that take a continuation -/

theorem Cont.request_of_isTaken {s : Store} {k : Cont} (h : s.isTaken k = true)
    (value error : Val) (text : Store → String) :
    k.request s value error text =
      ((s.doubleResumeError (.cont k)).1, .raise (s.doubleResumeError (.cont k)).2) := by
  simp [Cont.request, Store.take_of_isTaken h]

theorem Store.nextId_note (s : Store) (source : Source) (text : Unit → String) :
    (s.note source text).nextId = s.nextId := by
  unfold Store.note
  split <;> rfl

theorem Cont.request_of_pending {s : Store} {k : Cont} (h : s.isTaken k = false)
    (value error : Val) (text : Store → String) :
    (k.request s value error text).2 = .spawn .generator "_request"
      (.asking (.yield (.resumption s.nextId ⟨.cont k, value, error⟩) .direct)) := by
  simp [Cont.request, Store.take, h, Store.freshId, Store.nextId_note]

namespace Signal

/-- A call that makes a request is the request of its continuation. -/
theorem invoke_of_request {f : Val} {args : List Val} {caller : Caller} {r : Request}
    (h : (call f args caller).request? = some r) (s : Store) :
    (∀ id name, f ≠ .closure id name) ∧
      ∃ text, invoke s f args caller = r.cont.request s r.value r.error text := by
  unfold request? at h
  split at h
  all_goals try contradiction
  all_goals
    rename_i same
    cases same
    cases h
    exact ⟨fun _ _ => nofun, _, rfl⟩

/-- A call takes what it requests, unless it marks a continuation consumed. -/
theorem request?_or_mark {signal : Signal} {k : Cont} (h : signal.taken? = some k) :
    (∃ r, signal.request? = some r ∧ r.cont = k) ∨
      ∃ caller, signal = .call (.native (.op .markConsumed)) [.cont k] caller := by
  unfold taken? at h
  split at h
  · cases h
    exact .inr ⟨_, rfl⟩
  · simp only [Option.map_eq_some_iff] at h
    exact .inl h

end Signal

namespace Config

theorem call_of_raise (w : World G) (stack : List (Activation G)) {f : Val} {args : List Val}
    {caller : Caller} (hf : ∀ id name, f ≠ .closure id name) {s : Store} {x : Exc}
    (h : invoke w.store f args caller = (s, .raise x)) :
    call w stack f args caller = ⟨{ w with store := s }, stack, .reply (.raised x)⟩ := by
  unfold call
  split
  · exact absurd rfl (hf _ _)
  · rw [h]
    rfl

theorem call_of_done (w : World G) (stack : List (Activation G)) {f : Val} {args : List Val}
    {caller : Caller} (hf : ∀ id name, f ≠ .closure id name) {s : Store} {v : Val}
    (h : invoke w.store f args caller = (s, .done v)) :
    call w stack f args caller = ⟨{ w with store := s }, stack, .reply (.value v)⟩ := by
  unfold call
  split
  · exact absurd rfl (hf _ _)
  · rw [h]
    rfl

theorem call_of_spawn (w : World G) (stack : List (Activation G)) {f : Val} {args : List Val}
    {caller : Caller} (hf : ∀ id name, f ≠ .closure id name) {s : Store} {kind : GenKind}
    {name : String} {p : Process}
    (h : invoke w.store f args caller = (s, .spawn kind name p)) :
    call w stack f args caller =
      ⟨(World.spawn { w with store := s } kind name (.library p)).1, stack,
        .reply (.value (.gen (World.spawn { w with store := s } kind name (.library p)).2))⟩ := by
  unfold call
  split
  · exact absurd rfl (hf _ _)
  · rw [h]
    rfl

/-- The call of a continuation that is taken already. -/
theorem call_of_isTaken {w : World G} {f : Val} {args : List Val} {caller : Caller} {k : Cont}
    (h : (Signal.call f args caller).taken? = some k) (taken : w.store.isTaken k = true)
    (stack : List (Activation G)) :
    call w stack f args caller =
      ⟨{ w with store := (w.store.doubleResumeError (.cont k)).1 }, stack,
        .reply (.raised (w.store.doubleResumeError (.cont k)).2)⟩ := by
  rcases Signal.request?_or_mark h with ⟨r, made, rfl⟩ | ⟨caller, same⟩
  · obtain ⟨hf, text, called⟩ := Signal.invoke_of_request made w.store
    exact call_of_raise w stack hf (called.trans (Cont.request_of_isTaken taken _ _ _))
  · cases same
    refine call_of_raise w stack (by simp) ?_
    exact (Op.start_markConsumed w.store k).trans (if_pos taken)

theorem call_of_mark {w : World G} {k : Cont} (pending : w.store.isTaken k = false)
    (stack : List (Activation G)) (caller : Caller) :
    call w stack (.native (.op .markConsumed)) [.cont k] caller =
      ⟨{ w with store := (w.store.take k).1 }, stack, .reply (.value .none)⟩ :=
  call_of_done w stack (by simp)
    ((Op.start_markConsumed w.store k).trans (if_neg (by simp [pending])))

/-- The request of a pending continuation is a new generator, which will ask for its resumption. -/
theorem call_of_pending {w : World G} {f : Val} {args : List Val} {caller : Caller}
    {r : Signal.Request} (h : (Signal.call f args caller).request? = some r)
    (pending : w.store.isTaken r.cont = false) (stack : List (Activation G)) :
    ∃ g, (call w stack f args caller).signal = .reply (.value (.gen g)) ∧
      (call w stack f args caller).stack = stack ∧
      (call w stack f args caller).world.status g = .fresh (.library (.asking (.yield
        (.resumption w.store.nextId ⟨.cont r.cont, r.value, r.error⟩) .direct))) := by
  obtain ⟨hf, text, called⟩ := Signal.invoke_of_request h w.store
  have spawned := Cont.request_of_pending pending r.value r.error text
  rw [call_of_spawn w stack hf (called.trans (Prod.ext rfl spawned))]
  exact ⟨_, rfl, rfl, World.status_spawn _ _ _ _⟩

end Config

/-! ## Resends that carry a continuation -/

theorem Machine.step_of_received {p : Phase} {r : Reply} {op : Val}
    (h : received? p r = some op) (s : Store) (m : Nat) :
    ∃ content, step s m p r = receive s m content op := by
  unfold received? at h
  split at h
  all_goals try contradiction
  all_goals
    cases h
    exact ⟨_, rfl⟩

theorem Val.eq_resend {op : Val} {k : Cont} (h : op.resent? = some k) :
    ∃ id e args context, op = .resend id ⟨e, args, .cont k, context⟩ := by
  unfold Val.resent? at h
  split at h
  · cases h
    exact ⟨_, _, _, _, rfl⟩
  · contradiction

theorem Machine.receive_of_isTaken {s : Store} {op : Val} {k : Cont}
    (h : op.resent? = some k) (taken : s.isTaken k = true) (m : Nat) (content : Val) :
    receive s m content op =
      ((s.doubleResumeError (.cont k)).1, .raise (s.doubleResumeError (.cont k)).2) := by
  obtain ⟨id, e, args, context, rfl⟩ := Val.eq_resend h
  simp [receive, Store.take_of_isTaken taken]

theorem Routine.eq_machine {p : Routine G} {m : Nat} {phase : Machine.Phase}
    (h : p.machine? = some (m, phase)) : p = .library (.machine m phase) := by
  unfold Routine.machine? at h
  split at h
  · cases h
    rfl
  · contradiction

/-- A resend of a continuation that is taken already ends the machine that gets it. -/
theorem Routine.step_of_isTaken {w : World G} {p : Routine G} {r : Reply} {k : Cont}
    (h : (p.machine?.bind fun q => Machine.received? q.2 r).bind Val.resent? = some k)
    (taken : w.store.isTaken k = true) :
    p.step w r = ({ w with store := (w.store.doubleResumeError (.cont k)).1 },
      .raise (w.store.doubleResumeError (.cont k)).2) := by
  simp only [Option.bind_eq_some_iff] at h
  obtain ⟨op, ⟨⟨m, phase⟩, machine, received⟩, resent⟩ := h
  cases Routine.eq_machine machine
  obtain ⟨content, stepped⟩ := Machine.step_of_received received w.store m
  rw [Machine.receive_of_isTaken resent taken] at stepped
  change ({ w with store := (Machine.step w.store m phase r).1 },
    Turn.map Routine.library (Turn.map (Process.machine m) (Machine.step w.store m phase r).2)) = _
  rw [stepped]
  rfl

namespace Config

/-- A step that attempts to take what is taken already is refused. -/
theorem step_of_isTaken {c : Config G} {k : Cont} (h : c.attempt? = some k)
    (taken : c.world.store.isTaken k = true) : c.step = .ok (c.refusal k) := by
  obtain ⟨w, stack, signal⟩ := c
  cases signal with
  | call f args caller =>
      rw [attempt?_call] at h
      have refused := call_of_isTaken h taken stack
      cases stack <;> exact congrArg Except.ok refused
  | advance g i =>
      rw [attempt?_advance] at h
      contradiction
  | close g =>
      rw [attempt?_close] at h
      contradiction
  | reply r =>
      cases stack with
      | nil => contradiction
      | cons a stack =>
          rw [attempt?_reply] at h
          cases a with
          | calling p =>
              have stepped := Routine.step_of_isTaken h taken
              change Except.ok (turnOfCall (p.step w r).1 stack (p.step w r).2) = _
              rw [stepped]
              rfl
          | running g p =>
              have stepped := Routine.step_of_isTaken h taken
              change Except.ok (turnOf (p.step w r).1 stack g (p.step w r).2) = _
              rw [stepped]
              rfl
          | _ => contradiction

theorem signal_refusal (c : Config G) (k : Cont) :
    (c.refusal k).signal =
      .reply (.raised (c.world.store.doubleResumeError (.cont k)).2) := by
  unfold refusal
  dsimp only
  split <;> rfl

theorem refuses_refusal (c : Config G) (j k : Cont) :
    (c.refusal j).signal.refuses k = (j.index == k.index) := by
  rw [signal_refusal]
  rfl

/-- A refusal uses up the number of the error, and leaves all else in the store as it was. -/
theorem store_refusal (c : Config G) (k : Cont) :
    (c.refusal k).world.store =
      { c.world.store with nextId := c.world.store.nextId + 1 } := by
  unfold refusal
  dsimp only
  split <;> rfl

end Config

/-! ## The first attempt -/

theorem Store.not_refused_of_fault (s : Store) (f : Fault) (k : Cont) :
    (Signal.reply (.raised (s.fault f).2)).refuses k = false := by
  cases f <;> rfl

theorem Machine.receive_of_pending {s : Store} {op : Val} {k : Cont} (h : op.resent? = some k)
    (pending : s.isTaken k = false) (m : Nat) (content : Val) :
    ∃ e args context,
      receive s m content op = dispatch (s.take k).1 m e args context (some k) := by
  obtain ⟨id, e, args, context, rfl⟩ := Val.eq_resend h
  have taken : s.take k = ((s.take k).1, true) := Prod.ext rfl (by simp [pending])
  refine ⟨e, args, context, ?_⟩
  simp only [receive]
  rw [taken]

/-- What a machine does that dispatches an effect. -/
inductive Machine.Dispatches {σ : Type} : Turn σ → Prop
  | fault (f : Fault) : Dispatches (.fault f)
  | resend (v : Val) (next : σ) : Dispatches (.ask (.yield v .inner) next)
  | clause (f : Val) (args : List Val) (next : σ) : Dispatches (.ask (.call f args) next)

theorem Machine.dispatches_dispatch (s : Store) (m : Nat) (e : Val) (args : Arguments)
    (context : Val) (inner : Option Cont) :
    Dispatches (dispatch s m e args context inner).2 := by
  unfold dispatch
  split
  · exact .fault _
  · split
    · exact .resend _ _
    · exact .clause _ _ _

theorem Machine.Dispatches.map {σ τ : Type} {t : Turn σ} (h : Dispatches t) (f : σ → τ) :
    Dispatches (t.map f) := by
  cases h with
  | fault e => exact .fault e
  | resend v next => exact .resend v (f next)
  | clause g args next => exact .clause g args (f next)

theorem Routine.dispatches_of_pending {w : World G} {p : Routine G} {r : Reply} {k : Cont}
    (h : (p.machine?.bind fun q => Machine.received? q.2 r).bind Val.resent? = some k)
    (pending : w.store.isTaken k = false) : Machine.Dispatches (p.step w r).2 := by
  simp only [Option.bind_eq_some_iff] at h
  obtain ⟨op, ⟨⟨m, phase⟩, machine, received⟩, resent⟩ := h
  cases Routine.eq_machine machine
  obtain ⟨content, stepped⟩ := Machine.step_of_received received w.store m
  obtain ⟨e, args, context, dispatched⟩ := Machine.receive_of_pending resent pending m content
  have turn := Machine.dispatches_dispatch (w.store.take k).1 m e args context (some k)
  rw [← dispatched, ← stepped] at turn
  exact (turn.map (Process.machine m)).map Routine.library

namespace Config

theorem not_refused_turnOf {t : Turn (Routine G)} (h : Machine.Dispatches t) (w : World G)
    (stack : List (Activation G)) (g : Gen) (k : Cont) :
    (turnOf w stack g t).signal.refuses k = false := by
  cases h with
  | fault f =>
      simp only [turnOf, leave]
      split <;> exact Store.not_refused_of_fault _ _ _
  | resend v next => rfl
  | clause f args next => rfl

theorem not_refused_turnOfCall {t : Turn (Routine G)} (h : Machine.Dispatches t) (w : World G)
    (stack : List (Activation G)) (k : Cont) :
    (turnOfCall w stack t).signal.refuses k = false := by
  cases h with
  | fault f => exact Store.not_refused_of_fault _ _ _
  | resend v next => exact Store.not_refused_of_fault _ _ _
  | clause f args next => rfl

/-- A step that attempts to take what is pending is not refused. -/
theorem not_refused_of_pending {c d : Config G} (stepped : c.step = .ok d) {j : Cont}
    (h : c.attempt? = some j) (pending : c.world.store.isTaken j = false) (k : Cont) :
    d.signal.refuses k = false := by
  obtain ⟨w, stack, signal⟩ := c
  cases signal with
  | call f args caller =>
      rw [attempt?_call] at h
      cases stepped
      rcases Signal.request?_or_mark h with ⟨r, made, rfl⟩ | ⟨caller, same⟩
      · obtain ⟨g, replied, -⟩ := call_of_pending made pending stack
        rw [replied]
        rfl
      · cases same
        rw [call_of_mark pending]
        rfl
  | advance g i =>
      rw [attempt?_advance] at h
      contradiction
  | close g =>
      rw [attempt?_close] at h
      contradiction
  | reply r =>
      cases stack with
      | nil => contradiction
      | cons a stack =>
          rw [attempt?_reply] at h
          cases stepped
          cases a with
          | calling p => exact not_refused_turnOfCall (Routine.dispatches_of_pending h pending) ..
          | running g p => exact not_refused_turnOf (Routine.dispatches_of_pending h pending) ..
          | _ => contradiction

end Config

/-! ## Resends that are captured again -/

/--
A machine that dispatches what an inner machine resent makes one new
continuation at most, which begins with the frames of the inner one.
-/
theorem Machine.conts_dispatch (s : Store) (m : Nat) (e : Val) (args : Arguments) (context : Val)
    (k : Cont) :
    (dispatch s m e args context (some k)).1.conts = s.conts ∨
      ∃ frames, (dispatch s m e args context (some k)).1.conts =
        s.conts.push ⟨s.frames k ++ frames, some (.cont k), false⟩ := by
  have captured (below frames : List Val) :
      (capture (s.setStack m below) frames (some k)).1.conts =
        s.conts.push ⟨s.frames k ++ frames, some (.cont k), false⟩ := by
    simp [capture, Store.newCont, Store.frames]
  unfold dispatch
  split
  · exact .inl rfl
  · split
    · exact .inr ⟨_, (Store.conts_of_engine (by simp)).trans (captured [] (s.stack m))⟩
    · rename_i slice _
      exact .inr ⟨_, (Store.conts_of_engine (by simp)).trans (captured slice.below slice.frames)⟩

namespace Config

theorem conts_of_dispatch {c d : Config G} (stepped : c.step = .ok d) {k : Cont}
    (h : c.received?.bind Val.resent? = some k) (pending : c.world.store.isTaken k = false) :
    d.world.store.conts = (c.world.store.take k).1.conts ∨
      ∃ frames, d.world.store.conts = (c.world.store.take k).1.conts.push
        ⟨c.world.store.frames k ++ frames, some (.cont k), false⟩ := by
  have routine (w : World G) (p : Routine G) (r : Reply) (pending : w.store.isTaken k = false)
      (h : (p.machine?.bind fun q => Machine.received? q.2 r).bind Val.resent? = some k) :
      (p.step w r).1.store.conts = (w.store.take k).1.conts ∨
        ∃ frames, (p.step w r).1.store.conts = (w.store.take k).1.conts.push
          ⟨w.store.frames k ++ frames, some (.cont k), false⟩ := by
    simp only [Option.bind_eq_some_iff] at h
    obtain ⟨op, ⟨⟨m, phase⟩, machine, received⟩, resent⟩ := h
    cases Routine.eq_machine machine
    obtain ⟨content, stepped⟩ := Machine.step_of_received received w.store m
    obtain ⟨e, args, context, dispatched⟩ := Machine.receive_of_pending resent pending m content
    have made := Machine.conts_dispatch (w.store.take k).1 m e args context k
    rw [← dispatched, ← stepped, Store.frames_take] at made
    exact made
  obtain ⟨w, stack, signal⟩ := c
  cases stack with
  | nil => contradiction
  | cons a rest =>
      cases signal with
      | reply r =>
          cases stepped
          cases a with
          | calling p =>
              have made := routine w p r pending h
              rwa [← conts_turnOfCall _ rest (p.step w r).2] at made
          | running g p =>
              have made := routine w p r pending h
              rwa [← conts_turnOf _ rest g (p.step w r).2] at made
          | _ => contradiction
      | _ => contradiction

end Config

end OneShot
