import Mathlib.Data.List.Chain
import OneShot.Proofs.Frames.Discarding
import OneShot.Proofs.Frames.Throwing

/-!
# What drivers hear of

A driver hears only of escapes, and of invocations that no handler frame down the joined
stack owns, resent; and of each of these it hears, with no code of the program in between.
The first that it cannot answer is the last: it closes what waits and raises the error
for that.  All else that is yielded stays in the joined stack.
-/

namespace OneShot

variable {G : Guest} {trace : Trace G} {c d : Config G} {a : Activation G}
  {acts S : List (Activation G)} {v : Val}

/-- A driver that runs has asked for its machine. -/
theorem Activation.Drives.hears (drives : a.Drives) : ∃ g p, a.hears? = some (some g) ∧
    a.routine? = some p ∧ p.driven? = some g := by
  cases drives with
  | execute g => exact ⟨g, _, rfl, rfl, rfl⟩
  | executeAsync h g n => exact ⟨g, _, rfl, rfl, rfl⟩

/-- What a machine has yielded is an escape or a resend. -/
theorem RunOf.machine_yields {rule : Trace G → Config G → Prop}
    (genuine : ∀ trace c, rule trace c → Genuine trace c) (run : RunOf rule trace c) {g : Gen} {m : Nat}
    (ran : (m, g.id) ∈ trace.ran) (yields : Yields trace g v) :
    (∃ id action, v = .escape id action) ∨ ∃ id q, v = .resend id q := by
  cases yields with
  | @itself trace e _ p p' r rest _ how stack signal turn =>
      cases run with
      | step before lawful stepped =>
          have standing := before.standing genuine
          have top : Activation.running g p ∈ e.stack := by simp [stack]
          obtain ⟨phase, same⟩ := (before.manned genuine).body standing.active ran top rfl
          cases same
          obtain ⟨turn', made, -⟩ := Turn.map_eq_ask turn
          obtain ⟨phase', made, -⟩ := Turn.map_eq_ask made
          have does := (standing.sound.turning standing.seated) m phase r g rest stack signal
          rw [made] at does
          obtain ⟨content, op, -, -, ⟨id, action, rfl, rfl⟩ | ⟨i, id, k, -, -, rfl⟩⟩ := does.sends
          · exact .inl ⟨id, action, rfl⟩
          · exact .inr ⟨id, _, rfl⟩
  | @relayed trace e _ i p rest _ inner stack signal =>
      cases run with
      | step before lawful stepped =>
          have top : Activation.relaying g p i ∈ e.stack := by simp [stack]
          obtain ⟨phase, same⟩ :=
            (before.manned genuine).body (before.standing genuine).active ran top rfl
          cases same

/-- What reaches a driver has crossed all machines down to it. -/
theorem RunOf.heard (run : RunOf (fun trace c => Genuine trace c ∧ c.forwards = false) trace c)
    {op : Val} (stack : c.stack = a :: S) (drives : a.Drives)
    (signal : c.signal = .reply (.yielded op)) : ∃ e ∈ trace, ∃ v acts,
      e.Issues v (acts ++ a :: S) ∧ (∀ b ∈ acts, b.Hands) ∧
        Crosses e.world.store (machines acts) v op := by
  have genuine (trace : Trace G) (c : Config G)
      (obeys : Genuine trace c ∧ c.forwards = false) := obeys.1
  have driving := run.driving genuine
  obtain ⟨g, p, hears, routine, driven⟩ := drives.hears
  have fits := driving.hears a _ (by simp [stack]) hears
  rw [signal] at fits
  obtain ⟨g', same, yielded⟩ := fits op rfl
  cases same
  obtain ⟨m, ran⟩ := driving.stack a (by simp [stack]) p g routine driven
  have yields := (run.standing genuine).yields g op yielded
  obtain ⟨e, mem, v, acts, issues, hands, carried, -⟩ := run.issued yields
  rw [stack] at issues
  refine ⟨e, mem, v, acts, issues, hands, ?_⟩
  rcases carried with ⟨none, rfl⟩ | crosses
  · rcases run.machine_yields genuine ran yields with ⟨id, action, rfl⟩ | ⟨id, q, rfl⟩
    · exact .escape id action
    · obtain ⟨stack', signal', turn, plain⟩ := issues
      have quiet := run.faithful.2 e mem
      simp [Config.forwards, Config.yields?, stack', signal', turn, plain] at quiet
  · exact crosses

/-- Between a body that is no machine and a driver there is a machine. -/
theorem RunOf.exists_machine {rule : Trace G → Config G → Prop}
    (genuine : ∀ trace c, rule trace c → Genuine trace c) (run : RunOf rule trace c)
    (issues : c.Issues v (acts ++ a :: S)) (hands : ∀ b ∈ acts, b.Hands) (drives : a.Drives) :
    machines acts ≠ [] := by
  have driving := run.driving genuine
  obtain ⟨g, q, hears, routine, driven⟩ := drives.hears
  cases issues with
  | @intro i p _ _ _ stack signal turn plain =>
      obtain ⟨m, ran⟩ := driving.stack a (by simp [stack]) q g routine driven
      have body {b : Activation G} (mem : b ∈ c.stack) (serving : b.Serving a) :
          ∃ phase, b = .running g (.library (.machine m phase)) :=
        (run.manned genuine).bodies m g b ran mem (serving.heard _ hears)
      have above := driving.above
      rw [stack] at above
      rcases List.eq_nil_or_concat acts with rfl | ⟨acts, z, rfl⟩
      · obtain ⟨phase, same⟩ := body (by simp [stack]) (List.isChain_cons_cons.1 above).1
        cases same
        contradiction
      · have split : .running i p :: ((acts.concat z) ++ a :: S) =
            (.running i p :: acts) ++ z :: a :: S := by simp
        rw [split] at above
        obtain ⟨phase, rfl⟩ := body (b := z) (by simp [stack])
          (List.isChain_cons_cons.1 above.right_of_append).1
        simp [machines_append]

/-- What nobody on the way answers comes to the driver. -/
theorem RunOf.comes (run : RunOf (fun trace c => Genuine trace c ∧ c.forwards = false) trace c)
    (obeys : Genuine trace c ∧ c.forwards = false) (issues : c.Issues v (acts ++ a :: S))
    (hands : ∀ b ∈ acts, b.Hands) (drives : a.Drives)
    (unanswered : (∃ id action, v = .escape id action) ∨ ∃ j i e, v = .invocation j i ∧
      i.effect = .effect e ∧ ∀ m ∈ machines acts, Unowned i.effect (c.world.store.stack m)) :
    ∃ d u op, c.step = .ok d ∧ d.Glides ⟨u, a :: S, .reply (.yielded op)⟩ ∧
      Crosses c.world.store (machines acts) v op := by
  have genuine (trace : Trace G) (c : Config G)
      (obeys : Genuine trace c ∧ c.forwards = false) := obeys.1
  have some_machine := run.exists_machine genuine issues hands drives
  cases issues with
  | @intro i p q r how stack signal turn plain =>
      have stepped := Config.step_suspending stack signal turn
      have standing := (run.step obeys stepped).standing genuine
      have tail : c.stack.tail = acts ++ a :: S := by simp [stack]
      have kept (m : Nat) (mem : m ∈ machines acts) :=
        (run.standing genuine).stack_below obeys.1 stepped (m := m)
          (by rw [tail, machines_append]; exact List.mem_append_left _ mem)
      rcases unanswered with ⟨id, action, rfl⟩ | ⟨j, i, e, rfl, effect, unowned⟩
      · obtain ⟨u, glides⟩ := Config.glides_escape hands _ (a :: S) id action
        exact ⟨_, u, _, stepped, glides, .escape id action⟩
      · have rows := standing.rows (List.sublist_append_left acts (a :: S))
        obtain ⟨u, op, glides, outgoing, resent⟩ := Config.glides_outgoing hands effect
          (.invocation j) rows (fun m mem => kept m mem ▸ unowned m mem) (a :: S)
        refine ⟨_, u, op, stepped, glides, ?_⟩
        rcases resent with ⟨id, q, rfl⟩ | ⟨-, none⟩
        · cases outgoing with
          | resend id pending => exact .invocation id _ unowned
        · exact absurd none some_machine

/-- What is below a machine that closes what it does not understand has something on its stack. -/
theorem Standing.some_frame (standing : Standing trace c) (hands : ∀ b ∈ acts, b.Hands)
    (sub : acts ⊆ c.stack) : ∀ m ∈ machines acts, c.world.store.stack m ≠ [] := by
  intro m mem
  obtain ⟨b, here, found⟩ := List.mem_filterMap.1 mem
  cases hands b here with
  | advancing g n content =>
      cases found
      obtain ⟨i, t, below, -, top⟩ := standing.aligned.held _ (sub here) n _ rfl
      simp [top]
  | relaying g p e => contradiction

/--
A driver hears only of escapes, and of resends of invocations that no handler frame down
the joined stack has owned: they keep the effect, the arguments and the context.  It hears
of all of these.  What a driver cannot answer is the last that it hears; it closes what
waits, and then raises the error that names it, unless a closing raises.  What a machine
does not understand is taken off with its generator and closed; then the error that holds
it is raised in the next generator down the joined stack.
-/
theorem RunOf.suspensions_classified
    (run : RunOf (fun trace c => Genuine trace c ∧ c.forwards = false) trace c) :
    (∀ a S op, c.stack = a :: S → a.Drives → c.signal = .reply (.yielded op) →
      ∃ e ∈ trace, ∃ v acts, e.Issues v (acts ++ a :: S) ∧ (∀ b ∈ acts, b.Hands) ∧
        Crosses e.world.store (machines acts) v op) ∧
    (∀ v acts a S, Genuine trace c ∧ c.forwards = false → c.Issues v (acts ++ a :: S) →
      (∀ b ∈ acts, b.Hands) → a.Drives →
      ((∃ id action, v = .escape id action) ∨ ∃ j i e, v = .invocation j i ∧
        i.effect = .effect e ∧ ∀ m ∈ machines acts, Unowned i.effect (c.world.store.stack m)) →
      ∃ d u op, c.step = .ok d ∧ d.Glides ⟨u, a :: S, .reply (.yielded op)⟩ ∧
        Crosses c.world.store (machines acts) v op) ∧
    (∀ a b g op S, c.stack = a :: S → a.Refuses g op b → c.signal = .reply (.yielded op) →
      ∀ later d, RunOf (fun trace c => Genuine trace c ∧ c.forwards = false)
        (later ++ c :: trace) d → Driver.GivesUp op b S later d) ∧
    (∀ op, c.received? = some op → op.foreign = true → ∃ g m i t below S,
      c.stack = .running g (.library (.machine m (.advancing (.gen i)))) :: S ∧
      c.world.store.stack m = .frame (.generator (.gen i) t) :: below ∧ c.step =
        .ok ⟨{ c.world with store := c.world.store.setStack m below },
          .running g (.library (.machine m (.discarding op))) :: S, .close i⟩) ∧
    ∀ g m op v acts base,
      c.stack = .running g (.library (.machine m (.discarding op))) :: acts ++ base →
      (∀ b ∈ acts, b.Hands) → c.signal = .reply (.value v) → ∃ x : Exc,
        x.kind = .invalidInvocation ∧ x.detail = .invalid op ∧
        c.Raises x base (generators (c.world.store.stack m) ++ belows c.world.store acts) := by
  have genuine (trace : Trace G) (c : Config G)
      (obeys : Genuine trace c ∧ c.forwards = false) := obeys.1
  have standing := run.standing genuine
  refine ⟨fun a S op stack drives signal => run.heard stack drives signal,
    fun v acts a S obeys issues hands drives unanswered =>
      run.comes obeys issues hands drives unanswered,
    fun a b g op S stack refuses signal later d further =>
      RunOf.gives_up genuine refuses stack signal later further,
    fun op received foreign => standing.discards received foreign, ?_⟩
  intro g m op v acts base stack hands signal
  have sub : (.running g (.library (.machine m (.discarding op))) :: acts).Sublist c.stack :=
    stack ▸ List.sublist_append_left _ base
  have rows := standing.rows sub
  rw [machines_machine] at rows
  have some_frame := standing.some_frame hands fun b mem => sub.subset (.tail _ mem)
  obtain ⟨w, _, _⟩ := c
  subst stack signal
  exact Config.discarded_raises hands rows some_frame base g op v

namespace Script

/-- A program that performs an effect inside a handler of another one only. -/
def performing : Function :=
  ⟨.plain, "main", [], ["tell", "ask", "body"], [
    .assign "tell" (uses (.op .effect) []),
    .assign "ask" (uses (.op .effect) []),
    .assign "body" (.function ⟨.generator, "body", [], [], [
      .result (.yield (.call (.name "ask") []))]⟩),
    .result (uses (.service .execute) [.function ⟨.plain, "wrapped", [], [], [
      .result (uses (.service .handle) [
        uses (.op .handler) [.name "tell", .literal .none,
          .function ⟨.plain, "clause", ["k"], [], [.result (.literal .none)]⟩],
        .name "body"])]⟩])]⟩

/-- A program that fails while it is closed. -/
def failing : Function :=
  ⟨.plain, "main", [], ["ask", "body"], [
    .assign "ask" (uses (.op .effect) []),
    .assign "body" (.function ⟨.generator, "body", [], [], [
      .attempt [.result (.yield (.call (.name "ask") []))] []
        [.throw (uses (.op (.exception .value)) [])]]⟩),
    .result (uses (.service .execute) [.name "body"])]⟩

end Script

open Script

namespace Config

/-- What a driver hears of next, if it is a resend. -/
def hears? (c : Config G) : Option (Nat × Resend) :=
  match c.stack, c.signal with
  | .calling (.library (.execute (.running _))) :: _, .reply (.yielded (.resend id q)) => some (id, q)
  | _, _ => none

theorem of_hears? {id : Nat} {q : Resend} (h : c.hears? = some (id, q)) :
    ∃ a S, c.stack = a :: S ∧ a.Drives ∧ c.signal = .reply (.yielded (.resend id q)) := by
  unfold hears? at h
  split at h
  · rename_i g S id q stack signal
    cases h
    exact ⟨_, S, stack, .execute g, signal⟩
  · contradiction

/-- Next an effect is performed that nobody owns, in a machine of a driver. -/
def unanswered (c : Config G) : Bool :=
  match c.stack, c.yields? with
  | .running _ p :: .running _ (.library (.machine m (.advancing _))) ::
      .calling (.library (.execute (.running _))) :: _, some (_, .invocation _ _) =>
    p.machine?.isNone && (c.world.store.stack m).all fun
      | .frame (.handler ..) => false
      | _ => true
  | _, _ => false

theorem of_unanswered (h : c.unanswered = true) : ∃ j i acts a S,
    c.Issues (.invocation j i) (acts ++ a :: S) ∧ (∀ b ∈ acts, b.Hands) ∧ a.Drives ∧
      ∀ m ∈ machines acts, Unowned i.effect (c.world.store.stack m) := by
  unfold unanswered at h
  split at h
  · rename_i k p g m content e S k' j i stack yields
    obtain ⟨plain, free⟩ := Bool.and_eq_true_iff.1 h
    refine ⟨j, i, [.running g (.library (.machine m (.advancing content)))], _, S, ?_,
      by simpa using .advancing g m content, .execute e, ?_⟩
    · unfold yields? at yields
      split at yields
      · rename_i stack' signal
        cases stack.symm.trans stack'
        split at yields <;> cases yields
        rename_i turn
        exact ⟨stack, signal, turn, Option.isNone_iff_eq_none.1 plain⟩
      · rename_i stack' signal
        cases stack.symm.trans stack'
      · contradiction
    · intro n mem
      obtain rfl : n = m := by simpa using mem
      intro h t here
      simpa using List.all_eq_true.1 free _ here
  · contradiction

/-- What is raised next, if that is the error for an effect that nobody owns. -/
def uncaught (c : Config G) : Bool :=
  match c.signal with
  | .reply (.raised x) => x.kind == .uncaughtEffect
  | _ => false

end Config

theorem exists_hearing : ∃ (trace : Trace language) (c : Config language),
    RunOf (fun trace c => Genuine trace c ∧ c.forwards = false) trace c ∧
      (c.hears?).isSome = true :=
  exists_run (fresh_begin performing) 82 (by decide +kernel)

/-- A driver hears of an effect that a handler on the way does not own. -/
theorem RunOf.suspensions_classified_resend : ∃ (trace : Trace language) (c : Config language)
    (id : Nat) (q : Resend), RunOf (fun trace c => Genuine trace c ∧ c.forwards = false) trace c ∧
      c.signal = .reply (.yielded (.resend id q)) ∧ ∃ e ∈ trace, ∃ v acts below,
        e.Issues v (acts ++ below) ∧ Crosses e.world.store (machines acts) v (.resend id q) := by
  obtain ⟨trace, c, run, found⟩ := exists_hearing
  obtain ⟨⟨id, q⟩, hears⟩ := Option.isSome_iff_exists.1 found
  obtain ⟨a, S, stack, drives, signal⟩ := Config.of_hears? hears
  obtain ⟨e, mem, v, acts, issues, -, crosses⟩ :=
    (RunOf.suspensions_classified run).1 a S _ stack drives signal
  exact ⟨trace, c, id, q, run, signal, e, mem, v, acts, _, issues, crosses⟩

theorem exists_failing : ∃ (trace : Trace language) (c : Config language),
    RunOf (fun trace c => Genuine trace c ∧ c.forwards = false) trace c ∧
      (c.stack.isEmpty && (c.step matches .error _) && trace.any Config.unanswered &&
        (c :: trace).all fun e => !e.uncaught) = true :=
  exists_run (fresh_begin failing) 61 (by decide +kernel)

/--
It is not so that the error for an effect that nobody owns is raised whenever one is
performed: what is closed before may raise something else.
-/
theorem not_always_uncaught : ¬ ∀ (trace : Trace language) (c : Config language) (w : World language)
    (r : Reply), RunOf (fun trace c => Genuine trace c ∧ c.forwards = false) trace c →
      c.step = .error (w, r) → ∀ e ∈ trace, ∀ j i acts a S,
      e.Issues (.invocation j i) (acts ++ a :: S) → (∀ b ∈ acts, b.Hands) → a.Drives →
      (∀ m ∈ machines acts, Unowned i.effect (e.world.store.stack m)) →
      ∃ e' ∈ c :: trace, ∃ x, e'.signal = .reply (.raised x) ∧ x.kind = .uncaughtEffect := by
  intro always
  obtain ⟨trace, c, run, found⟩ := exists_failing
  simp only [Bool.and_eq_true, List.any_eq_true, List.all_eq_true, Bool.not_eq_true'] at found
  obtain ⟨⟨⟨-, ended⟩, e, mem, unanswered⟩, others⟩ := found
  obtain ⟨j, i, acts, a, S, issues, hands, drives, unowned⟩ := Config.of_unanswered unanswered
  cases stepped : c.step with
  | ok d => simp [stepped] at ended
  | error q =>
      obtain ⟨e', mem', x, signal, kind⟩ :=
        always trace c q.1 q.2 run stepped e mem j i acts a S issues hands drives unowned
      have other := others e' mem'
      simp [Config.uncaught, signal, kind] at other

end OneShot
