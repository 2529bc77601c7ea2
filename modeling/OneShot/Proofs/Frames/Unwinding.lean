import OneShot.Proofs.Frames.Delegation
import OneShot.Proofs.Frames.Following

/-!
# Unwinding

A failure goes down the stack of a machine before it leaves the machine: what is on
the stack gets it first.  So a machine that ends with an exception has nothing left
on its stack, unless the exception came up where the machine does not guard against
it: in closing something, or in looking at a record that it cannot use.
-/

namespace OneShot

variable {G : Guest} {trace : Trace G} {c d : Config G}

/-- A record that a machine cannot use: it has something else where its kind of record has a continuation, or an effect. -/
inductive Val.Misfit : Val → Prop
  | resumption (id : Nat) (r : Resumption) (other : ∀ k, r.cont ≠ .cont k) : Misfit (.resumption id r)
  | resend (id : Nat) (r : Resend) (other : ∀ k, r.cont ≠ .cont k) : Misfit (.resend id r)
  | effect {op : Val} {i : Invocation} (invoked : op.invoked? = some i)
      (other : ∀ e, i.effect ≠ .effect e) : Misfit op

/-- An exit is none of the exceptions that become failures. -/
theorem Exc.no_exception_of_exit {x : Exc} (exit : x.kind.isA .generatorExit = true) :
    x.isException = false := by
  unfold Exc.isException
  revert exit
  cases x.kind <;> decide

namespace Machine

/-- What fails outside of the reach of the frames on the stack. -/
inductive Unguarded (s : Store) : Phase → Reply → Prop
  /-- Something invalid was yielded, and what has yielded it fails when it is closed. -/
  | discarding (op : Val) (x : Exc) : Unguarded s (.discarding op) (.raised x)
  /-- The machine is closed, and something on its stack fails at that. -/
  | closing (contents : List Val) (x y : Exc) : Unguarded s (.closing contents x) (.raised y)
  /-- What is resent was taken by somebody else. -/
  | taken (content e : Val) (id : Nat) (args : Arguments) (k : Cont) (context : Val)
      (taken : s.isTaken k = true) :
      Unguarded s (.advancing content) (.yielded (.resend id ⟨e, args, .cont k, context⟩))
  | misfit (content : Val) {op : Val} (misfit : op.Misfit) :
      Unguarded s (.advancing content) (.yielded op)

/-- How a turn may end that ends a machine: with no stack left, or with no `exception`, unless unguarded. -/
def Unwound (s : Store) (m : Nat) (p : Phase) (r : Reply) (t : Store) (turn : Turn Phase) : Prop :=
  turn.next? = none → t.stack m = [] ∨ (∃ x, turn = .raise x ∧ x.isException = false) ∨
    Unguarded s p r

/-- A failure or value that is the end of a machine has come to the bottom of its stack. -/
theorem Delivered.bottom {o : Outcome} {base left : List Val} {turn : Turn Phase}
    (h : Delivered o base left turn) (ending : turn.next? = none) : left = [] := by
  induction h with
  | finish o => rfl
  | passes h t below ih => exact ih ending
  | returns h t v rest => contradiction
  | advances o g t rest => contradiction

section Steps

variable {s : Store} {m : Nat} {old : List Val} {owner : Val} {p : Phase} {r : Reply}

theorem unwound_settle (own : s.machines[m]? = some ⟨.own old, owner⟩)
    (proper : ∀ v ∈ old, v.Proper) {u : Store} (same : u.machines = s.machines) (o : Outcome) :
    Unwound s m p r (settle u m o).1 (settle u m o).2 := by
  intro ending
  have own' : u.machines[m]? = some ⟨.own old, owner⟩ := by rw [same, own]
  obtain ⟨left, turn, settled, delivered⟩ := settle_proper own' proper o
  rw [settled] at ending ⊢
  rw [delivered.bottom ending]
  exact .inl (Store.stack_setStack own' [])

theorem unwound_settle_set (own : s.machines[m]? = some ⟨.own old, owner⟩) {base : List Val}
    (proper : ∀ v ∈ base, v.Proper) {u : Store} (same : u.machines = s.machines) (o : Outcome) :
    Unwound s m p r (settle (u.setStack m base) m o).1 (settle (u.setStack m base) m o).2 := by
  have own' : u.machines[m]? = some ⟨.own old, owner⟩ := by rw [same, own]
  intro ending
  have there := Store.machines_setStack own' base
  obtain ⟨left, turn, settled, delivered⟩ := settle_proper there proper o
  rw [settled] at ending ⊢
  rw [delivered.bottom ending]
  exact .inl (Store.stack_setStack there [])

theorem unwound_fail (own : s.machines[m]? = some ⟨.own old, owner⟩)
    (proper : ∀ v ∈ old, v.Proper) (x : Exc) :
    Unwound s m p r (fail s m x).1 (fail s m x).2 := by
  unfold fail
  split
  · exact unwound_settle own proper rfl _
  · rename_i other
    exact fun _ => .inr (.inl ⟨x, rfl, by simpa using other⟩)

theorem unwound_finished (own : s.machines[m]? = some ⟨.own old, owner⟩)
    (proper : ∀ v ∈ old, v.Proper) (w : Val) :
    Unwound s m p r (finished s m w).1 (finished s m w).2 := by
  unfold finished popThen
  cases stack : s.stack m with
  | nil => exact fun _ => .inl stack
  | cons v rest =>
      rw [Store.stack_of_own own] at stack
      exact unwound_settle_set own (fun w mem => proper w (by simp [stack, mem])) rfl _

theorem unwound_broken (own : s.machines[m]? = some ⟨.own old, owner⟩)
    (proper : ∀ v ∈ old, v.Proper) (x : Exc) :
    Unwound s m p r (broken s m x).1 (broken s m x).2 := by
  unfold broken popThen
  split
  · rename_i exception
    cases stack : s.stack m with
    | nil => exact fun _ => .inl stack
    | cons v rest =>
        rw [Store.stack_of_own own] at stack
        simp only [fail, exception, if_true]
        exact unwound_settle_set own (fun w mem => proper w (by simp [stack, mem])) rfl _
  · rename_i other
    exact fun _ => .inr (.inl ⟨x, rfl, by simpa using other⟩)

/-- What delivers something does not start to close. -/
theorem Delivered.ask_ne_closing {o : Outcome} {base left : List Val} {a : Ask} {turn : Turn Phase}
    (h : Delivered o base left turn) {contents : List Val} {x : Exc} :
    turn ≠ .ask a (.closing contents x) := by
  induction h with
  | finish o =>
      cases o with
      | ok v => simp [Outcome.finish]
      | failed v => cases v <;> simp [Outcome.finish, Turn.raiseValue]
  | passes h t below ih => exact ih
  | _ => simp

/-- Nothing goes wrong in the search for the owner of an effect among the library's own frames. -/
theorem searchFault?_eq_none {frames : List Val} (proper : ∀ v ∈ frames, v.Proper) (e : Effect) :
    searchFault? (.effect e) frames = none := by
  induction frames with
  | nil => rfl
  | cons v rest ih =>
      have further := ih fun w mem => proper w (List.mem_cons_of_mem _ mem)
      cases proper v List.mem_cons_self with
      | generator g t => simpa [searchFault?] using further
      | handler h t =>
          have here : searchFault? (.effect e) (.frame (.handler (.handler h) t) :: rest) =
              if h.owns e then none else searchFault? (.effect e) rest := rfl
          simp [here, further]

/-- A machine that dispatches an effect goes on. -/
theorem next?_dispatch (proper : ∀ v ∈ s.stack m, v.Proper) (e : Effect) (args : Arguments)
    (context : Val) (inner : Option Cont) :
    (dispatch s m (.effect e) args context inner).2.next? ≠ none := by
  unfold dispatch
  rw [searchFault?_eq_none proper]
  dsimp only
  split <;> simp [Turn.next?]

/-- A dispatch only ends a machine if there is no effect to look for. -/
theorem unwound_dispatch {u : Store} (proper : ∀ v ∈ u.stack m, v.Proper) (content : Val) {op : Val}
    {i : Invocation} (invoked : op.invoked? = some i) (inner : Option Cont) :
    Unwound s m (.advancing content) (.yielded op) (dispatch u m i.effect i.args i.context inner).1
      (dispatch u m i.effect i.args i.context inner).2 := by
  intro ending
  by_cases effect : ∃ e, i.effect = .effect e
  · obtain ⟨e, same⟩ := effect
    rw [same] at ending
    exact absurd ending (next?_dispatch proper e _ _ _)
  · exact .inr (.inr (.misfit content (.effect invoked fun e same => effect ⟨e, same⟩)))

theorem unwound_receive (own : s.machines[m]? = some ⟨.own old, owner⟩)
    (proper : ∀ v ∈ old, v.Proper) (content op : Val)
    (resumed : ∀ q, op.resumed? = some q → ∀ v ∈ s.frames q.2, v.Proper) :
    Unwound s m (.advancing content) (.yielded op) (receive s m content op).1
      (receive s m content op).2 := by
  have stack := Store.stack_of_own own
  unfold receive
  split
  · rename_i id k value error
    have proper' : ∀ v ∈ s.frames k ++ s.stack m, v.Proper := by
      intro v mem
      rcases List.mem_append.1 mem with brought | mem
      · exact resumed (id, k) rfl v brought
      · exact proper v (stack ▸ mem)
    split
    · exact unwound_settle_set own proper' rfl _
    · exact unwound_settle_set own proper' rfl _
  · rename_i id r other
    refine fun _ => .inr (.inr (.misfit content (.resumption id r fun k same => ?_)))
    cases r
    cases same
    exact other _ _ _ rfl
  · exact unwound_dispatch (stack ▸ proper) content rfl none
  · rename_i id e args k context
    cases taken : s.isTaken k with
    | true => exact fun _ => .inr (.inr (.taken content e id args k context taken))
    | false =>
        have won : (s.take k).2 = true := by simp [taken]
        have machines : (s.take k).1.machines = s.machines := Store.machines_take s k
        have stack' : (s.take k).1.stack m = s.stack m := by
          rw [stack, Store.stack_of_own (machines ▸ own)]
        split
        · rename_i u made
          have same : u = (s.take k).1 := by rw [made]
          subst same
          exact unwound_dispatch (by rw [stack', stack]; exact proper) content
            (i := ⟨e, args, context⟩) rfl (some k)
        · rename_i u made
          rw [made] at won
          contradiction
  · rename_i id r other
    refine fun _ => .inr (.inr (.misfit content (.resend id r fun k same => ?_)))
    cases r
    cases same
    exact other _ _ _ _ rfl
  · intro ending
    contradiction
  · unfold popThen
    cases stack : s.stack m with
    | nil => exact fun _ => .inl stack
    | cons v rest =>
        intro ending
        contradiction

theorem unwound_closeNext {x : Exc} (exit : x.isException = false) (contents : List Val) :
    Unwound s m p r (closeNext s x contents).1 (closeNext s x contents).2 := by
  cases contents with
  | nil => exact fun _ => .inr (.inl ⟨x, rfl, exit⟩)
  | cons v rest =>
      intro ending
      contradiction

theorem unwound_step (own : s.machines[m]? = some ⟨.own old, owner⟩) (proper : ∀ v ∈ old, v.Proper)
    (tame : ∀ c, p ≠ .throwing c) (begun : p = .start → ∃ v, r = .value v)
    (exit : ∀ contents x, p = .closing contents x → x.isException = false)
    (resumed : ∀ q, (received? p r).bind Val.resumed? = some q → ∀ v ∈ s.frames q.2, v.Proper) :
    Unwound s m p r (step s m p r).1 (step s m p r).2 := by
  have answered (v : Val) : Unwound s m p r (settle s m (.ok v)).1 (settle s m (.ok v)).2 :=
    unwound_settle own proper rfl _
  have called (v : Val) :
      Unwound s m p r (step s m .calling (.value v)).1 (step s m .calling (.value v)).2 := by
    simp only [step]
    split
    · rename_i g made
      have proper' : ∀ v ∈ .frame (.generator (.gen g) s.freshTag.2) :: s.stack m, v.Proper := by
        simp only [List.forall_mem_cons, Store.stack_of_own own]
        exact ⟨.generator g _, proper⟩
      exact unwound_settle_set (u := s.freshTag.1) own proper' rfl (.ok .none)
    · exact answered v
  have discarded (op : Val) :
      Unwound s m p r (step s m (.discarding op) (.value .none)).1
        (step s m (.discarding op) (.value .none)).2 := by
    let made := s.invalidInvocationError op .none
    exact unwound_settle (u := made.1) own proper rfl (.failed (.exc made.2))
  cases p with
  | start =>
      obtain ⟨v, rfl⟩ := begun rfl
      have starts : start s m = settle s m (.ok .none) := by simp only [start, own]
      simp only [step, starts]
      exact answered .none
  | calling =>
      cases r with
      | raised x => exact unwound_fail own proper x
      | value v => exact called v
      | yielded v => exact called v
  | advancing content =>
      cases r with
      | value v => exact unwound_finished own proper v
      | yielded op => exact unwound_receive own proper content op resumed
      | raised x =>
          simp only [step]
          split
          · exact unwound_finished own proper _
          · exact unwound_broken own proper x
  | throwing content => exact absurd rfl (tame content)
  | escaped =>
      cases r with
      | value v => exact answered v
      | yielded v => exact answered v
      | raised x =>
          simp only [step]
          split
          · rename_i exit
            exact unwound_closeNext (Exc.no_exception_of_exit exit) _
          · exact unwound_fail own proper x
  | resent =>
      cases r with
      | value v => exact answered v
      | yielded v => exact answered v
      | raised x => exact unwound_fail own proper x
  | discarding op =>
      cases r with
      | raised x => exact fun _ => .inr (.inr (.discarding op x))
      | value v => exact discarded op
      | yielded v => exact discarded op
  | closing rest x =>
      cases r with
      | raised y => exact fun _ => .inr (.inr (.closing rest x y))
      | value v => exact unwound_closeNext (exit rest x rfl) _
      | yielded v => exact unwound_closeNext (exit rest x rfl) _

/-- A machine starts to close what is on its stack because of an exit. -/
theorem exit_of_closing (own : s.machines[m]? = some ⟨.own old, owner⟩)
    (proper : ∀ v ∈ old, v.Proper) {a : Ask} {contents : List Val} {x : Exc}
    (h : (step s m .escaped r).2 = .ask a (.closing contents x)) : x.isException = false := by
  have settled (o : Outcome) : (settle s m o).2 ≠ .ask a (.closing contents x) := by
    obtain ⟨left, turn, settled, delivered⟩ := settle_proper own proper o
    rw [settled]
    exact delivered.ask_ne_closing
  cases r with
  | value v => exact absurd h (settled _)
  | yielded v => exact absurd h (settled _)
  | raised y =>
      simp only [step] at h
      split at h
      · rename_i exit
        cases contents' : (s.stack m).filterMap Val.framed? with
        | nil =>
            rw [contents'] at h
            cases h
        | cons v rest =>
            rw [contents'] at h
            cases h
            exact Exc.no_exception_of_exit exit
      · unfold fail at h
        split at h
        · exact absurd h (settled _)
        · cases h

/-- It goes on to close only with such an exit. -/
theorem exit_of_step (own : s.machines[m]? = some ⟨.own old, owner⟩) (proper : ∀ v ∈ old, v.Proper)
    (exit : ∀ contents x, p = .closing contents x → x.isException = false)
    (does : Does s m p r (step s m p r).1 (step s m p r).2) {a : Ask} {contents : List Val} {x : Exc}
    (h : (step s m p r).2 = .ask a (.closing contents x)) : x.isException = false := by
  by_cases escaped : p = .escaped
  · subst escaped
    exact exit_of_closing own proper h
  generalize (step s m p r).1 = t, (step s m p r).2 = turn at does h
  cases does with
  | settles delivers delivered after => exact absurd h delivered.ask_ne_closing
  | halts left after ending unasked begun =>
      subst h
      contradiction
  | escapes content id action => cases h
  | closes source =>
      cases h
      rcases source with ⟨here, -⟩ | here
      · exact absurd here escaped
      · exact exit _ _ here
  | discards stack unasked => cases h
  | captures invoked stack brings after directs => cases directs <;> cases h

end Steps
end Machine

/-! ## Runs -/

/-- A machine that is closing what was on its stack goes on with the exit that it got. -/
def Config.Exiting (c : Config G) : Prop :=
  ∀ a ∈ c.stack, ∀ m contents x, a.machine? = some (m, .closing contents x) → x.isException = false

theorem Standing.exiting (standing : Standing trace c) (exiting : c.Exiting)
    (genuine : Genuine trace c) (stepped : c.step = .ok d) : d.Exiting := by
  have after := standing.step genuine stepped
  intro a mem m contents x machine
  rcases Config.pushes_step stepped mem with before | pushes
  · exact exiting a before m contents x machine
  · obtain ⟨g, rfl, -⟩ := after.seated.machine mem machine
    have unmanned (plain : Routine.Plain (.library (.machine m (.closing contents x)) : Routine G)) :
        False := absurd plain.machine? (by simp [Routine.machine?])
    -- a generator starts as another phase, and suspends in another one
    have status {t : Status G} (there : c.world.status g = t) (other : t ≠ .finished) :
        t.Fair trace g.id := standing.seated.gens g.id t (World.getElem?_of_status there other)
    cases pushes with
    | enters status' =>
        rcases status' with fresh | ⟨how, suspended⟩
        · rcases status fresh (by simp) with plain | ⟨m', p, same, ok, -⟩
          · exact (unmanned plain).elim
          · cases same
            cases ok
        · rcases status suspended (by simp) with plain | ⟨m', p, same, ok, -⟩
          · exact (unmanned plain).elim
          · cases same
            rcases ok with ok | ok <;> cases ok
    | @turns _ p p' r rest stack signal next =>
        have mem : Activation.running g p ∈ c.stack := by simp [stack]
        rcases standing.seated.stack _ mem with plain | ⟨n, q, rfl, -, ran, -⟩
        · exact (unmanned (plain.next (Prod.eta (p.step c.world r)).symm next)).elim
        · obtain ⟨a, q', same, -, turn⟩ := Manned.machine_next standing stack signal next
          cases same
          obtain ⟨asked, turned, same⟩ := Turn.map_eq_ask turn
          obtain ⟨waiting, moved, same'⟩ := Turn.map_eq_ask turned
          subst same'
          cases same
          obtain ⟨owner, own⟩ := standing.sound.machine ran
          refine Machine.exit_of_step own (standing.sound.onStacks m) (fun contents x here => ?_)
            (standing.sound.turning standing.seated m q r g rest stack signal) moved
          subst here
          exact exiting _ mem m contents x rfl
    | @regains _ e _ rest stack =>
        have head := List.mem_of_mem_head? (congrArg List.head? stack)
        exact (unmanned (standing.seated.stack _ head)).elim
    | @leaves _ _ y rest stack =>
        have head := List.mem_of_mem_head? (congrArg List.head? stack)
        exact (unmanned (standing.seated.stack _ head)).elim

theorem RunOf.exiting (run : RunOf Genuine trace c) : c.Exiting := by
  induction run with
  | start fresh => simp [Config.Exiting, fresh.stack]
  | step before genuine stepped ih =>
      exact (before.standing fun _ _ h => h).exiting ih genuine stepped

/-- The kernel acts on the turn of a machine. -/
theorem Config.step_machine (stepped : c.step = .ok d) {g : Gen} {m : Nat} {p : Machine.Phase}
    {r : Reply} {rest : List (Activation G)}
    (stack : c.stack = .running g (.library (.machine m p)) :: rest) (signal : c.signal = .reply r) :
    d = Config.turnOf { c.world with store := (Machine.step c.world.store m p r).1 } rest g
      (((Machine.step c.world.store m p r).2.map (.machine m)).map .library) := by
  obtain ⟨w, _, _⟩ := c
  cases stack
  cases signal
  cases stepped
  rfl

/-- An exception that comes out of a machine, but not in one of the unguarded ways, has come down its whole stack. -/
theorem RunOf.unwound (run : RunOf Genuine trace c) (stepped : c.step = .ok d) {g : Gen} {m : Nat}
    {p : Machine.Phase} {r : Reply} {rest : List (Activation G)} {x : Exc}
    (stack : c.stack = .running g (.library (.machine m p)) :: rest) (signal : c.signal = .reply r)
    (raised : d.signal = .reply (.raised x)) (exception : x.isException = true) :
    d.world.store.stack m = [] ∨ Machine.Unguarded c.world.store p r := by
  have standing := run.standing fun _ _ h => h
  have mem : Activation.running g (.library (.machine m p)) ∈ c.stack := by simp [stack]
  obtain ⟨i, -, ran, tame, -⟩ := standing.seated.machine mem rfl
  obtain ⟨owner, own⟩ := standing.sound.machine ran
  have begun (here : p = .start) : ∃ v, r = .value v := by
    subst here
    obtain ⟨v, same⟩ := standing.aligned.begun _ m (congrArg List.head? stack) rfl
    exact ⟨v, Signal.reply.inj (signal.symm.trans same)⟩
  have exit (contents : List Val) (y : Exc) (here : p = .closing contents y) :
      y.isException = false := run.exiting _ mem m contents y (by rw [here]; rfl)
  have unwound := Machine.unwound_step own (standing.sound.onStacks m) tame begun exit
    fun q _ => standing.sound.slices q.2
  obtain ⟨t, moved, made, does, followed⟩ :=
    standing.sound.follows standing.seated stack signal stepped
  have after := Config.step_machine stepped stack signal
  rw [made] at unwound after
  have kept := (does.own standing.sound.own (standing.sound.ran m _ ran)).stack_eq
    (Store.machines_of_engine followed.quiet.engine)
  cases followed with
  | calls | advances | closes | yields => cases raised
  | ends ending quiet final =>
      rcases unwound ending with empty | ⟨y, rfl, other⟩ | unguarded
      · exact .inl ((kept m).trans empty)
      · -- what is no `exception` leaves the machine as it is
        have same : x = y := by
          have no_stop : y.kind ≠ .stopIteration := by
            intro stop
            rw [Exc.isException, stop] at other
            contradiction
          have signal' := congrArg Config.signal after
          simp only [Turn.map, Config.turnOf, Config.leave, if_neg no_stop] at signal'
          cases raised.symm.trans signal'
          rfl
        rw [same, other] at exception
        contradiction
      · exact .inr unguarded

/-! ## A failing clean-up -/

namespace Script

/--
A program whose computation yields something invalid, and fails when it is closed for
that.  The clause that has resumed it is waiting to catch failures.
-/
def failingCleanup : Function :=
  ⟨.plain, "main", [], ["ask", "body"], [
    .assign "ask" (uses (.op .effect) []),
    .assign "body" (.function ⟨.generator, "body", [], [], [
      .expr (.yield (.call (.name "ask") [])),
      .attempt [.expr (.yield (.literal (.int 5)))] []
        [.throw (uses (.op (.exception .value)) [])]]⟩),
    .result (uses (.service .execute) [.function ⟨.plain, "wrapped", [], [], [
      .result (uses (.service .handle) [
        uses (.op .handler) [.name "ask", .literal .none,
          .function ⟨.generator, "clause", ["k"], ["x"], [
            .attempt [.result (.delegate (.call (.name "k") [.literal (.int 1)]))]
              [⟨.value, "x", [.result (.literal (.str "cleaned up"))]⟩] []]⟩],
        .name "body"])]⟩])]⟩

end Script

open Script

/-- The topmost machine ends in the next step with an exception, and leaves frames behind. -/
def Config.strands (c : Config G) : Bool :=
  match c.stepped?, c.step with
  | some m, .ok d =>
      match d.signal with
      | .reply (.raised x) => x.isException && !(d.world.store.stack m).isEmpty
      | _ => false
  | _, _ => false

theorem Config.of_strands (h : c.strands = true) : ∃ m d x, c.stepped? = some m ∧ c.step = .ok d ∧
    d.signal = .reply (.raised x) ∧ x.isException = true ∧ d.world.store.stack m ≠ [] := by
  unfold strands at h
  split at h
  · rename_i m d machine stepped
    split at h
    · rename_i x raised
      simp only [Bool.and_eq_true, Bool.not_eq_true', List.isEmpty_eq_false_iff] at h
      exact ⟨m, d, x, machine, stepped, raised, h.1, h.2⟩
    · contradiction
  · contradiction

theorem exists_stranding : ∃ (trace : Trace language) (c : Config language),
    RunOf Genuine trace c ∧ c.strands = true :=
  exists_run (fresh_begin failingCleanup) 116 (by decide +kernel)

/-- Frames are left behind, and it is the clean-up that has failed. -/
theorem RunOf.unwound_failing_cleanup : ∃ (trace : Trace language) (c d : Config language) (m : Nat)
    (p : Machine.Phase) (r : Reply), RunOf Genuine trace c ∧ c.step = .ok d ∧
      c.stepped? = some m ∧ d.world.store.stack m ≠ [] ∧ Machine.Unguarded c.world.store p r := by
  obtain ⟨trace, c, run, found⟩ := exists_stranding
  obtain ⟨m, d, x, machine, stepped, raised, exception, stranded⟩ := Config.of_strands found
  obtain ⟨a, rest, r, p, stack, signal, here⟩ := Config.stepped?_eq_some machine
  have standing := run.standing fun _ _ h => h
  obtain ⟨g, rfl, -⟩ := standing.seated.machine (a := a) (by simp [stack]) here
  have unguarded := RunOf.unwound run stepped stack signal raised exception
  exact ⟨trace, c, d, m, p, r, run, stepped, machine, stranded, unguarded.resolve_left stranded⟩

/-- It is not so that a machine which ends with an exception has nothing left on its stack. -/
theorem not_always_unwound : ¬ ∀ (trace : Trace language) (c d : Config language) (m : Nat) (x : Exc),
    RunOf Genuine trace c → c.step = .ok d → c.stepped? = some m →
      d.signal = .reply (.raised x) → x.isException = true → d.world.store.stack m = [] := by
  intro always
  obtain ⟨trace, c, run, found⟩ := exists_stranding
  obtain ⟨m, d, x, machine, stepped, raised, exception, stranded⟩ := Config.of_strands found
  exact stranded (always trace c d m x run stepped machine raised exception)

end OneShot
