import OneShot.Proofs.Frames.Unwinding

/-!
# Returning

A handler without a return handler has the identity in its place, which a machine
calls like any other.  So a value comes out of any number of such frames, and through
the machines that have resent theirs, as it went in.  The one exception is a
generator: what the identity answers with is taken for one that a return handler has
made, and is run.
-/

namespace OneShot

variable {G : Guest} {trace : Trace G} {c d e : Config G} {v : Val}

/-- At most stacks of machines and statuses of generators are different. -/
structure World.Still (w u : World G) : Prop where
  memory : u.memory = w.memory
  store : u.store = { w.store with machines := u.store.machines }

namespace Config

/-- A value is on its way down through frames without return handlers. -/
inductive Leaving (v : Val) : Config G → Prop
  /-- What is on top of the stack of a machine has come to its end. -/
  | completes {w : World G} {rest : List (Activation G)} {g : Gen} {m : Nat} {content : Val}
      {r : Reply} (ends : r.ended = .value v) :
      Leaving v ⟨w, .running g (.library (.machine m (.advancing content))) :: rest, .reply r⟩
  | calls {w : World G} {rest : List (Activation G)} {g : Gen} {m : Nat} (caller : Caller) :
      Leaving v ⟨w, .running g (.library (.machine m .calling)) :: rest,
        .call (.native .identity) [v] caller⟩
  | answers {w : World G} {rest : List (Activation G)} {g : Gen} {m : Nat} :
      Leaving v ⟨w, .running g (.library (.machine m .calling)) :: rest, .reply (.value v)⟩
  /-- It comes to a machine that has resent its whole stack. -/
  | enters {w : World G} {rest : List (Activation G)} {g h : Gen} {m n : Nat} {how : Suspension}
      (status : w.status h = .suspended (.library (.machine n .resent)) how) :
      Leaving v ⟨w, .running g (.library (.machine m (.advancing (.gen h)))) :: rest,
        .advance h (.send v)⟩
  | relays {w : World G} {rest : List (Activation G)} {g : Gen} {m : Nat} :
      Leaving v ⟨w, .running g (.library (.machine m .resent)) :: rest, .reply (.value v)⟩

/-- A value has come to what is no such frame. -/
inductive Arrived (v : Val) : Config G → Prop
  /-- It is sent to a generator other than that of a machine which has resent its stack. -/
  | sent {w : World G} {stack : List (Activation G)} {h : Gen}
      (other : ∀ n how, w.status h ≠ .suspended (.library (.machine n .resent)) how) :
      Arrived v ⟨w, stack, .advance h (.send v)⟩
  /-- A return handler of the program gets it. -/
  | handled {w : World G} {stack : List (Activation G)} {f : Val} (other : f ≠ .native .identity) :
      Arrived v ⟨w, stack, .call f [v] .machine⟩
  /-- It is the result of a machine that no other machine has advanced. -/
  | out {w : World G} {stack : List (Activation G)}
      (other : ∀ g m content rest,
        stack ≠ .running g (.library (.machine m (.advancing content))) :: rest) :
      Arrived v ⟨w, stack, .reply (.value v)⟩

/-- In the next step a machine puts a generator on its stack that it got as an answer, and runs it. -/
def Begins (c : Config G) (h : Gen) : Prop :=
  ∃ d m t, c.step = .ok d ∧ c.stepped? = some m ∧ d.signal = .advance h (.send .none) ∧
    d.world.store.stack m = .frame (.generator (.gen h) t) :: c.world.store.stack m

/-- A run in which nothing happens but that a value is on its way. -/
inductive Passes (v : Val) : Config G → Config G → Prop
  | refl (c : Config G) : Passes v c c
  | step {c d e : Config G} (leaving : c.Leaving v) (stepped : c.step = .ok d)
      (still : c.world.Still d.world) (further : Passes v d e) : Passes v c e

end Config

/-! ## How far a value has to go -/

def Status.sleeps : Option (Status G) → Bool
  | some (.suspended ..) => true
  | _ => false

namespace World

/-- How many generators are suspended. -/
def dormant (w : World G) : Nat :=
  ((List.range w.gens.size).flatMap fun i => [w.gens[i]?]).countP Status.sleeps

theorem dormant_setStatus (w : World G) {g : Gen} (inside : g.id < w.gens.size) (t : Status G) :
    (w.setStatus g t).dormant + [w.gens[g.id]?].countP Status.sleeps =
      w.dormant + [some t].countP Status.sleeps := by
  have changed := countP_range (P := Status.sleeps) (fun i => [w.gens[i]?])
    (fun i => [(w.setStatus g t).gens[i]?]) inside fun i apart => by
      simp [setStatus, Array.getElem?_modify, Ne.symm apart]
  have here : (w.setStatus g t).gens[g.id]? = some t := by
    simp only [setStatus, Array.getElem?_modify, if_true, Array.getElem?_eq_getElem inside,
      Option.map_some]
  have size : (w.setStatus g t).gens.size = w.gens.size := by simp [setStatus]
  rw [here] at changed
  unfold dormant
  rw [size]
  exact changed

theorem dormant_finish (w : World G) (g : Gen) : (w.setStatus g .finished).dormant ≤ w.dormant := by
  by_cases inside : g.id < w.gens.size
  · have changed := w.dormant_setStatus inside .finished
    have awake : [some (.finished : Status G)].countP Status.sleeps = 0 := rfl
    omega
  · have same : (w.setStatus g .finished).gens = w.gens := by
      simp [setStatus, Array.modify, Array.modifyM, inside]
    exact Nat.le_of_eq (by rw [dormant, dormant, same])

theorem dormant_wake (w : World G) {g : Gen} {p : Routine G} {how : Suspension}
    (status : w.status g = .suspended p how) :
    (w.setStatus g .running).dormant + 1 = w.dormant := by
  have there := getElem?_of_status status (by simp)
  obtain ⟨inside, -⟩ := Array.getElem?_eq_some_iff.1 there
  have changed := w.dormant_setStatus inside .running
  rw [there] at changed
  exact changed

namespace Still

variable {w u x : World G}

theorem refl (w : World G) : Still w w := ⟨rfl, rfl⟩

theorem trans (first : Still w u) (second : Still u x) : Still w x := by
  refine ⟨second.memory.trans first.memory, ?_⟩
  rw [second.store, first.store]

theorem setStatus (still : Still w u) (g : Gen) (t : Status G) : Still w (u.setStatus g t) :=
  ⟨still.memory, still.store⟩

theorem setStack {m : Nat} {old : List Val} {owner : Val}
    (own : w.store.machines[m]? = some ⟨.own old, owner⟩) (frames : List Val) :
    Still w { w with store := w.store.setStack m frames } := by
  refine ⟨rfl, ?_⟩
  simp [Store.setStack, own]

end Still
end World

/-- What a machine gets from a generator that has come to its end goes down its stack. -/
theorem Machine.step_ended {s : Store} {m : Nat} {content : Val} {r : Reply}
    (ends : r.ended = .value v) : step s m (.advancing content) r = finished s m v := by
  cases r with
  | value u =>
      cases ends
      rfl
  | yielded u => contradiction
  | raised x =>
      by_cases stop : x.kind = .stopIteration
      · simp only [Reply.ended, if_pos stop, Reply.value.injEq] at ends
        simp only [step, if_pos stop, ends]
      · simp [Reply.ended, stop] at ends

namespace Config

/-- How many steps a value takes at most with the frame that it has come to. -/
def rank (c : Config G) : Nat :=
  match c.signal, c.stack.head?.bind Activation.machine? with
  | .call .., _ => 4
  | .advance .., _ => 2
  | .reply _, some (_, .advancing _) => 0
  | _, _ => 3

def weight (c : Config G) : Nat :=
  4 * (c.world.store.owned []).length + 3 * c.world.dormant + c.stack.length + c.rank

/-- A value that is delivered to the stack of a machine is on its way, or has arrived. -/
theorem settles {w : World G} {m : Nat} {base : List Val} {owner : Val} (whole : w.store.Own)
    (own : w.store.machines[m]? = some ⟨.own base, owner⟩) (proper : ∀ f ∈ base, f.Proper)
    (rest : List (Activation G)) (g : Gen) (v : Val)
    (made : d = turnOf { w with store := (Machine.settle w.store m (.ok v)).1 } rest g
      (((Machine.settle w.store m (.ok v)).2.map (.machine m)).map .library)) :
    w.Still d.world ∧ (d.Arrived v ∨ d.Leaving v ∧ d.weight ≤
      4 * (w.store.owned []).length + 3 * w.dormant + rest.length + 3) := by
  obtain ⟨left, turn, settled, delivered⟩ := Machine.settle_proper own proper (.ok v)
  obtain ⟨inside, -⟩ := Array.getElem?_eq_some_iff.1 own
  have counted := whole.countP_setStack (fun _ => true) [] inside left
  have still := World.Still.setStack own left
  rw [Store.stack_of_own own] at counted
  simp only [List.countP_true] at counted
  rw [settled] at made
  subst made
  cases delivered with
  | finish o =>
      have slept := World.dormant_finish { w with store := w.store.setStack m [] } g
      refine ⟨still.setStatus g .finished, ?_⟩
      by_cases below : ∃ h n content rest',
          rest = .running h (.library (.machine n (.advancing content))) :: rest'
      · obtain ⟨h, n, content, rest', rfl⟩ := below
        refine .inr ⟨.completes rfl, ?_⟩
        change 4 * ((w.store.setStack m []).owned []).length +
          3 * (World.setStatus { w with store := w.store.setStack m [] } g .finished).dormant +
            (rest'.length + 1) + 0 ≤ _
        have slept : _ ≤ w.dormant := slept
        simp only [List.length_cons]
        omega
      · exact .inl (.out fun h n content rest' same => below ⟨h, n, content, rest', same⟩)
  | returns h t v left =>
      refine ⟨still, ?_⟩
      by_cases identity : h.onReturn = .native .identity
      · rw [identity]
        refine .inr ⟨.calls .machine, ?_⟩
        change 4 * ((w.store.setStack m left).owned []).length + 3 * w.dormant +
          (rest.length + 1) + 4 ≤ _
        simp only [List.length_cons] at counted
        omega
      · exact .inl (.handled identity)
  | advances o h t left =>
      refine ⟨still, ?_⟩
      by_cases relay : ∃ n how, w.status h = .suspended (.library (.machine n .resent)) how
      · obtain ⟨n, how, status⟩ := relay
        refine .inr ⟨.enters status, ?_⟩
        change 4 * ((w.store.setStack m (.frame (.generator (.gen h) t) :: left)).owned []).length +
          3 * w.dormant + (rest.length + 1) + 2 ≤ _
        omega
      · exact .inl (.sent fun n how status => relay ⟨n, how, status⟩)

/-- That is so when a machine whose stack is in order delivers the value in its turn. -/
theorem settles_next (standing : Standing trace c) {g : Gen} {m : Nat} {p : Machine.Phase}
    {r : Reply} {rest : List (Activation G)} {base : List Val}
    (stack : c.stack = .running g (.library (.machine m p)) :: rest) (signal : c.signal = .reply r)
    (left : base <:+ c.world.store.stack m)
    (turn : Machine.step c.world.store m p r =
      Machine.settle (c.world.store.setStack m base) m (.ok v)) :
    ∃ d, c.step = .ok d ∧ c.world.Still d.world ∧ (d.Arrived v ∨ d.Leaving v ∧
      d.weight + 4 * (c.world.store.stack m).length ≤ 4 * (c.world.store.owned []).length +
        4 * base.length + 3 * c.world.dormant + c.stack.length + 2) := by
  have mem : Activation.running g (.library (.machine m p)) ∈ c.stack := by simp [stack]
  obtain ⟨i, -, ran, -⟩ := standing.seated.machine mem rfl
  obtain ⟨owner, own⟩ := standing.sound.machine ran
  obtain ⟨inside, -⟩ := Array.getElem?_eq_some_iff.1 own
  have whole := standing.sound.own
  have counted := whole.countP_setStack (fun _ => true) [] inside base
  have proper (f : Val) (mem : f ∈ base) : f.Proper :=
    standing.sound.onStacks m f (left.subset mem)
  obtain ⟨d, stepped⟩ : ∃ d, c.step = .ok d := by
    obtain ⟨w, _, _⟩ := c
    cases stack
    cases signal
    exact ⟨_, rfl⟩
  have made := step_machine stepped stack signal
  rw [turn] at made
  obtain ⟨still, going⟩ := settles (w := { c.world with store := c.world.store.setStack m base })
    (whole.setStack inside base) (Store.machines_setStack own base) proper rest g v made
  refine ⟨d, stepped, (World.Still.setStack own base).trans still, going.imp id fun leaving => ?_⟩
  obtain ⟨leaving, light⟩ := leaving
  have same : World.dormant { c.world with store := c.world.store.setStack m base } =
      c.world.dormant := rfl
  simp only [List.countP_true] at counted
  simp only [same] at light
  rw [stack, List.length_cons]
  exact ⟨leaving, by omega⟩

theorem settles_again (standing : Standing trace c) {g : Gen} {m : Nat} {p : Machine.Phase}
    {r : Reply} {rest : List (Activation G)}
    (stack : c.stack = .running g (.library (.machine m p)) :: rest) (signal : c.signal = .reply r)
    (turn : Machine.step c.world.store m p r = Machine.settle c.world.store m (.ok v)) :
    ∃ d, c.step = .ok d ∧ c.world.Still d.world ∧ (d.Arrived v ∨ d.Leaving v ∧
      d.weight ≤ 4 * (c.world.store.owned []).length + 3 * c.world.dormant + c.stack.length + 2) := by
  have mem : Activation.running g (.library (.machine m p)) ∈ c.stack := by simp [stack]
  obtain ⟨i, -, ran, -⟩ := standing.seated.machine mem rfl
  obtain ⟨owner, own⟩ := standing.sound.machine ran
  have same := Store.setStack_self own
  have turn : Machine.step c.world.store m p r = Machine.settle
      (c.world.store.setStack m (c.world.store.stack m)) m (.ok v) := by rw [same, turn]
  obtain ⟨d, stepped, still, going⟩ := settles_next standing stack signal List.suffix_rfl turn
  exact ⟨d, stepped, still, going.imp id fun leaving => ⟨leaving.1, by omega⟩⟩

/-- A generator that a machine got as an answer is put on its stack, and run. -/
theorem begins (standing : Standing trace c) {g h : Gen} {m : Nat} {rest : List (Activation G)}
    (stack : c.stack = .running g (.library (.machine m .calling)) :: rest)
    (signal : c.signal = .reply (.value v)) (made : v.generator? = some h) : c.Begins h := by
  have mem : Activation.running g (.library (.machine m .calling)) ∈ c.stack := by simp [stack]
  obtain ⟨i, -, ran, -⟩ := standing.seated.machine mem rfl
  obtain ⟨owner, own⟩ := standing.sound.machine ran
  let base := Val.frame (.generator (.gen h) c.world.store.freshTag.2) :: c.world.store.stack m
  let store := c.world.store.freshTag.1.setStack m base
  have there : store.machines[m]? = some ⟨.own base, owner⟩ :=
    Store.machines_setStack (s := c.world.store.freshTag.1) own base
  have turn : Machine.step c.world.store m .calling (.value v) =
      (store, .ask (.advance h (.send .none)) (.advancing (.gen h))) := by
    have delivers : Machine.step c.world.store m .calling (.value v) =
        Machine.settle store m (.ok .none) := by
      simp only [Machine.step, made]
      rfl
    have same : store.setStack m base = store := Store.setStack_self there
    rw [delivers, Machine.settle, Store.stack_of_own there]
    simp only [base, Machine.deliver, Outcome.input] at same ⊢
    rw [same]
  obtain ⟨d, stepped⟩ : ∃ d, c.step = .ok d := by
    obtain ⟨w, _, _⟩ := c
    cases stack
    cases signal
    exact ⟨_, rfl⟩
  have after := step_machine stepped stack signal
  rw [turn] at after
  subst after
  refine ⟨_, m, c.world.store.freshTag.2, stepped, stepped?_machine stack signal, rfl, ?_⟩
  exact Store.stack_of_own there

theorem genuine_of_leaving (leaving : c.Leaving v) : Genuine trace c := by
  cases leaving <;> exact ⟨rfl, fun m i ran => by contradiction⟩

/-- One step of a value that is on its way, unless it is a generator that is run. -/
theorem Leaving.step (leaving : c.Leaving v) (standing : Standing trace c) :
    ∃ d, c.step = .ok d ∧ ((∃ h, v.generator? = some h ∧ c.Begins h) ∨
      c.world.Still d.world ∧ (d.Arrived v ∨ d.Leaving v ∧ d.weight < c.weight)) := by
  cases leaving with
  | @completes w rest g m content r ends =>
      obtain ⟨h, t, below, -, top⟩ := standing.aligned.held _ (.head _) m _ rfl
      have turn : Machine.step w.store m (.advancing content) r =
          Machine.settle (w.store.setStack m below) m (.ok v) := by
        rw [Machine.step_ended ends, Machine.finished, Machine.popThen, top]
      obtain ⟨d, stepped, still, going⟩ := settles_next standing rfl rfl ⟨[_], top.symm⟩ turn
      refine ⟨d, stepped, .inr ⟨still, going.imp id fun leaving => ?_⟩⟩
      obtain ⟨leaving, light⟩ := leaving
      simp only [top, List.length_cons] at light
      refine ⟨leaving, ?_⟩
      change d.weight < 4 * (w.store.owned []).length + 3 * w.dormant + (rest.length + 1) + 0
      omega
  | @calls w rest g m caller =>
      refine ⟨_, rfl, .inr ⟨.refl w, .inr ⟨.answers, ?_⟩⟩⟩
      change 4 * (w.store.owned []).length + 3 * w.dormant + (rest.length + 1) + 3 <
        4 * (w.store.owned []).length + 3 * w.dormant + (rest.length + 1) + 4
      omega
  | @answers w rest g m =>
      cases made : v.generator? with
      | none =>
          have turn : Machine.step w.store m .calling (.value v) = Machine.settle w.store m (.ok v) := by
            simp only [Machine.step, made]
          obtain ⟨d, stepped, still, going⟩ := settles_again standing rfl rfl turn
          refine ⟨d, stepped, .inr ⟨still, going.imp id fun leaving => ?_⟩⟩
          obtain ⟨leaving, light⟩ := leaving
          simp only [List.length_cons] at light
          refine ⟨leaving, ?_⟩
          change d.weight < 4 * (w.store.owned []).length + 3 * w.dormant + (rest.length + 1) + 3
          omega
      | some h =>
          have begins := begins standing rfl rfl made
          obtain ⟨d, -, -, stepped, -⟩ := id begins
          exact ⟨d, stepped, .inl ⟨h, rfl, begins⟩⟩
  | @enters w rest g h m n how status =>
      have woken := w.dormant_wake status
      have entered : advance w (.running g (.library (.machine m (.advancing (.gen h)))) :: rest) h
          (.send v) = reply (w.setStatus h .running) (.running h (.library (.machine n .resent)) ::
            .running g (.library (.machine m (.advancing (.gen h)))) :: rest) (.value v) := by
        simp only [advance, status]
      refine ⟨_, rfl, .inr ?_⟩
      simp only [entered]
      refine ⟨.setStatus (.refl w) h .running, .inr ⟨.relays, ?_⟩⟩
      change 4 * (w.store.owned []).length + 3 * (w.setStatus h .running).dormant +
          (rest.length + 1 + 1) + 3 <
        4 * (w.store.owned []).length + 3 * w.dormant + (rest.length + 1) + 2
      omega
  | @relays w rest g m =>
      obtain ⟨d, stepped, still, going⟩ := settles_again standing rfl rfl rfl
      refine ⟨d, stepped, .inr ⟨still, going.imp id fun leaving => ?_⟩⟩
      obtain ⟨leaving, light⟩ := leaving
      simp only [List.length_cons] at light
      refine ⟨leaving, ?_⟩
      change d.weight < 4 * (w.store.owned []).length + 3 * w.dormant + (rest.length + 1) + 3
      omega

end Config

/--
A value that comes to a frame without a return handler passes it and all such frames
below, and nothing else happens, until it has arrived elsewhere; a generator is run at
the first of them.
-/
theorem RunOf.returned_unchanged (run : RunOf Genuine trace c) (leaving : c.Leaving v) :
    ∃ d, c.Passes v d ∧
      (d.Arrived v ∨ d.Leaving v ∧ ∃ h, v.generator? = some h ∧ d.Begins h) := by
  induction weight : c.weight using Nat.strongRecOn generalizing trace c with
  | _ n ih =>
      have genuine : Genuine trace c := Config.genuine_of_leaving leaving
      obtain ⟨d, stepped, ⟨h, made, begins⟩ | ⟨still, arrived | ⟨further, light⟩⟩⟩ :=
        leaving.step (run.standing fun _ _ h => h)
      · exact ⟨c, .refl c, .inr ⟨leaving, h, made, begins⟩⟩
      · exact ⟨d, .step leaving stepped still (.refl d), .inl arrived⟩
      · obtain ⟨e, passes, ends⟩ := ih d.weight (weight ▸ light) (run.step genuine stepped) further rfl
        exact ⟨e, .step leaving stepped still passes, ends⟩

/-! ## Data, and a generator -/

namespace Script

/-- A computation in a handler for an effect that has no return handler. -/
def plainly (effect : String) (clause computation : Expr) : Expr :=
  uses (.service .handle)
    [uses (.op .handler) [.name effect, .literal .none, clause], computation]

/-- A program whose computation is resumed under two handlers, and returns a list. -/
def returningList : Function :=
  ⟨.plain, "main", [], ["ask", "tell", "body"], [
    .assign "ask" (uses (.op .effect) []),
    .assign "tell" (uses (.op .effect) []),
    .assign "body" (.function ⟨.generator, "body", [], [], [
      .expr (.yield (.call (.name "ask") [])),
      .result (uses (.op .list) [.literal (.int 7)])]⟩),
    .result (uses (.service .execute) [.function ⟨.plain, "outer", [], [], [
      .result (plainly "ask"
        (.function ⟨.generator, "clause", ["k"], [], [
          .result (.delegate (.call (.name "k") []))]⟩)
        (.function ⟨.plain, "inner", [], [], [
          .result (plainly "tell" (.name "ask") (.name "body"))]⟩))]⟩])]⟩

/-- A program whose computation returns a generator. -/
def returningGenerator : Function :=
  ⟨.plain, "main", [], ["ask", "work", "body"], [
    .assign "ask" (uses (.op .effect) []),
    .assign "work" (.function ⟨.generator, "work", [], [], [.result (.literal (.int 1))]⟩),
    .assign "body" (.function ⟨.generator, "body", [], [], [.result (.call (.name "work") [])]⟩),
    .result (uses (.service .execute) [.function ⟨.plain, "wrapped", [], [], [
      .result (plainly "ask" (.name "ask") (.name "body"))]⟩])]⟩

end Script

open Script

namespace Config

/-- What a machine gets from the generator on top of its stack, which has come to its end. -/
def completed? (c : Config G) : Option Val :=
  match c.stack, c.signal with
  | .running _ (.library (.machine _ (.advancing _))) :: _, .reply (.value v) => some v
  | _, _ => none

theorem leaving_of_completed? (h : c.completed? = some v) : c.Leaving v := by
  obtain ⟨w, stack, signal⟩ := c
  unfold completed? at h
  split at h
  · rename_i g m content rest u same replied
    cases h
    dsimp only at same replied
    subst same replied
    exact .completes rfl
  · contradiction

/-- What a machine is about to call the identity with, for a handler without a return handler. -/
def identified? (c : Config G) : Option Val :=
  match c.stack, c.signal with
  | .running _ (.library (.machine _ .calling)) :: _, .call (.native .identity) [v] _ => some v
  | _, _ => none

theorem of_identified? (h : c.identified? = some v) : c.Leaving v ∧ ∃ d g m rest,
    c.step = .ok d ∧ c.world.Still d.world ∧
      d.stack = .running g (.library (.machine m .calling)) :: rest ∧ d.signal = .reply (.value v) := by
  obtain ⟨w, stack, signal⟩ := c
  unfold identified? at h
  split at h
  · rename_i g m rest u caller same called
    cases h
    dsimp only at same called
    subst same called
    exact ⟨.calls caller, _, g, m, rest, rfl, .refl w, rfl, rfl⟩
  · contradiction

end Config

theorem exists_returning_list : ∃ (trace : Trace language) (c : Config language),
    RunOf Genuine trace c ∧ (c.completed?.any fun v => v.generator?.isNone) = true :=
  exists_run (fresh_begin returningList) 144 (by decide +kernel)

/-- What a resumed computation returns passes two handlers. -/
theorem RunOf.returned_unchanged_resumed : ∃ (trace : Trace language) (c d : Config language)
    (v : Val), RunOf Genuine trace c ∧ c.completed? = some v ∧ c.Passes v d ∧ d.Arrived v := by
  obtain ⟨trace, c, run, found⟩ := exists_returning_list
  simp only [Option.any_eq_true, Option.isNone_iff_eq_none] at found
  obtain ⟨v, completed, data⟩ := found
  have leaving := Config.leaving_of_completed? completed
  obtain ⟨d, passes, arrived | ⟨-, h, made, -⟩⟩ := RunOf.returned_unchanged run leaving
  · exact ⟨trace, c, d, v, run, completed, passes, arrived⟩
  · rw [data] at made
    contradiction

theorem exists_returning_generator : ∃ (trace : Trace language) (c : Config language),
    RunOf Genuine trace c ∧ (c.identified?.any fun v => v.generator?.isSome) = true :=
  exists_run (fresh_begin returningGenerator) 77 (by decide +kernel)

/-- It is not so that a frame without a return handler runs nothing. -/
theorem not_always_unchanged : ¬ ∀ (trace : Trace language) (c d : Config language) (v : Val),
    RunOf Genuine trace c → c.Leaving v → c.Passes v d → ∀ h, ¬ d.Begins h := by
  intro always
  obtain ⟨trace, c, run, found⟩ := exists_returning_generator
  simp only [Option.any_eq_true, Option.isSome_iff_exists] at found
  obtain ⟨v, identified, h, made⟩ := found
  obtain ⟨leaving, d, g, m, rest, stepped, still, stack, signal⟩ := Config.of_identified? identified
  have after := run.step (Config.genuine_of_leaving leaving) stepped
  have begins := Config.begins (after.standing fun _ _ h => h) stack signal made
  exact always trace c d v run leaving (.step leaving stepped still (.refl d)) h begins

end OneShot
