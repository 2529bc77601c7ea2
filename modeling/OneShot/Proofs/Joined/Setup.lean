import OneShot.Proofs.Joined.Resuming

/-!
# Setting up scopes

The call of a computation under wraps makes a machine for each handler that it
can see, from the inside out.  A state is run by a generator that makes its
machine when it is started; the combination of no wraps likewise converts its
computation then.  When the outermost generator is started, each starts the one
below it, until the code of the computation runs.
-/

namespace OneShot.Joined

open Config (Leads)

variable {c : Code} {A : List (Activation (guest c))} {mem mem' : Memo c} {E F I R : Facts (guest c)}
  {C : Config (guest c)} {D : Base c} {d g : Gen} {s : c.State} {ws : List Scope} {us : List Wrap}
  {o : Source c} {b : Bound} {L : Level c} {Ls : List (Level c)} {caller : Caller} {i : Nat} {v : Val}

/-! ## Functions of the guest -/

theorem enter_thunk (m : Memo c) {p : List Wrap × Source c} (there : m.thunks[i]? = some p)
    (args : List Val) : enter m (5 * i) args = enterThunk m p := by
  have kind : 5 * i % 5 = 0 := by omega
  have number : 5 * i / 5 = i := by omega
  simp only [enter, kind, number, there]

theorem enter_run (m : Memo c) (i : Nat) (v : Val) : enter m (5 * i + 4) [v] =
    (m, .run (.keeping (c.init i m.memory.data).1 (c.init i m.memory.data).2 v)) := by
  have kind : (5 * i + 4) % 5 = 4 := by omega
  have number : (5 * i + 4) / 5 = i := by omega
  simp only [enter, kind, number]

/-- What code can see of what the guest remembers. -/
structure Memo.Agrees (m m' : Memo c) : Prop where
  memory : m'.memory = m.memory
  handles : m'.handles = m.handles

theorem Memo.Agrees.refl (m : Memo c) : m.Agrees m := ⟨rfl, rfl⟩

theorem Memo.Agrees.trans {m m' m'' : Memo c} (first : m.Agrees m') (second : m'.Agrees m'') :
    m.Agrees m'' :=
  ⟨second.memory.trans first.memory, second.handles.trans first.handles⟩

theorem Memo.newThunk_there (m : Memo c) (us : List Wrap) (o : Source c) :
    (m.newThunk us o).1.thunks[m.thunks.length]? = some (us, o) := by
  simp [Memo.newThunk]

theorem Memo.agrees_computation (m : Memo c) (us : List Wrap) (o : Source c) :
    m.Agrees (m.computation us o).1 := by
  unfold Memo.computation
  split <;> exact ⟨rfl, rfl⟩

/-! ## What the call of a computation makes -/

/-- The scopes of wraps, outermost first. -/
abbrev scopes (us : List Wrap) : List Scope := us.flatMap Wrap.scopes

/-- What a function makes a generator of, and what that rests on. -/
inductive Origin : Source c → c.State → Facts (guest c) → Prop
  | code (s : c.State) : Origin (.code s) s 0
  | object {g : Gen} (s : c.State) (kind : g.kind = .generator) :
      Origin (.object g) s {.gen g.id (.fresh (codeRoutine s))}

/-- A value stands for a computation under scopes. -/
inductive Stands (mem : Memo c) : Val → List Scope → c.State → Facts (guest c) → Prop
  | thunk {i : Nat} {us : List Wrap} {o : Source c} {s : c.State} {I : Facts (guest c)}
      (there : mem.thunks[i]? = some (us, o)) (origin : Origin o s I)
      (wrapped : us = [] → o = .code s) : Stands mem (thunk i) (scopes us) s I
  | object {g : Gen} (s : c.State) (kind : g.kind = .generator) :
      Stands mem (.gen g) [] s {.gen g.id (.fresh (codeRoutine s))}
  | applied {f : Wrap} {v : Val} {ws : List Scope} {s : c.State} {I : Facts (guest c)} (id : Nat)
      (stands : Stands mem v ws s I) :
      Stands mem (.native (.applied id f.value v)) (f.scopes ++ ws) s I

theorem Origin.stands (origin : Origin o s I) (mem : Memo c) (us : List Wrap) :
    Stands (mem.computation us o).1 (mem.computation us o).2 (scopes us) s I := by
  cases origin with
  | code s => cases us <;> exact .thunk (mem.newThunk_there _ _) (.code s) fun _ => rfl
  | @object g s kind =>
      cases us with
      | nil => exact .object s kind
      | cons u us => exact .thunk (mem.newThunk_there _ _) (.object s kind) nofun

/-- A machine that has not been started, with a generator on top of pieces. -/
def machineFacts (g : Gen) (m : Nat) (d : Gen) (u : Tag) (below : List (Piece c)) :
    Facts (guest c) :=
  {.gen g.id (.fresh (.library (.machine m .start)))} +
    ({.machine m (genFrame d u :: vals below)} + facts below)

/-- The handler of a scope that makes a machine. -/
def Scope.bound? : Scope → Option Bound
  | .handle l => some (.layer l)
  | .await n blocking => some (.await n blocking)
  | .reset n => some (.prompt n)
  | .state _ | .nothing => none

/-- The generator for a computation under scopes, which has not been started. -/
inductive Built (mem : Memo c) : Gen → List Scope → c.State → Facts (guest c) → Prop
  | code {g : Gen} {s : c.State} (kind : g.kind = .generator) :
      Built mem g [] s {.gen g.id (.fresh (codeRoutine s))}
  | machine {w : Scope} {ws : List Scope} {s : c.State} {g d : Gen} {m : Nat} {t u : Tag}
      {b : Bound} {F : Facts (guest c)} (kind : g.kind = .generator) (bound : w.bound? = some b)
      (rest : Built mem d ws s F) :
      Built mem g (w :: ws) s (machineFacts g m d u [.bound b t] + F)
  | state {i : Nat} {v : Val} {ws : List Scope} {s : c.State} {g : Gen} {I : Facts (guest c)}
      (kind : g.kind = .generator) (stands : Stands mem v ws s I) :
      Built mem g (.state i :: ws) s ({.gen g.id (.fresh (.library (.state
        (.start (stateEffect (c.init i mem.memory.data).1).handler
          (c.init i mem.memory.data).2 v))))} + I)
  | nothing {v : Val} {ws : List Scope} {s : c.State} {g : Gen} {I : Facts (guest c)}
      (kind : g.kind = .generator) (stands : Stands mem v ws s I) :
      Built mem g (.nothing :: ws) s ({.gen g.id (.fresh (.library
        (.entering (.call (.native (.service .toGenerator)) [v]))))} + I)

theorem Built.kind (h : Built mem g ws s F) : g.kind = .generator := by
  cases h <;> assumption

/-- A generator for a computation under scopes was made. -/
def Making (A : List (Activation (guest c))) (ws : List Scope) (s : c.State) (mem : Memo c)
    (F : Facts (guest c)) (C : Config (guest c)) : Prop :=
  ∃ g mem' E, mem.Agrees mem' ∧ Built mem' g ws s E ∧ At A (.reply (.value (.gen g))) mem' (E + F) C

/-- A call makes a generator for a computation under scopes. -/
def Makes (f : Val) (args : List Val) (ws : List Scope) (s : c.State) (mem : Memo c)
    (I : Facts (guest c)) : Prop :=
  ∀ {A : List (Activation (guest c))} {caller : Caller} {F : Facts (guest c)} {C : Config (guest c)},
    At A (.call f args caller) mem (I + F) C → Leads 0 C (Making A ws s mem F)

/-- A value is converted to a generator for a computation under scopes. -/
abbrev Converts (v : Val) (ws : List Scope) (s : c.State) (mem : Memo c) (I : Facts (guest c)) :
    Prop :=
  Makes (.native (.service .toGenerator)) [v] ws s mem I

theorem Making.agrees (agrees : mem.Agrees mem') (h : Making A ws s mem' F C) :
    Making A ws s mem F C := by
  obtain ⟨g, mem'', E, agrees', built, here⟩ := h
  exact ⟨g, mem'', E, agrees.trans agrees', built, here⟩

/-! ### Conversion -/

/-- A function is turned into a generator by a call. -/
theorem At.converts (plain : v.generator? = none) (callable : v.isCallable = true)
    (h : At A (.call (.native (.service .toGenerator)) [v] caller) mem F C) :
    Leads 1 C (At (.calling (.library .converting) :: A) (.call v [] .conversion) mem F) := by
  have entered := At.starts (t := .enter (.calling v)) h (by simp) fun s => by
    have converted : Computation.convert s v = (s, .enter (.calling v)) := by
      simp only [Computation.convert, plain, callable, if_true]
    change (Computation.convert s v).1.engine = s.engine ∧ (Computation.convert s v).2 = _
    rw [converted]
    exact ⟨rfl, rfl⟩
  refine (entered.bind (n := 1) fun C' started => ?_).weaken (by omega)
  exact (At.library (t := .ask (.call v []) .converting) none started.enter
    fun s => ⟨rfl, rfl⟩).mono fun C'' turned => turned.call

theorem At.converted (kind : g.kind = .generator)
    (h : At (.calling (.library .converting) :: A) (.reply (.value (.gen g))) mem F C) :
    Leads 1 C (At A (.reply (.value (.gen g))) mem F) := by
  have found : (Val.gen g).generator? = some g := if_pos kind
  exact At.libraryReturns (a := .value (.gen g)) h fun s => by
    simp only [Process.step, found, Deep.Answer.turn, and_self]

theorem Makes.converts (plain : v.generator? = none) (callable : v.isCallable = true)
    (makes : Makes v [] ws s mem I) : Converts v ws s mem I := by
  intro A caller F C h
  refine (At.converts plain callable h).after fun C₁ called => ?_
  refine (makes called).followed fun C₂ made => ?_
  obtain ⟨g, mem', E, agrees, built, here⟩ := made
  exact ((At.converted built.kind here).mono fun C₃ here =>
    ⟨g, mem', E, agrees, built, here⟩).eventually

/-- A generator object is converted to itself. -/
theorem converts_object (mem : Memo c) (s : c.State) (kind : g.kind = .generator) :
    Converts (.gen g) [] s mem {.gen g.id (.fresh (codeRoutine s))} := by
  intro A caller F C h
  have found : (Val.gen g).generator? = some g := if_pos kind
  have done := At.starts (t := .done (.gen g)) h (by simp) fun s => by
    have converted : Computation.convert s (.gen g) = (s, .done (.gen g)) := by
      simp only [Computation.convert, found]
    change (Computation.convert s (.gen g)).1.engine = s.engine ∧
      (Computation.convert s (.gen g)).2 = _
    rw [converted]
    exact ⟨rfl, rfl⟩
  exact (done.mono fun C' invoked =>
    ⟨g, mem, _, .refl mem, .code kind, invoked.done⟩).eventually

/-! ### Machines -/

/-- The machine of a handler over a generator is made. -/
theorem At.applied {h : Handler} {t : Tag}
    (here : At (.calling (.library (.applied h t)) :: A) (.reply (.value (.gen d))) mem F C) :
    Leads 1 C fun D => ∃ m u, At (.calling (.library .passing) :: A)
      (.call (.native (.service .runMachine)) [.machine m] .program) mem
      ({.machine m [genFrame d u, .frame (.handler (.handler h) t)]} + F) D := by
  obtain ⟨w, rfl, rfl, bears⟩ := here
  have tagged := bears.store w.store.freshTag.1 rfl
  exact .step (Config.step_body w A none _ _) (.here ⟨_, w.store.freshTag.2, _, rfl, rfl,
    tagged.newMachine _ (.handler h)⟩)

theorem At.runsMachine {m : Nat}
    (h : At A (.call (.native (.service .runMachine)) [.machine m] caller) mem F C) :
    Leads 1 C fun D => ∃ g : Gen, g.kind = .generator ∧ At A (.reply (.value (.gen g))) mem
      ({.gen g.id (.fresh (.library (.machine m .start)))} + F) D := by
  have spawned := At.starts (t := .spawn .generator "Machine.run" (.machine m .start)) h (by simp)
    fun s => ⟨rfl, rfl⟩
  exact spawned.mono fun D started => started.spawn

/-- A machine was made for a handler over a computation under scopes. -/
def Handling (A : List (Activation (guest c))) (b : Bound) (ws : List Scope) (s : c.State)
    (mem : Memo c) (F : Facts (guest c)) (C : Config (guest c)) : Prop :=
  ∃ g m d t u mem' E, g.kind = .generator ∧ mem.Agrees mem' ∧ Built mem' d ws s E ∧
    At A (.reply (.value (.gen g))) mem' (machineFacts g m d u [.bound b t] + E + F) C

/-- A handler is applied to a computation. -/
theorem At.handles (converts : Converts v ws s mem I)
    (h : At A (.call (.handler b.handler) [v] caller) mem (I + F) C) :
    Leads 1 C (Handling A b ws s mem F) := by
  refine (At.invokes h (by simp) fun s => rfl).followed fun C₁ applying => ?_
  obtain ⟨s₁, applying⟩ := applying
  let t := s₁.freshTag.2
  have entered : At (.calling (.library (.applying b.handler t v)) :: A)
      (.reply (.value .none)) mem (I + F) C₁ := Invoked.enter applying
  have asked := (At.library (t := .ask (.call (.native (.service .toGenerator)) [v])
    (.applied b.handler t)) none entered fun s => ⟨rfl, rfl⟩).mono fun C' turned => turned.call
  refine asked.after fun C₂ called => ?_
  refine (converts called).followed fun C₄ made => ?_
  obtain ⟨d, mem', E, agrees, built, there⟩ := made
  refine (At.applied there).after fun C₆ there => ?_
  obtain ⟨m, u, there⟩ := there
  refine (At.runsMachine there).after fun C₇ there => ?_
  obtain ⟨g, kind, there⟩ := there
  refine (At.libraryReturns (a := .value (.gen g)) there fun s => ⟨rfl, rfl⟩).eventually
    |>.mono fun C₈ there => ?_
  refine ⟨g, m, d, t, u, mem', E, kind, agrees, built, there.of_eq ?_⟩
  simp only [machineFacts, facts, Piece.facts, vals, List.map_cons, List.map_nil, Piece.val,
    boundFrame]
  abel

theorem Handling.making {w : Scope} (bound : w.bound? = some b) (h : Handling A b ws s mem F C) :
    Making A (w :: ws) s mem F C := by
  obtain ⟨g, m, d, t, u, mem', E, kind, agrees, built, here⟩ := h
  exact ⟨g, mem', _, agrees, .machine kind bound built, here⟩

/-! ### Wraps -/

/-- A function that asks for a generator gives it. -/
theorem At.wrapped
    (h : At (.calling (.guest (Body.asked .pass)) :: A) (.reply (.value (.gen g))) mem F C) :
    Leads 1 C (At A (.reply (.value (.gen g))) mem F) :=
  (At.guest none h rfl).mono fun _ turned => Turning.returns (a := .value (.gen g)) turned

theorem Making.wrapped (h : Making (.calling (.guest (Body.asked .pass)) :: A) ws s mem F C) :
    Leads 0 C (Making A ws s mem F) := by
  obtain ⟨g, mem', E, agrees, built, here⟩ := h
  exact ((At.wrapped here).mono fun C' here => ⟨g, mem', E, agrees, built, here⟩).eventually

theorem Scope.makes (w : Scope) (stands : Stands mem v ws s I) (converts : Converts v ws s mem I) :
    Makes w.value [v] (w :: ws) s mem I := by
  intro A caller F C h
  -- The method of an object calls the function for it, which applies the handler.
  have method {f : Native} {code : Service} {object : Val} (b : Bound) (bound : w.bound? = some b)
      (h : At A (.call (.native f) [v] caller) mem (I + F) C)
      (called : ∀ st, (invoke st (.native f) [v] caller).1.engine = st.engine ∧
        (invoke st (.native f) [v] caller).2 = .call (.native (.service code)) [object, v] .program)
      (serves : ∀ st, (invoke st (.native (.service code)) [object, v] .program).1.engine = st.engine ∧
        (invoke st (.native (.service code)) [object, v] .program).2 =
          .call (.handler b.handler) [v] .program) : Leads 0 C (Making A (w :: ws) s mem F) := by
    refine (At.starts h (by simp) called).after fun C₁ started => ?_
    refine (At.starts started.call (by simp) serves).after fun C₂ started => ?_
    exact ((At.handles converts started.call).mono fun C₃ handling =>
      handling.making bound).eventually
  cases w with
  | handle l =>
      exact ((At.handles (b := .layer l) converts h).mono fun C' handling =>
        handling.making rfl).eventually
  | await n blocking =>
      cases blocking with
      | true => exact method (.await n true) rfl h (fun st => ⟨rfl, rfl⟩) fun st => ⟨rfl, rfl⟩
      | false => exact method (.await n false) rfl h (fun st => ⟨rfl, rfl⟩) fun st => ⟨rfl, rfl⟩
  | reset n => exact method (.prompt n) rfl h (fun st => ⟨rfl, rfl⟩) fun st => ⟨rfl, rfl⟩
  | state i =>
      refine (At.enters h (enter_run mem i v)).after fun C₁ entered => ?_
      refine (At.guest none entered rfl).after fun C₂ turned => ?_
      have spawned := At.starts (t := .spawn .generator "State.run" (.state (.start
        (stateEffect (c.init i mem.memory.data).1).handler (c.init i mem.memory.data).2 v)))
          (Turning.call turned) (by simp) fun s => ⟨rfl, rfl⟩
      refine spawned.after fun C₃ started => ?_
      obtain ⟨g, kind, here⟩ := started.spawn
      exact ((At.wrapped here).mono fun C₄ here => ⟨g, mem, _, .refl mem, .state kind stands,
        here.of_eq (by abel)⟩).eventually
  | nothing =>
      have spawned := At.starts (t := .spawn .generator "_identity_wrap"
        (.entering (.call (.native (.service .toGenerator)) [v]))) h nofun fun s => ⟨rfl, rfl⟩
      refine (spawned.mono fun C₃ started => ?_).eventually
      obtain ⟨g, kind, here⟩ := started.spawn
      exact ⟨g, mem, _, .refl mem, .nothing kind stands, here.of_eq (by abel)⟩

/-- What a combination makes of a computation for its first wrap. -/
theorem converts_applied {f : Wrap} (id : Nat) (makes : Makes f.value [v] ws s mem I) :
    Converts (.native (.applied id f.value v)) ws s mem I := by
  refine Makes.converts rfl rfl fun {A caller F C} h => ?_
  refine ((At.starts (t := .call f.value [v] .applied) h (by simp) fun s => ⟨rfl, rfl⟩).bind
    (n := 0) fun C' started => ?_).eventually
  exact makes started.call

theorem Wrap.makes (f : Wrap) {v : Val} {ws : List Scope} (stands : Stands mem v ws s I)
    (converts : Converts v ws s mem I) : Makes f.value [v] (f.scopes ++ ws) s mem I := by
  induction f generalizing v ws with
  | scope w => exact w.makes stands converts
  | combined id head inner first second =>
      intro A caller F C h
      have invoked := At.invokes h nofun fun st => rfl
      refine invoked.after fun C₁ started => ?_
      obtain ⟨st, started⟩ := started
      have called : Invoked A (.call head.value [.native (.applied st.nextId inner.value v)]
          .combined) mem (I + F) C₁ := started
      have rest := first (.applied st.nextId stands) (converts_applied st.nextId
        (second stands converts)) called.call
      rwa [← List.append_assoc] at rest

/-! ### Computations -/

/-- The function of a computation makes its generator. -/
theorem makes_code (there : mem.thunks[i]? = some ([], .code s)) :
    Makes (thunk i) [] [] s mem 0 := by
  intro A caller F C h
  refine ((At.spawns h ((enter_thunk mem there []).trans rfl)).mono ?_).eventually
  rintro C' ⟨g, kind, here⟩
  exact ⟨g, mem, _, .refl mem, .code kind, here.of_eq (by rw [zero_add]; rfl)⟩

/-- The call of a function that puts a computation under wraps, given what the first one makes. -/
theorem Origin.makes_thunk {u : Wrap} (origin : Origin o s I)
    (there : mem.thunks[i]? = some (u :: us, o))
    (makes : Makes u.value [(mem.computation us o).2] (scopes (u :: us)) s (mem.computation us o).1 I) :
    Makes (thunk i) [] (scopes (u :: us)) s mem I := by
  intro A caller F C h
  have entered : enter mem (5 * i) [] =
      ((mem.computation us o).1, .run (.wrapping u (mem.computation us o).2)) := by
    rw [enter_thunk mem there]
    cases origin <;> rfl
  refine (At.enters h entered).after fun C₁ entered => ?_
  refine (At.guest none entered rfl).after fun C₂ turned => ?_
  refine (makes (Turning.call turned)).followed fun C₃ made => ?_
  exact made.wrapped.mono fun C₄ made => made.agrees (mem.agrees_computation us o)

/-- A wrap is applied to what stands for a computation under more wraps. -/
theorem Origin.makes (origin : Origin o s I) (f : Wrap) (us : List Wrap) {mem : Memo c} :
    Makes f.value [(mem.computation us o).2] (scopes (f :: us)) s (mem.computation us o).1 I := by
  induction us generalizing f mem with
  | nil =>
      refine f.makes (origin.stands mem []) ?_
      cases origin with
      | code s => exact Makes.converts rfl rfl (makes_code (mem.newThunk_there [] (.code s)))
      | object s kind => exact converts_object _ s kind
  | cons u us ih =>
      refine f.makes (origin.stands mem (u :: us)) ?_
      have made : mem.computation (u :: us) o = mem.newThunk (u :: us) o := by
        cases o <;> rfl
      rw [made]
      change Converts (thunk mem.thunks.length) _ _ _ _
      exact Makes.converts rfl rfl (origin.makes_thunk (mem.newThunk_there (u :: us) o) (ih u))

theorem Stands.converts (stands : Stands mem v ws s I) : Converts v ws s mem I := by
  induction stands with
  | @thunk i us o s I there origin wrapped =>
      refine Makes.converts rfl rfl ?_
      cases us with
      | nil =>
          obtain rfl := wrapped rfl
          cases origin
          exact makes_code there
      | cons u us => exact origin.makes_thunk there (origin.makes u us)
  | object s kind => exact converts_object mem s kind
  | @applied f v ws s I id stands ih => exact converts_applied id (f.makes stands ih)

/-- The call of the function of a computation of the program. -/
theorem Comp.makes (p : Comp c.State) (there : mem.thunks[i]? = some (p.wraps, p.source)) :
    Makes (thunk i) [] p.scopes p.body mem 0 := by
  obtain ⟨us, made, s⟩ := p
  cases made with
  | false =>
      cases us with
      | nil => exact makes_code there
      | cons u us => exact (Origin.code s).makes_thunk there ((Origin.code s).makes u us)
  | true =>
      intro A caller F C h
      let mem₁ := (mem.newThunk [] (.code s)).1
      have agrees : mem.Agrees mem₁ := ⟨rfl, rfl⟩
      have entered : enter mem (5 * i) [] =
          (mem₁, .run (.making us (mem.newThunk [] (.code s)).2)) := by
        rw [enter_thunk mem there]
        cases us <;> rfl
      refine (At.enters h entered).after fun C₁ entered => ?_
      refine (At.guest none entered rfl).after fun C₂ turned => ?_
      refine (makes_code (mem.newThunk_there [] (.code s)) (Turning.call turned)).followed
        fun C₃ made => ?_
      obtain ⟨g, mem₂, E, agrees', built, here⟩ := made
      cases built with
      | code kind =>
          cases us with
          | nil =>
              have given := (At.guest (t := .done (.gen g)) none here rfl).mono fun _ turned =>
                Turning.returns (a := .value (.gen g)) turned
              exact (given.mono fun C₄ here =>
                ⟨g, mem₂, _, agrees.trans agrees', .code kind, here.of_eq (by abel)⟩).eventually
          | cons u us =>
              refine ((At.guest (t := .ask (.call u.value [(mem₂.computation us (.object g)).2])
                (Body.asked .pass)) none here rfl).followed fun C₄ turned => ?_).eventually
              refine ((Origin.object s kind).makes u us (Turning.call turned)).followed
                fun C₅ made => ?_
              exact made.wrapped.mono fun C₆ made =>
                made.agrees ((agrees.trans agrees').trans (mem₂.agrees_computation us _))

/-! ## Starting it -/

/-- A routine runs on top of levels that have certain marks. -/
def Running (D : Base c) (p : Routine (guest c)) (r : Reply) (ms : List (Mark c.State)) (mem : Memo c)
    (R : Facts (guest c)) (C : Config (guest c)) : Prop :=
  ∃ d L Ls, marks (L :: Ls) = ms ∧
    At (.running d p :: under D d (L :: Ls)) (.reply r) mem
      ({.gen d.id .running} + (levelFacts d (L :: Ls) + R)) C

/-- A machine is started. -/
theorem At.settles {m : Nat} {frames : List Val} (h : At A (.advance g (.send .none)) mem
      ({.gen g.id (.fresh (.library (.machine m .start)))} + ({.machine m frames} + R)) C) :
    Leads 1 C (Settling g m A (.ok .none) mem ({.machine m frames} + ({.gen g.id .running} + R))) := by
  refine (At.fresh h).after fun C' running => ?_
  obtain ⟨w, rfl, rfl, bears⟩ := running.of_eq (add_left_comm _ _ _)
  refine .step (Machine.step_activation w g m .start _ _) (.here ⟨w, ?_, rfl, bears⟩)
  obtain ⟨owner, there⟩ := bears.here
  simp only [Machine.step, Machine.start, there]

/-- The generator on top of the stack of a machine is started. -/
theorem Settling.starts {m : Nat} {u : Tag} {below : List (Piece c)}
    (h : Settling g m (under D g Ls) (.ok .none) mem ({.machine m (genFrame d u :: vals below)} +
      ({.gen g.id .running} + (facts below + (E + (levelFacts g Ls + R))))) C) :
    At (under D d (⟨[], u, g, m, below⟩ :: Ls)) (.advance d (.send .none)) mem
      (E + (levelFacts d (⟨[], u, g, m, below⟩ :: Ls) + R)) C := by
  have advanced := Settling.gen (a := .value .none) h
  rw [under_cons]
  refine At.of_eq advanced ?_
  simp only [levelFacts, Level.facts, hops, List.map_nil, bottom, runningHops]
  abel

/-- A machine is started, and starts the generator on top of its stack. -/
theorem At.startsMachine {m : Nat} {u : Tag} {below : List (Piece c)}
    (h : At (under D g Ls) (.advance g (.send .none)) mem
      (machineFacts g m d u below + (E + (levelFacts g Ls + R))) C) :
    Leads 1 C (At (under D d (⟨[], u, g, m, below⟩ :: Ls)) (.advance d (.send .none)) mem
      (E + (levelFacts d (⟨[], u, g, m, below⟩ :: Ls) + R))) := by
  have begun := At.settles (R := facts below + (E + (levelFacts g Ls + R))) (h.of_eq (by
    simp only [machineFacts]; abel))
  exact begun.mono fun C' settling => Settling.starts settling

/-- A generator that runs on top of a level delegates to a generator that is not started. -/
theorem At.delegates (role : Role c) (h : At (.relaying g role.routine d :: under D g (L :: Ls))
      (.advance d (.send .none)) mem (E + ({.gen g.id .running} + (levelFacts g (L :: Ls) + R))) C) :
    At (under D d (L.linked g role :: Ls)) (.advance d (.send .none)) mem
      (E + (levelFacts d (L.linked g role :: Ls) + R)) C := by
  rw [under_cons] at h ⊢
  refine h.of_eq ?_
  simp only [levelFacts, Level.facts, Level.linked, hops, List.map_cons, runningHops, bottom,
    Link.hop]
  abel

/-- What a computation was called for is started. -/
theorem Built.starts (built : Built mem g ws s E) (h : At (under D g (L :: Ls))
      (.advance g (.send .none)) mem (E + (levelFacts g (L :: Ls) + R)) C) :
    Leads 1 C fun C' => ∃ mem', mem.Agrees mem' ∧ Running D (codeRoutine s) (.value .none)
      (stackMarks (parts mem.memory.data ws) ++ marks (L :: Ls)) mem' R C' := by
  induction ws generalizing g mem E L Ls C with
  | nil =>
      cases built with
      | code kind => exact (At.fresh h).mono fun C' here => ⟨mem, .refl mem, g, L, Ls, rfl, here⟩
  | cons w ws ih =>
      cases built with
      | @machine _ _ _ _ d m t u b F kind bound rest =>
          have started := At.startsMachine (E := F) (R := R) (h.of_eq (by abel))
          refine (started.followed fun C' there => (ih rest there).eventually).mono ?_
          rintro C' ⟨mem', agrees, running⟩
          refine ⟨mem', agrees, ?_⟩
          have same : stackMarks (w.parts mem.memory.data : List (Part c.State)) = [.bound b] := by
            cases w <;> cases bound <;> rfl
          simpa [parts, same, Piece.marks] using running
      | @state i v _ _ _ I kind stands =>
          have begun := At.fresh (h.of_eq (add_assoc _ _ _))
          refine begun.followed fun C₁ running => ?_
          have asked := At.library (t := .ask (.call (.handler (Bound.state
            (c.init i mem.memory.data).1).handler) [v]) (.state (.entering
              (c.init i mem.memory.data).2))) (some g) running fun s => ⟨rfl, rfl⟩
          refine asked.after fun C₂ turned => ?_
          have handled := At.handles (b := .state (c.init i mem.memory.data).1) stands.converts
            (Turning.call (turned.of_eq (add_left_comm _ _ _)))
          refine handled.after fun C₃ handling => ?_
          obtain ⟨gm, m, d, t, u, mem', E', kind', agrees, rest, here⟩ := handling
          have given := At.library (t := .ask (.delegate (.gen gm)) (.state (.stepping
            (c.init i mem.memory.data).2))) (some g) here fun s => ⟨rfl, rfl⟩
          refine given.after fun C₄ turned => ?_
          have delegated := At.delegates (.loop (c.init i mem.memory.data).2) (L := L) (R := R)
            (E := machineFacts gm m d u [.bound (.state (c.init i mem.memory.data).1) t] + E')
            ((turned.delegate kind').of_eq (by abel))
          have started := At.startsMachine (E := E') (R := R) (delegated.of_eq (by abel))
          refine (started.followed fun C₅ there => (ih rest there).eventually).eventually |>.mono ?_
          rintro C' ⟨mem'', agrees', running⟩
          refine ⟨mem'', agrees.trans agrees', ?_⟩
          have same : stackMarks ((Scope.state i).parts mem.memory.data : List (Part c.State)) =
            [.bound (.state (c.init i mem.memory.data).1), .loop (c.init i mem.memory.data).2] := rfl
          simpa [parts, same, Piece.marks, Level.linked, Role.marks, agrees.memory] using running
      | @nothing v _ _ _ I kind stands =>
          have begun := At.fresh (h.of_eq (add_assoc _ _ _))
          refine begun.followed fun C₁ running => ?_
          have asked := At.library (t := .ask (.call (.native (.service .toGenerator)) [v]) .entered)
            (some g) running fun s => ⟨rfl, rfl⟩
          refine asked.after fun C₂ turned => ?_
          have made := stands.converts (Turning.call (turned.of_eq (add_left_comm _ _ _)))
          refine made.followed fun C₃ made => ?_
          obtain ⟨d, mem', E', agrees, rest, here⟩ := made
          have given := At.library (t := .ask (.delegate (.gen d)) .passing) (some g) here
            fun s => ⟨rfl, rfl⟩
          refine given.after fun C₄ turned => ?_
          have delegated := At.delegates .pass (L := L) (R := R) (E := E')
            ((turned.delegate rest.kind).of_eq (by abel))
          refine ((ih rest delegated).eventually).mono ?_
          rintro C' ⟨mem'', agrees', running⟩
          refine ⟨mem'', agrees.trans agrees', ?_⟩
          have same : stackMarks (Scope.nothing.parts mem.memory.data : List (Part c.State)) = [] := rfl
          simpa [parts, same, Level.linked, Role.marks, agrees.memory] using running

end OneShot.Joined
