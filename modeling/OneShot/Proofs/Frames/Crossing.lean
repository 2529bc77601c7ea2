import OneShot.Proofs.Frames.Falling
import OneShot.Proofs.Frames.Refusing

/-!
# Crossing machines

What a generator yields comes down the joined stack to the first that answers it.  An
escape crosses machines as it is.  An invocation that no handler frame of a machine owns is
resent, and so are its resends: the effect, the arguments and the context stay what they
were.  So a driver hears of nothing else.
-/

namespace OneShot

variable {G : Guest} {trace : Trace G} {c d : Config G} {w : World G}

/-- What passes on what is yielded to it: a machine that advances, and a delegation. -/
inductive Activation.Hands : Activation G → Prop
  | advancing (g : Gen) (m : Nat) (content : Val) :
      Hands (.running g (.library (.machine m (.advancing content))))
  | relaying (g : Gen) (p : Routine G) (e : Gen) : Hands (.relaying g p e)

/-- In the next step a body that is no machine suspends with `v`, above what is below. -/
inductive Config.Issues (c : Config G) (v : Val) (below : List (Activation G)) : Prop
  | intro {i : Gen} {p q : Routine G} {r : Reply} {how : Suspension}
      (stack : c.stack = .running i p :: below) (signal : c.signal = .reply r)
      (turn : (p.step c.world r).2 = .ask (.yield v how) q) (plain : p.machine? = none) :
      Issues c v below

/--
What comes out of some machines, on the way down, for what was yielded.  An escape crosses
them as it is; an invocation is resent if no handler frame on their stacks owns the effect.
-/
inductive Crosses (s : Store) (ms : List Nat) : Val → Val → Prop
  | escape (id : Nat) (action : Val) : Crosses s ms (.escape id action) (.escape id action)
  | invocation {j : Nat} {i : Invocation} (id : Nat) (k : Cont)
      (unowned : ∀ m ∈ ms, Unowned i.effect (s.stack m)) :
      Crosses s ms (.invocation j i) (.resend id ⟨i.effect, i.args, .cont k, i.context⟩)

/-- What was yielded has crossed some machines, or none yet. -/
inductive Carried (s : Store) (ms : List Nat) (v₀ v : Val) : Prop
  | itself (none : ms = []) (same : v = v₀)
  | crossed (crosses : Crosses s ms v₀ v)

/-! ## Looking back -/

namespace Machine

variable {s t : Store} {m : Nat} {p p' : Phase} {r : Reply}

/-- A machine that yields something passes on what was yielded to it. -/
theorem Does.sends {v : Val} {how : Suspension}
    (does : Does s m p r t (.ask (.yield v how) p')) : ∃ content op, p = .advancing content ∧ r = .yielded op ∧
      ((∃ id action, op = .escape id action ∧ v = op) ∨
        ∃ i id k, op.invoked? = some i ∧ Unowned i.effect (s.stack m) ∧
          v = .resend id ⟨i.effect, i.args, .cont k, i.context⟩) := by
  generalize made : Turn.ask (.yield v how) p' = turn at does
  cases does with
  | settles delivers delivered after => exact absurd made.symm (delivered.ask_ne_yield _ _ _)
  | halts left after ending unasked begun =>
      subst made
      contradiction
  | escapes content id action =>
      cases made
      exact ⟨content, _, rfl, rfl, .inl ⟨id, action, rfl, rfl⟩⟩
  | @closes _ _ w rest x contents => cases w <;> cases made
  | @discards content op w rest stack unasked => cases content <;> cases made
  | @captures content op i above below brought inner u t turn invoked whole brings after directs =>
      cases directs with
      | owner effect clause captured unowned => cases made
      | outward id empty unowned =>
          cases made
          subst empty
          have same : above = s.stack m := by simp [whole]
          exact ⟨content, op, rfl, rfl, .inr ⟨i, id, _, invoked, same ▸ unowned, rfl⟩⟩

end Machine

/-- What crosses one more machine. -/
theorem Carried.cross {s : Store} {ms : List Nat} {m : Nat} {v₀ op v : Val}
    (carried : Carried s ms v₀ op) (unresent : ∀ id q, v₀ ≠ .resend id q)
    (sends : (∃ id action, op = .escape id action ∧ v = op) ∨
      ∃ i id k, op.invoked? = some i ∧ Unowned i.effect (s.stack m) ∧
        v = .resend id ⟨i.effect, i.args, .cont k, i.context⟩) :
    Crosses s (ms ++ [m]) v₀ v := by
  rcases sends with ⟨id, action, rfl, rfl⟩ | ⟨i, id, k, invoked, unowned, rfl⟩
  · rcases carried with ⟨-, rfl⟩ | ⟨⟨⟩⟩
    · exact .escape id action
    · exact .escape id action
  · rcases carried with ⟨rfl, rfl⟩ | crosses
    · cases op with
      | invocation j i' =>
          cases invoked
          exact .invocation id k (by simpa using unowned)
      | resend id' q => exact absurd rfl (unresent id' q)
      | _ => contradiction
    · cases crosses with
      | escape id action => contradiction
      | invocation id' k' before =>
          cases invoked
          refine .invocation id k fun n mem => ?_
          rcases List.mem_append.1 mem with mem | mem
          · exact before n mem
          · cases List.mem_singleton.1 mem
            exact unowned

namespace Config

variable {g e : Gen} {p q : Routine G} {rest : List (Activation G)} {v : Val}

theorem step_suspending {r : Reply} {how : Suspension} (stack : c.stack = .running g p :: rest)
    (signal : c.signal = .reply r) (turn : (p.step c.world r).2 = .ask (.yield v how) q) :
    c.step = .ok ⟨(p.step c.world r).1.setStatus g (.suspended q how), rest, .reply (.yielded v)⟩ := by
  obtain ⟨w, _, _⟩ := c
  subst stack signal
  simp only [step, deliver, turn, turnOf, reply]

theorem step_handing (stack : c.stack = .relaying g p e :: rest)
    (signal : c.signal = .reply (.yielded v)) :
    c.step = .ok ⟨c.world.setStatus g (.delegating p e), rest, .reply (.yielded v)⟩ := by
  obtain ⟨w, _, _⟩ := c
  subst stack signal
  rfl

end Config

/-- What is below the top keeps its stack in a step. -/
theorem Standing.stack_below (standing : Standing trace c) (genuine : Genuine trace c)
    (stepped : c.step = .ok d) {m : Nat} (mem : m ∈ machines c.stack.tail) :
    d.world.store.stack m = c.world.store.stack m := by
  obtain ⟨b, below, machine⟩ := List.mem_filterMap.1 mem
  obtain ⟨⟨n, p⟩, here, rfl⟩ := Option.map_eq_some_iff.1 machine
  obtain ⟨g, -, ran, -⟩ := standing.seated.machine (List.mem_of_mem_tail below) here
  exact standing.sound.stack_eq standing.seated genuine (Config.moves_step stepped) ran
    (standing.seated.waiting standing.active below here)

/-- What has just been yielded was issued by a body that is no machine, further up. -/
theorem RunOf.issued (run : RunOf (fun trace c => Genuine trace c ∧ c.forwards = false) trace c)
    {g : Gen} {v : Val} (yields : Yields trace g v) : ∃ e ∈ trace, ∃ v₀ acts,
      e.Issues v₀ (acts ++ c.stack) ∧ (∀ a ∈ acts, a.Hands) ∧
      Carried e.world.store (machines acts) v₀ v ∧
      ∀ m ∈ machines c.stack, c.world.store.stack m = e.world.store.stack m := by
  have unforwarded := run.faithful.2
  induction run generalizing g v with
  | start fresh => cases yields
  | @step trace c d before obeys stepped ih =>
      have standing := before.standing fun _ _ h => h.1
      have ih {g : Gen} {v : Val} (yields : Yields trace g v) :=
        ih yields fun e mem => unforwarded e (.tail _ mem)
      have kept (m : Nat) (mem : m ∈ machines c.stack.tail) :
          d.world.store.stack m = c.world.store.stack m :=
        standing.stack_below obeys.1 stepped mem
      have unresent (e : Config G) (mem : e ∈ trace) {v₀ : Val} {below : List (Activation G)}
          (issues : e.Issues v₀ below) (id : Nat) (q : Resend) : v₀ ≠ .resend id q := by
        rintro rfl
        obtain ⟨stack, signal, turn, plain⟩ := issues
        have quiet := unforwarded e (.tail _ mem)
        simp [Config.forwards, Config.yields?, stack, signal, turn, plain] at quiet
      cases yields with
      | @itself _ _ _ p p' r rest _ how stack signal turn =>
          cases (Config.step_suspending stack signal turn).symm.trans stepped
          have tail : c.stack.tail = rest := by simp [stack]
          by_cases plain : p.machine? = none
          · exact ⟨c, .head _, v, [], ⟨stack, signal, turn, plain⟩, by simp, .itself rfl rfl, tail ▸ kept⟩
          · obtain ⟨⟨m, phase⟩, machine⟩ := Option.ne_none_iff_exists'.1 plain
            have top : Activation.running g p ∈ c.stack := by simp [stack]
            obtain ⟨g', same, ran, -⟩ := standing.seated.machine top machine
            cases same
            obtain ⟨turn', made, -⟩ := Turn.map_eq_ask turn
            obtain ⟨phase', made, -⟩ := Turn.map_eq_ask made
            have does := (standing.sound.turning standing.seated) m phase r g rest stack signal
            rw [made] at does
            obtain ⟨content, op, rfl, rfl, sends⟩ := does.sends
            have received := Config.received?_machine stack signal
            obtain ⟨_, _, j, _, _, _, stack', -, -, inner⟩ := standing.received received
            cases stack.symm.trans stack'
            obtain ⟨e, mem, v₀, acts, issues, hands, carried, same⟩ := ih inner
            refine ⟨e, .tail _ mem, v₀, acts ++ [.running g (.library (.machine m (.advancing (.gen j))))],
              ?_, ?_, ?_, ?_⟩
            · rw [stack] at issues
              simpa using issues
            · simpa [or_imp, forall_and] using ⟨hands, .advancing g m (.gen j)⟩
            · have here := same m (by simp [stack])
              rw [machines_append]
              exact .crossed (carried.cross (unresent e mem issues) (by rw [← here]; exact sends))
            · intro n mem
              have below : n ∈ machines c.stack := by simp [stack, mem]
              exact (kept n (tail ▸ mem)).trans (same n below)
      | @relayed _ _ _ i p rest _ inner stack signal =>
          obtain ⟨e, mem, v₀, acts, issues, hands, carried, same⟩ := ih inner
          cases (Config.step_handing stack signal).symm.trans stepped
          have tail : c.stack.tail = rest := by simp [stack]
          refine ⟨e, .tail _ mem, v₀, acts ++ [.relaying g p i], ?_, ?_, ?_, fun n mem => ?_⟩
          · rw [stack] at issues
            simpa using issues
          · simpa [or_imp, forall_and] using ⟨hands, .relaying g p i⟩
          · simpa [machines_append] using carried
          · have below : n ∈ machines c.stack := by simpa [stack] using mem
            exact (kept n (tail ▸ mem)).trans (same n below)

/-! ## Looking ahead -/

/-- What asks for an invocation: that itself, or a resend whose continuation is not taken. -/
inductive Outgoing (s : Store) (i : Invocation) : Val → Prop
  | invocation (j : Nat) : Outgoing s i (.invocation j i)
  | resend (id : Nat) {k : Cont} (pending : s.isTaken k = false) :
      Outgoing s i (.resend id ⟨i.effect, i.args, .cont k, i.context⟩)

namespace Machine

variable {s : Store} {m : Nat}

/-- A machine without an owner for an effect resends the invocation. -/
theorem dispatch_unowned {e : Effect} (proper : ∀ v ∈ s.stack m, v.Proper)
    (unowned : Unowned (.effect e) (s.stack m)) (args : Arguments) (context : Val)
    (inner : Option Cont) : ∃ id k, (dispatch s m (.effect e) args context inner).2 =
      .ask (.yield (.resend id ⟨.effect e, args, .cont k, context⟩) .inner) .resent := by
  have uncut : cut e (s.stack m) = none :=
    cut_eq_none_iff.2 fun h t mem => unowned h t mem e rfl
  unfold dispatch
  rw [searchFault?_eq_none proper]
  dsimp only
  rw [uncut]
  exact ⟨_, _, rfl⟩

/-- So it does with what asks for one, and nothing but its own stack changes. -/
theorem step_unowned {i : Invocation} {v : Val} (outgoing : Outgoing s i v) {e : Effect}
    (effect : i.effect = .effect e) (own : s.Own) (inside : m < s.machines.size)
    (proper : ∀ v ∈ s.stack m, v.Proper) (unowned : Unowned i.effect (s.stack m))
    (content : Val) : ∃ t id k left, ∃ slice : Option (List Val),
      step s m (.advancing content) (.yielded v) =
        (t, .ask (.yield (.resend id ⟨i.effect, i.args, .cont k, i.context⟩) .inner) .resent) ∧
      t.isTaken k = false ∧ Store.Sets s t m left slice := by
  obtain ⟨owner, here⟩ := own.machine inside
  have does := does_step (s := s) (m := m) here proper (p := .advancing content)
    (r := .yielded v) (by simp) (by cases outgoing <;> simp [received?, Val.resumed?])
  obtain ⟨id, k, turn⟩ : ∃ id k, (step s m (.advancing content) (.yielded v)).2 =
      .ask (.yield (.resend id ⟨i.effect, i.args, .cont k, i.context⟩) .inner) .resent := by
    obtain ⟨_, args, context⟩ := i
    subst effect
    cases outgoing with
    | invocation j => exact dispatch_unowned proper unowned args context none
    | @resend j k pending =>
        have same : (s.take k).1.stack m = s.stack m :=
          own.stack_eq (Store.machines_take s k) m
        have taken : s.take k = ((s.take k).1, true) := by simp [Prod.ext_iff, pending]
        simp only [step, receive]
        rw [taken]
        exact dispatch_unowned (same ▸ proper) (same ▸ unowned) args context (some k)
  rw [turn] at does
  obtain ⟨_, _, _, _, _, _, -, -, -, -, -, same, -, pending⟩ := does.resends own inside
  obtain ⟨left, slice, sets⟩ := does.sets own inside
  obtain ⟨-, -, here, -⟩ := Resend.mk.inj same
  cases here
  exact ⟨_, id, _, left, slice, Prod.ext rfl turn, pending, sets⟩

end Machine

namespace Config

variable {g e : Gen} {p : Routine G} {m : Nat} {content v : Val} {S : List (Activation G)}

/-- What a machine yields comes to what is below. -/
theorem glides_yielding {t : Store} {op : Val} {how : Suspension} {phase : Machine.Phase}
    (turn : Machine.step w.store m (.advancing content) (.yielded v) =
      (t, .ask (.yield op how) phase)) (S : List (Activation G)) (g : Gen) :
    ∃ u, Glides ⟨w, .running g (.library (.machine m (.advancing content))) :: S,
      .reply (.yielded v)⟩ ⟨u, S, .reply (.yielded op)⟩ ∧ u.store = t := by
  have made : (Routine.library (.machine m (.advancing content)) : Routine G).step w (.yielded v) =
      ({ w with store := t }, .ask (.yield op how) (.library (.machine m phase))) := by
    have process : (Process.machine m (.advancing content)).step w.store (.yielded v) =
        (t, .ask (.yield op how) (.machine m phase)) := by
      change ((Machine.step w.store m (.advancing content) (.yielded v)).1,
        (Machine.step w.store m (.advancing content) (.yielded v)).2.map _) = _
      rw [turn]
      rfl
    rw [Routine.step_library, process]
    rfl
  refine ⟨_, .one (silent_library ..) (step_suspending rfl rfl (congrArg Prod.snd made)), ?_⟩
  rw [made]
  rfl

end Config

/-- An escape comes down the joined stack as it is. -/
theorem Config.glides_escape {acts : List (Activation G)} (hands : ∀ a ∈ acts, a.Hands)
    (w : World G) (base : List (Activation G)) (id : Nat) (action : Val) :
    ∃ u, Glides ⟨w, acts ++ base, .reply (.yielded (.escape id action))⟩
      ⟨u, base, .reply (.yielded (.escape id action))⟩ := by
  induction acts generalizing w with
  | nil => exact ⟨w, .refl _⟩
  | cons a acts ih =>
      rw [List.forall_mem_cons] at hands
      obtain ⟨first, hands⟩ := hands
      cases first with
      | advancing g m content =>
          have turn : Machine.step w.store m (.advancing content) (.yielded (.escape id action)) =
              (w.store, .ask (.yield (.escape id action) .direct) .escaped) := rfl
          obtain ⟨u, glides, -⟩ := Config.glides_yielding turn (acts ++ base) g
          obtain ⟨u', further⟩ := ih hands u
          exact ⟨u', glides.trans further⟩
      | relaying g p e =>
          obtain ⟨u, further⟩ := ih hands (w.setStatus g (.delegating p e))
          exact ⟨u, .step (silent_relaying ..) rfl further⟩

/-- An invocation that nobody on the way owns comes down the joined stack, resent. -/
theorem Config.glides_outgoing {acts : List (Activation G)} (hands : ∀ a ∈ acts, a.Hands)
    {i : Invocation} {e : Effect} (effect : i.effect = .effect e) {v : Val}
    (outgoing : Outgoing w.store i v) (rows : Rows w.store (machines acts))
    (unowned : ∀ m ∈ machines acts, Unowned i.effect (w.store.stack m))
    (base : List (Activation G)) :
    ∃ u op, Glides ⟨w, acts ++ base, .reply (.yielded v)⟩ ⟨u, base, .reply (.yielded op)⟩ ∧
      Outgoing u.store i op ∧ ((∃ id q, op = .resend id q) ∨ op = v ∧ machines acts = []) := by
  induction acts generalizing w v with
  | nil => exact ⟨w, v, .refl _, outgoing, .inr ⟨rfl, rfl⟩⟩
  | cons a acts ih =>
      rw [List.forall_mem_cons] at hands
      obtain ⟨first, hands⟩ := hands
      cases first with
      | advancing g m content =>
          rw [machines_machine] at rows unowned
          obtain ⟨t, id, k, left, slice, turn, pending, sets⟩ :=
            Machine.step_unowned outgoing effect rows.own (rows.inside m (.head _))
              (rows.proper m (.head _)) (unowned m (.head _)) content
          obtain ⟨u, glides, rfl⟩ := Config.glides_yielding turn (acts ++ base) g
          obtain ⟨rows, same⟩ := rows.tail sets.own sets.size sets.others
          obtain ⟨u', op, further, outgoing', resent⟩ := ih hands (.resend id pending) rows
            fun n mem => same n mem ▸ unowned n (.tail _ mem)
          refine ⟨u', op, glides.trans further, outgoing', .inl ?_⟩
          rcases resent with resent | ⟨rfl, -⟩
          · exact resent
          · exact ⟨_, _, rfl⟩
      | relaying g p e' =>
          rw [machines_relaying] at rows unowned ⊢
          obtain ⟨u, op, further, outgoing', resent⟩ :=
            ih (w := w.setStatus g (.delegating p e')) hands outgoing rows unowned
          exact ⟨u, op, .step (silent_relaying ..) rfl further, outgoing', resent⟩

end OneShot
