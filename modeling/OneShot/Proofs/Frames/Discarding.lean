import OneShot.Proofs.Frames.Crossing

/-!
# What nobody understands

What is yielded to a machine and is nothing that a machine understands is no concern of
what is below: the generator that has yielded it is taken off and closed, and the error that
holds just that object is raised in the next generator down the joined stack.
-/

namespace OneShot

variable {G : Guest} {trace : Trace G} {c d : Config G} {w : World G} {x : Exc}

/-- What a machine cannot do anything with. -/
def Val.foreign : Val → Bool
  | .invocation .. | .resend .. | .resumption .. | .escape .. => false
  | _ => true

/-- The generators that some frames hold, topmost first. -/
def generators (frames : List Val) : List Gen :=
  frames.filterMap fun
    | .frame (.generator (.gen g) _) => some g
    | _ => none

/-- The generators that wait below what has yielded, going down joined stacks. -/
def belows (s : Store) : List (Activation G) → List Gen
  | [] => []
  | .relaying g _ _ :: acts => g :: belows s acts
  | .running _ (.library (.machine m _)) :: acts => generators (s.stack m).tail ++ belows s acts
  | _ :: acts => belows s acts

theorem belows_congr {s t : Store} {acts : List (Activation G)} (hands : ∀ a ∈ acts, a.Hands)
    (same : ∀ m ∈ machines acts, t.stack m = s.stack m) : belows t acts = belows s acts := by
  induction acts with
  | nil => rfl
  | cons a acts ih =>
      rw [List.forall_mem_cons] at hands
      obtain ⟨first, hands⟩ := hands
      cases first with
      | relaying g p e => exact congrArg (g :: ·) (ih hands (by simpa using same))
      | advancing g m content =>
          simp only [machines_machine, List.forall_mem_cons] at same
          simp only [belows, same.1, ih hands same.2]

/-- Without any code of the program in between, an exception is raised in the first of some generators. -/
inductive Config.Raises (c : Config G) (x : Exc) (base : List (Activation G)) : List Gen → Prop
  | into {g : Gen} {gs : List Gen} {u : World G} {stack : List (Activation G)}
      (glides : c.Glides ⟨u, stack, .advance g (.throw (.exc x))⟩) : Raises c x base (g :: gs)
  | within {g : Gen} {gs : List Gen} {u : World G} {p : Routine G} {stack : List (Activation G)}
      (glides : c.Glides ⟨u, .running g p :: stack, .reply (.raised x)⟩) : Raises c x base (g :: gs)
  | out {u : World G} (glides : c.Glides ⟨u, base, .reply (.raised x)⟩) : Raises c x base []

theorem Config.Raises.after {base : List (Activation G)} {gs : List Gen} (first : c.Glides d)
    (raises : d.Raises x base gs) : c.Raises x base gs := by
  cases raises with
  | into glides => exact .into (first.trans glides)
  | within glides => exact .within (first.trans glides)
  | out glides => exact .out (first.trans glides)

/-- A failure goes into the first generator on a stack, if there is one. -/
theorem Machine.Delivered.failed {v : Val} {base left : List Val} {turn : Turn Phase}
    (h : Delivered (.failed v) base left turn) :
    (generators base = [] ∧ turn = (Outcome.failed v).finish) ∨ ∃ g gs,
      generators base = g :: gs ∧ turn = .ask (.advance g (.throw v)) (.advancing (.gen g)) := by
  generalize failed : Outcome.failed v = o at h
  induction h with
  | finish o => exact .inl ⟨rfl, rfl⟩
  | returns h t v rest => contradiction
  | passes h t below ih => exact ih failed
  | advances o g t rest =>
      subst failed
      exact .inr ⟨g, _, rfl, rfl⟩

namespace Config

variable {acts base S : List (Activation G)} {g : Gen} {m : Nat}

/-- A machine fails into the first generator on its stack, or else by itself. -/
theorem failing_cases (proper : ∀ v ∈ w.store.stack m, v.Proper) (going : x.kind ≠ .stopIteration)
    (S : List (Activation G)) (g : Gen) : ∃ left,
    (generators (w.store.stack m) = [] ∧ failing w S g m x =
        ⟨World.setStatus { w with store := w.store.setStack m left } g .finished, S,
          .reply (.raised x)⟩) ∨
      ∃ h hs, generators (w.store.stack m) = h :: hs ∧ failing w S g m x =
        ⟨{ w with store := w.store.setStack m left },
          .running g (.library (.machine m (.advancing (.gen h)))) :: S,
          .advance h (.throw (.exc x))⟩ := by
  obtain ⟨left, turn, delivers, delivered⟩ := Machine.deliver_proper proper (.failed (.exc x))
  refine ⟨left, ?_⟩
  have settled : failing w S g m x = turnOf { w with store := w.store.setStack m left } S g
      ((turn.map (.machine m)).map .library) := by
    simp [failing, Machine.settle, delivers]
  rw [settled]
  rcases delivered.failed with ⟨empty, rfl⟩ | ⟨h, hs, some_generator, rfl⟩
  · refine .inl ⟨empty, ?_⟩
    simp [Outcome.finish, Turn.raiseValue, Turn.map, turnOf, leave, going, reply]
  · exact .inr ⟨h, hs, some_generator, rfl⟩

/-- A machine fails into what is on its stack, or into what is further down. -/
theorem raises_failing {gs : List Gen} (own : w.store.Own) (inside : m < w.store.machines.size)
    (proper : ∀ v ∈ w.store.stack m, v.Proper) (going : x.kind ≠ .stopIteration)
    (further : ∀ u : World G, u.store.Own → u.store.machines.size = w.store.machines.size →
      (∀ n, n ≠ m → u.store.stack n = w.store.stack n) →
      Raises ⟨u, S, .reply (.raised x)⟩ x base gs) :
    (failing w S g m x).Raises x base (generators (w.store.stack m) ++ gs) := by
  obtain ⟨left, ⟨empty, fails⟩ | ⟨h, hs, some_generator, fails⟩⟩ := failing_cases proper going S g
  · have sets := Store.Sets.setStack own inside left
    rw [fails, empty]
    exact further _ sets.own sets.size sets.others
  · rw [fails, some_generator]
    exact .into (.refl _)

/-- An exception that comes out of something is raised in the next generator below. -/
theorem raises_below (hands : ∀ a ∈ acts, a.Hands) (exception : x.isException = true)
    (going : x.kind ≠ .stopIteration) (rows : Rows w.store (machines acts))
    (some_frame : ∀ m ∈ machines acts, w.store.stack m ≠ []) (base : List (Activation G)) :
    Raises ⟨w, acts ++ base, .reply (.raised x)⟩ x base (belows w.store acts) := by
  induction acts generalizing w with
  | nil => exact .out (.refl _)
  | cons a acts ih =>
      rw [List.forall_mem_cons] at hands
      obtain ⟨first, hands⟩ := hands
      cases first with
      | relaying g p e => exact .within (.one (silent_relaying ..) (regain_raised going))
      | advancing g m content =>
          rw [machines_machine] at rows some_frame
          obtain ⟨v, fs, stack⟩ := List.exists_cons_of_ne_nil (some_frame m (.head _))
          have sets := Store.Sets.setStack rows.own (rows.inside m (.head _)) fs
          have first : generators (w.store.stack m).tail =
              generators ((w.store.setStack m fs).stack m) := by
            rw [stack, List.tail_cons, sets.stack_eq]
          rw [belows, first]
          refine .after (.one (silent_library ..) (step_advancing exception going stack))
            (raises_failing sets.own (sets.size ▸ rows.inside m (.head _)) ?_ going
              fun u own size others => ?_)
          · rw [sets.stack_eq]
            exact fun v mem => rows.proper m (.head _) v (stack ▸ .tail _ mem)
          · obtain ⟨rows, same⟩ := rows.tail own (size.trans sets.size) fun n other =>
              (others n other).trans (sets.others n other)
            rw [← belows_congr hands same]
            exact ih hands rows fun n mem => same n mem ▸ some_frame n (.tail _ mem)

end Config

/-- What a machine gets that it does not understand is taken off, and closed. -/
theorem Machine.receive_foreign {s : Store} {m : Nat} {v op content : Val} {rest : List Val}
    (foreign : op.foreign = true) (stack : s.stack m = v :: rest) :
    receive s m content op = (s.setStack m rest, .ask (.closing content) (.discarding op)) := by
  unfold receive
  split <;> first | contradiction | simp [popThen, stack]

theorem Standing.discards (standing : Standing trace c) {op : Val} (received : c.received? = some op)
    (foreign : op.foreign = true) :
    ∃ g m i t below S, c.stack = .running g (.library (.machine m (.advancing (.gen i)))) :: S ∧
      c.world.store.stack m = .frame (.generator (.gen i) t) :: below ∧ c.step =
        .ok ⟨{ c.world with store := c.world.store.setStack m below },
          .running g (.library (.machine m (.discarding op))) :: S, .close i⟩ := by
  obtain ⟨g, m, i, t, below, S, stack, signal, top, -⟩ := standing.received received
  refine ⟨g, m, i, t, below, S, stack, top, ?_⟩
  obtain ⟨w, _, _⟩ := c
  subst stack signal
  have turn : (Process.machine m (.advancing (.gen i))).step w.store (.yielded op) =
      (w.store.setStack m below, .ask (.close i) (.machine m (.discarding op))) := by
    change ((Machine.receive w.store m (.gen i) op).1, (Machine.receive w.store m (.gen i) op).2.map _) = _
    rw [Machine.receive_foreign foreign top]
    rfl
  simp [Config.step, Config.deliver, Routine.step, turn, Turn.map, Config.turnOf]

/-- Once that is closed, the error that holds it is raised in what is below. -/
theorem Config.discarded_raises {acts : List (Activation G)} (hands : ∀ a ∈ acts, a.Hands) {m : Nat}
    (rows : Rows w.store (m :: machines acts)) (some_frame : ∀ n ∈ machines acts, w.store.stack n ≠ [])
    (base : List (Activation G)) (g : Gen) (op v : Val) : ∃ x : Exc, x.kind = .invalidInvocation ∧
      x.detail = .invalid op ∧
      Raises ⟨w, .running g (.library (.machine m (.discarding op))) :: acts ++ base,
        .reply (.value v)⟩ x base (generators (w.store.stack m) ++ belows w.store acts) := by
  refine ⟨(w.store.invalidInvocationError op .none).2, rfl, rfl, ?_⟩
  have going : (w.store.invalidInvocationError op .none).2.kind ≠ .stopIteration := nofun
  refine .after (.one (silent_library ..) rfl) (raises_failing
    (w := { w with store := (w.store.invalidInvocationError op .none).1 }) rows.own
    (rows.inside m (.head _)) (rows.proper m (.head _)) going fun u own size others => ?_)
  obtain ⟨rows', same⟩ := rows.tail own size others
  rw [← belows_congr hands same]
  exact raises_below hands rfl going rows' (fun n mem => same n mem ▸ some_frame n mem) base

end OneShot
