import OneShot.Proofs.Frames.Landing

/-!
# Throwing

An exception goes unchanged through layers.  What is thrown into a continuation is raised
where the generator waits that has performed the effect; and what comes out of a generator
or a clause is raised where the next generator waits down the joined stack, or else by the
driver.  No code of the program runs on the way.  What has been closed waits no more: so it
is with what a driver has abandoned.
-/

namespace OneShot

variable {G : Guest} {trace : Trace G} {c d : Config G} {w v : World G} {x : Exc}

/-- A driver that runs its machine. -/
inductive Activation.Drives : Activation G → Prop
  | execute (g : Gen) : Drives (.calling (.library (.execute (.running g))))
  | executeAsync (h g : Gen) (n : Nat) :
      Drives (.running h (.library (.executeAsync (.running g n))))

/-- What a machine fails with is raised by its driver. -/
theorem Activation.Drives.glides {a : Activation G} (drives : a.Drives)
    (going : x.kind ≠ .stopIteration) (w : World G) (rest : List (Activation G)) :
    ∃ u, Config.Glides ⟨w, a :: rest, .reply (.raised x)⟩ ⟨u, rest, .reply (.raised x)⟩ := by
  cases drives with
  | execute g => exact ⟨w, .one ⟨by simp, by simp⟩ rfl⟩
  | executeAsync h g n =>
      refine ⟨w.setStatus h .finished, .one (Config.silent_library ..) ?_⟩
      simp only [Config.step, Config.deliver, Routine.step, Process.step, ExecuteAsync.step]
      change Except.ok (Config.leave w rest h x) = _
      simp [Config.leave, going, Config.reply]

/--
Where a failure lands, with some bodies in its way: it comes to the first of them that
takes it, or else out to what is at the base, and out of that if it is a driver.
-/
structure Lands (x : Exc) (base : List (Activation G)) (l : List (Gen × Routine G))
    (c : Config G) : Prop where
  taken : ∀ pre q post, l = pre ++ q :: post → (∀ p ∈ pre, ¬ p.2.Takes) →
    ∃ u below, c.Glides ⟨u, .running q.1 q.2 :: below, .reply (.raised x)⟩
  leaves : (∀ q ∈ l, ¬ q.2.Takes) → ∃ u, c.Glides ⟨u, base, .reply (.raised x)⟩
  driver : (∀ q ∈ l, ¬ q.2.Takes) → ∀ a rest, base = a :: rest → a.Drives →
    ∃ u, c.Glides ⟨u, rest, .reply (.raised x)⟩

theorem Lands.of_falls {base : List (Activation G)} {l : List (Gen × Routine G)}
    {s : Store} (all : ∀ q ∈ l, q.2.Takes ∨ q.2.Passes s)
    (going : x.kind ≠ .stopIteration)
    (falls : ∀ pre post, l = pre ++ post → (∀ q ∈ pre, q.2.Passes s) →
      ∃ v ids ms, Falls x v base ids ms c post) : Lands x base l c := by
  have leaves (none_takes : ∀ q ∈ l, ¬ q.2.Takes) :
      ∃ u, c.Glides ⟨u, base, .reply (.raised x)⟩ := by
    obtain ⟨v, ids, ms, falls⟩ := falls l [] (by simp) fun q mem =>
      (all q mem).resolve_left (none_takes q mem)
    cases falls with
    | through kept glides => exact ⟨_, glides⟩
  refine ⟨fun pre q post split others => ?_, leaves, fun none_takes a rest same drives => ?_⟩
  · have passes (p : Gen × Routine G) (mem : p ∈ pre) : p.2.Passes s :=
      (all p (by simp [split, mem])).resolve_left (others p mem)
    obtain ⟨v, ids, ms, falls⟩ := falls pre (q :: post) split passes
    cases falls with
    | lands glides => exact ⟨_, _, glides⟩
  · obtain ⟨u, glides⟩ := leaves none_takes
    obtain ⟨u', further⟩ := drives.glides going u rest
    exact ⟨u', glides.trans (same ▸ further)⟩

namespace Footing

variable {acts base : List (Activation G)}

/-- A failure lands on what waits down the joined stack. -/
theorem lands (footing : Footing trace c) (stack : c.stack = acts ++ base)
    (signal : c.signal = .reply (.raised x)) (exception : x.isException = true)
    (going : x.kind ≠ .stopIteration) (joining : ∀ a ∈ acts, a.Joining)
    (intact : ∀ m ∈ machines acts, ∀ v ∈ c.world.store.stack m, v.Holding (Intact trace c)) :
    ∃ l, Joins c.world acts l ∧ (∀ q ∈ l, q.2.Takes ∨ q.2.Passes c.world.store) ∧
      Lands x base l c := by
  have sub : acts.Sublist c.stack := stack ▸ List.sublist_append_left acts base
  obtain ⟨l, joins, all⟩ := footing.exists_joins sub.subset joining intact
  refine ⟨l, joins, all, ?_⟩
  refine .of_falls all going fun pre post split passes => ?_
  have falls := joins.falls (S := base) exception going (footing.nodup_joins signal sub joins)
    (footing.ordered.nodup_machines sub) split footing.ordered.sound.own
    (fun m mem => footing.ordered.inside_machines sub.subset mem) passes (.refl ..) fun _ _ => rfl
  rw [← stack, ← signal] at falls
  exact ⟨_, _, _, falls⟩

end Footing

/-! ## Into a continuation -/

/-- The machine `m` has pushed the frames of a continuation. -/
def World.push (w : World G) (m : Nat) (k : Cont) : World G :=
  { w with store := w.store.setStack m (w.store.frames k ++ w.store.stack m) }

section Throw

variable {acts base : List (Activation G)} {g : Gen} {m id : Nat} {content value : Val} {k : Cont}

/-- A machine that throws into a continuation has been asked to, and has something on its stack. -/
theorem Footing.asked (footing : Footing trace c) (orderly : Orderly trace c)
    {S : List (Activation G)}
    (stack : c.stack = .running g (.library (.machine m (.advancing content))) :: S)
    (signal : c.signal = .reply (.yielded (.resumption id ⟨.cont k, value, .exc x⟩))) :
    (id, k) ∈ trace.outstanding ∧ c.world.store.stack m ≠ [] := by
  refine ⟨orderly.pushed _ ?_, ?_⟩
  · rw [Config.pushed?_machine stack signal]
    rfl
  · have received : c.received? = some (.resumption id ⟨.cont k, value, .exc x⟩) := by
      simp [Config.received?, stack, signal, Activation.machine?, Routine.machine?, Machine.received?]
    obtain ⟨g', m', i, t, below, rest, stack', -, top, -⟩ :=
      footing.ordered.toStanding.received received
    cases stack.symm.trans stack'
    simp [top]

end Throw

/-! ## Exceptions travel -/

/-- What the machines have on their stacks is intact. -/
def Config.Intact (trace : Trace G) (c : Config G) (ms : List Nat) : Prop :=
  ∀ m ∈ ms, ∀ v ∈ c.world.store.stack m, v.Holding (OneShot.Intact trace c)

namespace Script

end Script

open Script

namespace Config

end Config

namespace Config

/-- Whether something is called in the next step, or code of the program runs. -/
def speaks (c : Config G) : Bool :=
  match c.stack, c.signal with
  | _, .call .. => true
  | .running _ (.guest _) :: _, .reply _ | .calling (.guest _) :: _, .reply _ => true
  | _, _ => false

theorem Silent.speaks (silent : c.Silent) : c.speaks = false := by
  unfold Config.speaks
  split
  · rename_i signal
    exact absurd signal (silent.1 _ _ _)
  · rename_i stack signal
    exact absurd stack (silent.2 _ signal _ _ _).1
  · rename_i stack signal
    exact absurd stack (silent.2 _ signal ⟨0, .generator, ""⟩ _ _).2
  · rfl

/-- The kernel comes to where the program goes on, and to nothing `bad` on the way. -/
def avoids (bad : Config G → Bool) : Nat → Config G → Bool
  | 0, _ => false
  | n + 1, c => !bad c && (c.speaks ||
      match c.step with
      | .ok d => avoids bad n d
      | .error _ => true)

theorem Glides.avoids {bad : Config G → Bool} {n : Nat} (glides : c.Glides d)
    (h : c.avoids bad n = true) : bad d = false := by
  induction glides generalizing n with
  | refl c =>
      cases n with
      | zero => contradiction
      | succ n =>
          simp only [Config.avoids, Bool.and_eq_true, Bool.not_eq_true'] at h
          exact h.1
  | step silent first rest ih =>
      cases n with
      | zero => contradiction
      | succ n =>
          simp only [Config.avoids, Bool.and_eq_true, silent.speaks, Bool.false_or, first] at h
          exact ih h.2

/-- A failure comes to a body that has performed an effect. -/
def returns (trace : Trace G) (c : Config G) : Bool :=
  match c.stack, c.signal with
  | .running g _ :: _, .reply (.raised _) =>
      trace.any fun e => match e.yields? with
        | some (h, .invocation _ _) => h.id == g.id
        | _ => false
  | _, _ => false

end Config

end OneShot
