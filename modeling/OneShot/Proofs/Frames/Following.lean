import OneShot.Proofs.Frames.Runs
import OneShot.Script.Reader

/-!
# Following runs

Whether a step obeys a rule can be decided, so that a run of a given program can be
followed and found to be lawful.
-/

namespace OneShot

variable {G : Guest} {rule : Trace G → Config G → Prop} [∀ trace c, Decidable (rule trace c)]

/-- Follows a run for a number of steps, as long as it obeys a rule. -/
def follow (rule : Trace G → Config G → Prop) [∀ trace c, Decidable (rule trace c)] :
    Nat → Trace G → Config G → Option (Trace G × Config G)
  | 0, trace, c => some (trace, c)
  | n + 1, trace, c =>
    if rule trace c then
      match c.step with
      | .ok d => follow rule n (c :: trace) d
      | .error _ => none
    else none

theorem RunOf.follow {n : Nat} {trace : Trace G} {c : Config G} (run : RunOf rule trace c)
    {q : Trace G × Config G} (h : OneShot.follow rule n trace c = some q) : RunOf rule q.1 q.2 := by
  induction n generalizing trace c with
  | zero =>
      cases h
      exact run
  | succ n ih =>
      unfold OneShot.follow at h
      split at h
      · rename_i obeys
        split at h
        · rename_i d stepped
          exact ih (.step run obeys stepped) h
        · contradiction
      · contradiction

/-- What is found at the end of a run that was followed holds of a run. -/
theorem exists_run {P : Trace G → Config G → Bool} {c : Config G} (fresh : c.Fresh) (n : Nat)
    (h : ((follow rule n [] c).any fun q => P q.1 q.2) = true) :
    ∃ trace d, RunOf rule trace d ∧ P trace d = true := by
  cases followed : follow rule n [] c with
  | none =>
      rw [followed] at h
      contradiction
  | some q =>
      rw [followed] at h
      exact ⟨q.1, q.2, RunOf.follow (.start fresh) followed, h⟩

/-! ## Deciding the rules -/

section

variable {trace : Trace G} {c : Config G}

theorem genuine_iff : Genuine trace c ↔ c.signal.builds = false ∧
    ∀ q ∈ c.ran?, q.1 < c.world.store.machines.size ∧ ∀ p ∈ trace.ran, p.1 ≠ q.1 := by
  constructor
  · rintro ⟨unbuilt, ran⟩
    refine ⟨unbuilt, fun q here => ⟨(ran q.1 q.2 here).1, fun p mem same => ?_⟩⟩
    exact (ran q.1 q.2 here).2 p.2 (same ▸ mem)
  · rintro ⟨unbuilt, ran⟩
    refine ⟨unbuilt, fun m i here => ⟨(ran _ here).1, fun j mem => ?_⟩⟩
    exact (ran _ here).2 _ mem rfl

/-- Whether a value is none or an exception. -/
def Val.throwable : Val → Bool
  | .none | .exc _ => true
  | _ => false

theorem Val.throwable_iff (v : Val) : v.throwable = true ↔ v = .none ∨ ∃ x, v = .exc x := by
  cases v <;> simp [throwable]

theorem orderly_iff : Orderly trace c ↔ Genuine trace c ∧
    (∀ g ∈ c.framed?, g.id < c.world.gens.size ∧ g.id ∉ trace.framed ∧ g.id ∉ trace.advanced) ∧
    (∀ g ∈ c.advanced?, g.id ∉ trace.framed) ∧ ∀ q ∈ c.pushed?, q ∈ trace.outstanding :=
  ⟨fun ⟨genuine, framed, advanced, pushed⟩ => ⟨genuine, framed, advanced, pushed⟩,
    fun ⟨genuine, framed, advanced, pushed⟩ => ⟨genuine, framed, advanced, pushed⟩⟩

theorem lawful_iff :
    Lawful trace c ↔ Orderly trace c ∧ ∀ v ∈ c.thrown?, v.throwable = true := by
  simp only [Val.throwable_iff]
  exact ⟨fun ⟨orderly, thrown⟩ => ⟨orderly, thrown⟩, fun ⟨orderly, thrown⟩ => ⟨orderly, thrown⟩⟩

instance (trace : Trace G) (c : Config G) : Decidable (Genuine trace c) :=
  decidable_of_iff _ genuine_iff.symm

instance (trace : Trace G) (c : Config G) : Decidable (Orderly trace c) :=
  decidable_of_iff _ orderly_iff.symm

instance (trace : Trace G) (c : Config G) : Decidable (Lawful trace c) :=
  decidable_of_iff _ lawful_iff.symm

end

/-! ## Scripts -/

namespace Script

/-- A call of a library function. -/
def uses (f : Native) (args : List Expr) : Expr := .call (library f) args

/-- A world in which nothing was made yet, and the call of a function without parameters. -/
def begin (main : Function) : Config language where
  world := ⟨.initial ⟨false, false, false, []⟩, #[], ⟨#[⟨[], none⟩], #[⟨main, 0⟩]⟩⟩
  stack := []
  signal := .call (.closure 0 main.name) [] .program

theorem fresh_begin (main : Function) : (begin main).Fresh := ⟨rfl, rfl, rfl, rfl⟩

end Script

end OneShot
