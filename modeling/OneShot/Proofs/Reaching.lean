import OneShot.Kernel

/-!
# Reaching

Several steps of the kernel.  Steps are deterministic, so that a run may be cut
at whatever it reaches.
-/

namespace OneShot

variable {G : Guest}

namespace Config

/-- From `c` the kernel comes to `d` in `n` steps. -/
inductive Reaches : Nat → Config G → Config G → Prop
  | refl (c : Config G) : Reaches 0 c c
  | step {n : Nat} {c d e : Config G} (first : c.step = .ok d) (rest : Reaches n d e) :
      Reaches (n + 1) c e

namespace Reaches

theorem trans {m n : Nat} {c d e : Config G} (first : Reaches m c d) (second : Reaches n d e) :
    Reaches (m + n) c e := by
  induction first with
  | refl c => simpa using second
  | step stepped _ ih =>
      rw [Nat.add_right_comm]
      exact .step stepped (ih second)

/-- What is reached later is reached from what is reached before. -/
theorem rest {m n : Nat} {c d e : Config G} (first : Reaches m c d) (whole : Reaches n c e) (less : m ≤ n) :
    Reaches (n - m) d e := by
  induction first generalizing n with
  | refl c => exact whole
  | @step m c d e stepped _ ih =>
      cases whole with
      | refl => contradiction
      | @step n _ _ _ stepped' later =>
          cases stepped.symm.trans stepped'
          rw [Nat.add_sub_add_right]
          exact ih later (Nat.le_of_succ_le_succ less)

theorem one {c d : Config G} (h : c.step = .ok d) : Reaches 1 c d := .step h (.refl d)

/-- A run goes on from what is reached. -/
theorem run_add {n : Nat} {c d : Config G} (h : Reaches n c d) (fuel : Nat) :
    run (n + fuel) c = run fuel d := by
  induction h with
  | refl c => rw [Nat.zero_add]
  | @step n c d e stepped _ ih =>
      rw [Nat.add_right_comm]
      simp only [run, stepped]
      exact ih

/-- A run that ends passes what is reached. -/
theorem run_of_run {n fuel : Nat} {c d : Config G} (h : Reaches n c d) {r : World G × Reply}
    (ended : run fuel c = some r) : n ≤ fuel ∧ run (fuel - n) d = some r := by
  induction h generalizing fuel with
  | refl c => exact ⟨Nat.zero_le _, ended⟩
  | @step n c d e stepped _ ih =>
      cases fuel with
      | zero => contradiction
      | succ fuel =>
          simp only [run, stepped] at ended
          obtain ⟨less, rest⟩ := ih ended
          exact ⟨by omega, by simpa using rest⟩

/-- A run that ends has come to its end. -/
theorem of_run {fuel : Nat} {c : Config G} {w : World G} {r : Reply} (ended : run fuel c = some (w, r)) :
    ∃ n, Reaches n c ⟨w, [], .reply r⟩ := by
  induction fuel generalizing c with
  | zero => contradiction
  | succ fuel ih =>
      simp only [run] at ended
      split at ended
      · rename_i out last
        cases ended
        obtain ⟨w', stack, signal⟩ := c
        cases signal with
        | reply r' =>
            cases stack with
            | nil =>
                cases last
                exact ⟨0, .refl _⟩
            | cons a stack => contradiction
        | _ => cases stack <;> contradiction
      · rename_i d first
        obtain ⟨n, rest⟩ := ih ended
        exact ⟨n + 1, .step first rest⟩

end Reaches

/-- From `c` the kernel comes to a configuration with a property, in at least `n` steps. -/
def Leads (n : Nat) (c : Config G) (P : Config G → Prop) : Prop :=
  ∃ m d, n ≤ m ∧ Reaches m c d ∧ P d

namespace Leads

variable {c d : Config G} {P Q : Config G → Prop}

theorem here (h : P c) : Leads 0 c P := ⟨0, c, Nat.le_refl _, .refl c, h⟩

theorem weaken {m n : Nat} (h : Leads n c P) (less : m ≤ n) : Leads m c P := by
  obtain ⟨k, d, many, reached, holds⟩ := h
  exact ⟨k, d, by omega, reached, holds⟩

theorem eventually {n : Nat} (h : Leads n c P) : Leads 0 c P := h.weaken (Nat.zero_le n)

theorem mono {n : Nat} (h : Leads n c P) (imp : ∀ d, P d → Q d) : Leads n c Q := by
  obtain ⟨k, d, many, reached, holds⟩ := h
  exact ⟨k, d, many, reached, imp d holds⟩

theorem bind {m n : Nat} (h : Leads m c P) (next : ∀ d, P d → Leads n d Q) :
    Leads (m + n) c Q := by
  obtain ⟨k, d, many, reached, holds⟩ := h
  obtain ⟨l, e, more, later, there⟩ := next d holds
  exact ⟨k + l, e, by omega, reached.trans later, there⟩

theorem followed {n : Nat} (h : Leads n c P) (next : ∀ d, P d → Leads 0 d Q) : Leads n c Q :=
  h.bind next

theorem after {m n : Nat} (h : Leads m c P) (next : ∀ d, P d → Leads n d Q) : Leads n c Q :=
  (h.bind next).weaken (Nat.le_add_left n m)

theorem step {n : Nat} (first : c.step = .ok d) (rest : Leads n d P) : Leads (n + 1) c P := by
  obtain ⟨k, e, many, reached, holds⟩ := rest
  exact ⟨k + 1, e, by omega, .step first reached, holds⟩

theorem reached {m n : Nat} (first : Reaches m c d) (rest : Leads n d P) : Leads (m + n) c P := by
  obtain ⟨k, e, many, later, holds⟩ := rest
  exact ⟨m + k, e, by omega, first.trans later, holds⟩

end Leads

end Config
end OneShot
