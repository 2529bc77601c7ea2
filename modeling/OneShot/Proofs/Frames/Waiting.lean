import Mathlib.Data.List.Nodup
import OneShot.Proofs.Frames.Activity
import OneShot.Proofs.Frames.Soundness

/-!
# Waiting machines

A machine that waits below another activation is left alone: its one generator
is running, so that the machine itself makes no step, and nobody else changes
its stack.
-/

namespace OneShot

open Store (Quietly)

variable {G : Guest} {trace : Trace G} {c d : Config G}

theorem Config.stepped?_eq_some {m : Nat} (h : c.stepped? = some m) :
    ∃ a rest r p, c.stack = a :: rest ∧ c.signal = .reply r ∧ a.machine? = some (m, p) := by
  obtain ⟨w, stack, signal⟩ := c
  unfold stepped? at h
  dsimp only at h
  split at h
  · rename_i a rest r
    obtain ⟨⟨m', p⟩, made, rfl⟩ := Option.map_eq_some_iff.1 h
    exact ⟨a, rest, r, p, rfl, rfl, made⟩
  · contradiction

/-- A machine has one activation. -/
theorem Seated.alone (seated : Seated trace c) (active : c.Active) {a b : Activation G}
    {above below : List (Activation G)} (stack : c.stack = above ++ a :: below) (mem : b ∈ below)
    {m : Nat} {p q : Machine.Phase} (first : a.machine? = some (m, p))
    (second : b.machine? = some (m, q)) : False := by
  have mem_a : a ∈ c.stack := by simp [stack]
  have mem_b : b ∈ c.stack := by simp [stack, mem]
  obtain ⟨g, rfl, ran, -⟩ := seated.machine mem_a first
  obtain ⟨h, rfl, ran', -⟩ := seated.machine mem_b second
  have same : g.id = h.id := seated.once m _ _ ran ran'
  have once := active.once
  rw [stack, OneShot.active, List.filterMap_append, List.nodup_append] at once
  have once := once.2.1
  rw [List.filterMap_cons, Activation.active?_running] at once
  refine (List.nodup_cons.1 once).1 ?_
  exact List.mem_filterMap.2 ⟨_, mem, by simp [same]⟩

/-- The machine of an activation that is not on top does not make the next step. -/
theorem Seated.waiting (seated : Seated trace c) (active : c.Active) {b : Activation G}
    (mem : b ∈ c.stack.tail) {m : Nat} {p : Machine.Phase} (here : b.machine? = some (m, p)) :
    c.stepped? ≠ some m := by
  intro stepped
  obtain ⟨a, rest, r, q, stack, -, top⟩ := Config.stepped?_eq_some stepped
  rw [stack, List.tail_cons] at mem
  have whole : c.stack = [] ++ a :: rest := stack
  exact seated.alone active whole mem top here

theorem Config.stepped?_of_signal (h : ∀ r, c.signal ≠ .reply r) : c.stepped? = none := by
  obtain ⟨w, stack, signal⟩ := c
  cases signal with
  | reply r => exact absurd rfl (h r)
  | _ => cases stack <;> rfl

end OneShot
