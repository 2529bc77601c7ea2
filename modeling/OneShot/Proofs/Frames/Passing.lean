import OneShot.Proofs.Frames.Suspensions
import OneShot.Proofs.Settling

/-!
# Escapes and their replies

An escape goes out through machines and delegations as it is, and suspends their
generators.  If what is suspended is left alone, the reply goes in by the same way, to the
generator that has yielded the escape.  No stack and no continuation changes on the way,
and the activations come to stand as they stood.
-/

namespace OneShot

open Config (Reaches)

variable {G : Guest} {trace : Trace G} {c : Config G} {w v : World G} {s : Store} {d e g : Gen}
  {b : Activation G} {acts base : List (Activation G)} {a : Deep.Answer}

/-! ## Lanes -/

/-- What an escape leaves of an activation that it has come through. -/
inductive Activation.Rests (w : World G) : Activation G → Prop
  | advancing {g : Gen} {m : Nat} {content : Val}
      (status : w.gens[g.id]? = some (.suspended (.library (.machine m .escaped)) .direct)) :
      Rests w (.running g (.library (.machine m (.advancing content))))
  | relaying {g d : Gen} {p : Routine G} (status : w.gens[g.id]? = some (.delegating p d)) :
      Rests w (.relaying g p d)

/-- An activation of `g` has `d` advanced: a machine with `d` on its stack, or a delegation. -/
inductive Activation.Advances (s : Store) (d : Gen) : Activation G → Gen → Prop
  | machine {g : Gen} {m : Nat} {t : Tag} {vals : List Val} {owner : Val}
      (stack : s.machines[m]? = some ⟨.own (.frame (.generator (.gen d) t) :: vals), owner⟩) :
      Advances s d (.running g (.library (.machine m (.advancing (.gen d))))) g
  | relaying (g : Gen) (p : Routine G) : Advances s d (.relaying g p d) g

/-- Activations that have each other advanced, from `d` on top down to `e`. -/
inductive Lane (s : Store) : Gen → List (Activation G) → Gen → Prop
  | nil (d : Gen) : Lane s d [] d
  | cons {d e g : Gen} {b : Activation G} {acts : List (Activation G)} (first : b.Advances s d g)
      (rest : Lane s g acts e) : Lane s d (b :: acts) e

theorem Activation.Advances.active (h : b.Advances s d g) : b.active? = some g := by
  cases h <;> rfl

theorem Lane.of_machines {t : Store} (lane : Lane s d acts e)
    (same : ∀ m ∈ machines acts, t.machines[m]? = s.machines[m]?) : Lane t d acts e := by
  induction lane with
  | nil d => exact .nil d
  | cons first rest ih =>
      cases first with
      | machine stack =>
          rw [machines_machine] at same
          exact .cons (.machine ((same _ (.head _)).trans stack)) (ih fun m mem => same m (.tail _ mem))
      | relaying => exact .cons (.relaying _ _) (ih same)

/-! ## Out -/

theorem Activation.Rests.congr (h : b.Rests w) (same : ∀ g, b.active? = some g → v.gens[g.id]? = w.gens[g.id]?) :
    b.Rests v := by
  cases h with
  | advancing status => exact .advancing ((same _ rfl).trans status)
  | relaying status => exact .relaying ((same _ rfl).trans status)

end OneShot
