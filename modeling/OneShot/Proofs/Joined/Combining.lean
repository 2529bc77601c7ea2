import OneShot.Proofs.Joined.Rewrapping

/-!
# Combinations of wraps

A combination puts a computation under its wraps, the first one outermost.  So a
program runs alike if its computations are put under the wraps one by one; it
makes no difference how wraps were combined, and how often a wrap is used.
-/

namespace OneShot.Joined

open Deep (Result)

variable {c : Code} {async : Bool}

/-! ## What a combination is -/

/-- Whether a scope is that of the combination of no wraps. -/
def Scope.isNothing : Scope → Bool
  | .nothing => true
  | _ => false

/-- The scopes that a wrap is a combination of, outermost first. -/
def Wrap.leaves (f : Wrap) : List Scope := f.scopes.filter fun w => !w.isNothing

/-- A computation put under one scope after the other, without combinations. -/
def Comp.nested {σ : Type} (p : Comp σ) : Comp σ :=
  ⟨(p.wraps.flatMap Wrap.leaves).map Wrap.scope, p.made, p.body⟩

end OneShot.Joined
