import OneShot.Proofs.Joined.Simulating

/-!
# Cleaning up

A run that ends because its driver gives up has closed all that is on the joined stack:
the frames of the driver's machine and of the machines inside, and those that a resend
carries.  The generators there end one after the other, topmost first, before the error is
raised.
-/

namespace OneShot.Joined

variable {c : Code} {async : Bool}

/--
A run ends with what its computation has ended with, unless its driver hears of an effect
that nobody has answered, or of an escape if it is not asynchronous.  Then each generator
that is on the joined stack is closed once, topmost first, and with it the code that waits
there; and after that the error is raised.
-/
theorem cleaned_up (async : Bool) (p : Comp c.State) (d : c.Memory) (settings : Settings) {fuel : Nat}
    {w : World (guest c)} {r : Reply} (ended : Config.run fuel (start async p d settings) = some (w, r)) :
    ∃ e : Ending, (begin p d).Ends async w.memory.memory e ∧ e.Replies r ∧
      ((∃ r', e = .result r') ∨ ∃ n C x, Config.Reaches n (start async p d settings) C ∧ r = .raised x ∧
        Abandons async w.memory.memory e C x) := by
  obtain ⟨e, ends, replies⟩ := (adequate async p d settings).2 fuel w r ended
  refine ⟨e, ends, replies, ?_⟩
  have halts := (start_leads async p d settings).followed fun C carries => carries.halts ends
  obtain ⟨n, C, -, reached, halts⟩ := halts
  cases halts with
  | returns stops => exact .inl ⟨_, rfl⟩
  | abandons abandons =>
      obtain ⟨x, abandons⟩ := abandons
      obtain ⟨m, C', -, later, w', rfl, -, -⟩ := abandons.stops
      cases run_unique ended ((reached.trans later).run_add 1)
      exact .inr ⟨n, C, x, reached, rfl, abandons⟩

/-- Code that runs more of it under a handler, down to code that performs an effect which nobody owns. -/
def descending : Code where
  Memory := Unit
  State := Nat
  Task := Empty
  step _ n _ := ((), match n with
    | 0 => .perform (.ask 0 []) 0
    | n + 1 => .call (.run ⟨[.scope (.handle ⟨n, none, []⟩)], false, n⟩) (n + 1))
  exit _ _ := ()
  task _ t := nomatch t
  onReturn _ _ _ := ((), .result (.value .none Val.generator?_none))
  clause _ _ _ _ := ((), .result (.value .none Val.generator?_none))
  init _ _ := (0, .none)

/-- What was nested deepest is closed first. -/
theorem cleaned_up_descending : ∃ n C x M, Config.Reaches n
      (start (c := descending) false ⟨[], false, (2 : Nat)⟩ () default) C ∧
    Abandons false M (.uncaught (plainEffect 0)) C x ∧
    ([0, 1, 2].map fun n : Nat => .exit n) <:+ M.log := by
  let p : Comp descending.State := ⟨[], false, (2 : Nat)⟩
  have ended : ∃ M, (begin p ()).Ends false M (.uncaught (plainEffect 0)) ∧
      ([0, 1, 2].map fun n : Nat => .exit n) <:+ M.log :=
    ⟨_, Program.ends_iff_run.2 ⟨10, rfl⟩, [.code (2 : Nat) (.value .none), .code (1 : Nat) (.value .none),
      .code (0 : Nat) (.value .none), .performs (0 : Nat) (.ask 0 [])], rfl⟩
  obtain ⟨M, ends, log⟩ := ended
  obtain ⟨fuel, w, r, run, rfl, -⟩ := (adequate false p () default).1 _ _ ends
  obtain ⟨e, ends', -, result | ⟨n, C, x, reached, -, abandons⟩⟩ := cleaned_up false p () default run
  · obtain ⟨r', rfl⟩ := result
    cases (ends.unique ends').2
  · cases (ends.unique ends').2
    exact ⟨n, C, x, _, reached, abandons, log⟩

end OneShot.Joined
