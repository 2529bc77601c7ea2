import OneShot.Proofs.Deep.Setup

/-!
# Adequacy

The kernel runs computations under handlers as deep handlers should be run.  The
run of a program ends just if the program evaluates to a head, and then with its
result, or with the error for the effect that nobody answers.
-/

namespace OneShot.Deep

open Config (Leads Reaches)

variable {c : Code} {layers : List Layer} {s₀ : c.Plain}

theorem ends_of_leads {hd : Head c} {C : Config (guest c layers s₀)} (leads : Leads 0 C (Stops hd)) :
    ∃ fuel w r, Config.run fuel C = some (w, r) ∧ Ends hd r := by
  obtain ⟨m, D, -, reached, w, r, rfl, ends⟩ := leads
  exact ⟨m + 1, w, r, reached.run_add 1, ends⟩

theorem run_unique {m n : Nat} {C : Config (guest c layers s₀)}
    {out out' : World (guest c layers s₀) × Reply} (first : Config.run m C = some out)
    (second : Config.run n C = some out') : out = out' := by
  have left := Config.run_mono (Nat.le_max_left m n) first
  rw [Config.run_mono (Nat.le_max_right m n) second] at left
  exact (Option.some.inj left).symm

/--
Evaluation obeys the laws of deep handlers.  Whatever a program evaluates to, its
run ends with; and if its run ends, then with what the program evaluates to.
-/
theorem adequacy (c : Code) (layers : List Layer) (s : c.Plain) (settings : Settings) :
    IsDeep (Evaluates (c := c)) ∧
    (∀ hd, Evaluates (program layers s) hd →
      ∃ fuel w r, Config.run fuel (start c layers s settings) = some (w, r) ∧ Ends hd r) ∧
    (∀ fuel w r, Config.run fuel (start c layers s settings) = some (w, r) →
      ∃ hd, Evaluates (program layers s) hd ∧ Ends hd r) := by
  have opened := leads_program c layers s settings
  have forward : ∀ hd, Evaluates (program layers s) hd →
      ∃ fuel w r, Config.run fuel (start c layers s settings) = some (w, r) ∧ Ends hd r := by
    intro hd evaluated
    have arrived := opened.bind fun C focus => arrives evaluated focus
    exact ends_of_leads (arrived.bind fun C arrived => arrived.stops)
  refine ⟨evaluates_isDeep, forward, fun fuel w r ended => ?_⟩
  obtain ⟨fuel', C, -, ended', focus⟩ := run_less opened ended
  obtain ⟨hd, evaluated⟩ := evaluates focus ended'
  obtain ⟨fuel'', w', r', again, ends⟩ := forward hd evaluated
  cases run_unique ended again
  exact ⟨hd, evaluated, ends⟩

end OneShot.Deep
