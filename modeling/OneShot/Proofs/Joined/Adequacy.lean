import OneShot.Proofs.Joined.Finishing

/-!
# Adequacy

The kernel runs a program as its semantics over one stack says.  A run ends just
if the program comes to an end, with the memory and the log of that, and with the
result or error for it.
-/

namespace OneShot.Joined

open Config (Leads Reaches)

variable {c : Code} {async : Bool} {J J' : Program c} {C : Config (guest c)} {M M' : Memory c}
  {e e' : Ending}

/-! ## The end of a program -/

/-- A program comes to an end under a driver, with a memory. -/
inductive Program.Ends (async : Bool) : Program c → Memory c → Ending → Prop
  | stops {J : Program c} {M : Memory c} {e : Ending} (last : J.next async = .error (M, e)) :
      Ends async J M e
  | step {J J' : Program c} {M : Memory c} {e : Ending} (first : J.next async = .ok J')
      (rest : Ends async J' M e) : Ends async J M e

theorem Program.Ends.unique (h : J.Ends async M e) (h' : J.Ends async M' e') : M = M' ∧ e = e' := by
  induction h with
  | stops last =>
      cases h' with
      | stops last' =>
          cases last.symm.trans last'
          exact ⟨rfl, rfl⟩
      | step first' => cases last.symm.trans first'
  | step first rest ih =>
      cases h' with
      | stops last' => cases first.symm.trans last'
      | step first' rest' =>
          cases first.symm.trans first'
          exact ih rest'

/-! ## What the kernel does -/

/-- The kernel takes a step of a program under a driver. -/
theorem Carries.next (h : Carries (Driver async) J C) :
    (∃ J', J.next async = .ok J' ∧ Advances (Driver async) J J' C) ∨
      ∃ M e, J.next async = .error (M, e) ∧ Leads 0 C (Halts async M e) := by
  have comes := h.comes
  unfold Program.next
  cases next : J.step with
  | more J' =>
      rw [next] at comes
      cases comes with
      | more advances => exact .inl ⟨J', rfl, advances⟩
  | finished J' r =>
      rw [next] at comes
      cases comes with
      | finished driver recalls arrived =>
          exact .inr ⟨_, _, rfl, .here (.returns (recalls.memory ▸ arrived.stops driver))⟩
  | leaves J' o s =>
      rw [next] at comes
      cases comes with
      | leaves resent =>
          exact .inr ⟨_, _, rfl, (resent.mono fun C' resent => .abandons resent.uncaught.abandons).eventually⟩
  | escapes J' t s held =>
      rw [next] at comes
      cases comes with
      | escapes escapes =>
          cases async with
          | true =>
              refine .inl ⟨_, rfl, .inl (escapes.followed fun C' escapes => ?_)⟩
              obtain ⟨D, B, es, mem, driver, recalls, escaped⟩ := escapes
              exact (escaped.carries driver recalls).eventually
          | false =>
              exact .inr ⟨_, _, rfl, (escapes.mono fun C' escapes => .abandons escapes.abandons).eventually⟩

theorem Carries.halts (h : Carries (Driver async) J C) (ends : J.Ends async M e) : Leads 0 C (Halts async M e) := by
  induction ends generalizing C with
  | @stops J M e last =>
      rcases h.next with ⟨J', next, -⟩ | ⟨M', e', next, halts⟩
      · cases last.symm.trans next
      · cases last.symm.trans next
        exact halts
  | @step J J' M e first rest ih =>
      rcases h.next with ⟨J'', next, advances⟩ | ⟨M', e', next, -⟩
      · cases first.symm.trans next
        rcases advances with leads | ⟨leads, -⟩
        · exact (leads.followed fun C' carries => ih carries).eventually
        · exact leads.bind fun C' carries => ih carries
      · cases first.symm.trans next

/-- A run that ends goes through what the kernel comes to. -/
theorem run_of_leads {n fuel : Nat} {P : Config (guest c) → Prop} {out : World (guest c) × Reply}
    (leads : Leads n C P) (ended : Config.run fuel C = some out) :
    ∃ fuel' C', fuel' + n ≤ fuel ∧ Config.run fuel' C' = some out ∧ P C' := by
  obtain ⟨m, C', many, reached, holds⟩ := leads
  obtain ⟨less, rest⟩ := reached.run_of_run ended
  exact ⟨fuel - m, C', by omega, rest, holds⟩

/-- If a run ends, what holds of a program as soon as it holds of the next one comes to hold. -/
theorem of_run {P : Program c → Config (guest c) → Prop} {Q : Program c → Prop} {fuel : Nat}
    {out : World (guest c) × Reply}
    (next : ∀ {J C fuel}, P J C → Config.run fuel C = some out → Q J ∨ ∃ J', (Q J' → Q J) ∧
      (Leads 1 C (P J') ∨ Leads 0 C (P J') ∧ J'.weight < J.weight))
    (holds : P J C) (ended : Config.run fuel C = some out) : Q J := by
  -- The kernel takes a step, or the stack of the program becomes shorter.
  induction fuel using Nat.strong_induction_on generalizing J C with
  | _ fuel ih =>
      induction weight : J.weight using Nat.strong_induction_on generalizing J C fuel with
      | _ n ih' =>
          rcases next holds ended with done | ⟨J', back, leads | ⟨leads, lighter⟩⟩
          · exact done
          · obtain ⟨fuel', C', less, ended', there⟩ := run_of_leads leads ended
            exact back (ih fuel' (by omega) there ended')
          · obtain ⟨fuel', C', less, ended', there⟩ := run_of_leads leads ended
            exact back (ih' J'.weight (weight ▸ lighter) fuel' (fun f small => ih f (by omega)) there ended' rfl)

theorem Carries.ends {fuel : Nat} {out : World (guest c) × Reply} (h : Carries (Driver async) J C)
    (ended : Config.run fuel C = some out) : ∃ M e, J.Ends async M e := by
  refine of_run (Q := fun J => ∃ M e, J.Ends async M e) (fun {J C fuel} carries ended => ?_) h ended
  rcases carries.next with ⟨J', next, advances⟩ | ⟨M, e, next, -⟩
  · refine .inr ⟨J', fun rest => ?_, advances⟩
    obtain ⟨M, e, rest⟩ := rest
    exact ⟨M, e, .step next rest⟩
  · exact .inl ⟨M, e, .stops next⟩

theorem run_unique {m n : Nat} {out out' : World (guest c) × Reply}
    (first : Config.run m C = some out) (second : Config.run n C = some out') : out = out' := by
  have left := Config.run_mono (Nat.le_max_left m n) first
  rw [Config.run_mono (Nat.le_max_right m n) second] at left
  exact (Option.some.inj left).symm

/--
Whatever a program ends with, the run of its computation ends with; and if the
run ends, then with what the program ends with.
-/
theorem adequate (async : Bool) (p : Comp c.State) (d : c.Memory) (settings : Settings) :
    (∀ M e, (begin p d).Ends async M e → ∃ fuel w r,
      Config.run fuel (start async p d settings) = some (w, r) ∧ w.memory.memory = M ∧ e.Replies r) ∧
    (∀ fuel w r, Config.run fuel (start async p d settings) = some (w, r) → ∃ e,
      (begin p d).Ends async w.memory.memory e ∧ e.Replies r) := by
  have forward : ∀ M e, (begin p d).Ends async M e → ∃ fuel w r,
      Config.run fuel (start async p d settings) = some (w, r) ∧ w.memory.memory = M ∧ e.Replies r := by
    intro M e ends
    have stopped := (start_leads async p d settings).bind (n := 1) fun C carries =>
      (carries.halts ends).bind (n := 1) fun C' halts => halts.stops
    obtain ⟨m, C, -, reached, w, r, rfl, memory, replies⟩ := stopped
    exact ⟨m + 1, w, r, reached.run_add 1, memory, replies⟩
  refine ⟨forward, fun fuel w r ended => ?_⟩
  obtain ⟨fuel', C, -, ended', carries⟩ := run_of_leads (start_leads async p d settings) ended
  obtain ⟨M, e, ends⟩ := carries.ends ended'
  obtain ⟨fuel'', w', r', again, rfl, replies⟩ := forward M e ends
  cases run_unique ended again
  exact ⟨e, ends, replies⟩

end OneShot.Joined
