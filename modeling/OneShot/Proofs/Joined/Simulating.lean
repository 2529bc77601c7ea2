import OneShot.Proofs.Joined.Adequacy

/-!
# Programs that end alike

One program follows another if it takes a few steps for each of the steps of the
other, and ends as the other ends.  Programs are deterministic; so each of them
ends just if the other does, and by adequacy so do the runs of their computations.
-/

namespace OneShot.Joined

variable {c c' : Code} {async async' : Bool} {J J₁ : Program c} {J' J₁' : Program c'} {n : Nat}
  {M : Memory c} {M' : Memory c'} {e : Ending}

namespace Program

/-- Runs a program for at most `fuel` steps. -/
def run (async : Bool) : (fuel : Nat) → Program c → Option (Memory c × Ending)
  | 0, _ => none
  | fuel + 1, J =>
    match J.next async with
    | .error out => some out
    | .ok J => run async fuel J

theorem ends_iff_run : J.Ends async M e ↔ ∃ fuel, J.run async fuel = some (M, e) := by
  constructor
  · intro ends
    induction ends with
    | stops last => exact ⟨1, by simp only [run, last]⟩
    | step first rest ih =>
        obtain ⟨fuel, ended⟩ := ih
        exact ⟨fuel + 1, by simpa only [run, first] using ended⟩
  · rintro ⟨fuel, ended⟩
    induction fuel generalizing J with
    | zero => contradiction
    | succ fuel ih =>
        simp only [run] at ended
        split at ended
        · rename_i last
          cases ended
          exact .stops last
        · rename_i first
          exact .step first (ih ended)

/-- A program comes to another one in a number of steps. -/
inductive Steps (async : Bool) : Nat → Program c → Program c → Prop
  | zero (J : Program c) : Steps async 0 J J
  | succ {n : Nat} {J J₁ J₂ : Program c} (first : J.next async = .ok J₁) (rest : Steps async n J₁ J₂) :
      Steps async (n + 1) J J₂

theorem Steps.one {J₁ : Program c} (first : J.next async = .ok J₁) : Steps async 1 J J₁ :=
  .succ first (.zero J₁)

theorem Steps.trans {m n : Nat} {J₁ J₂ : Program c} (first : Steps async m J J₁)
    (second : Steps async n J₁ J₂) : Steps async (m + n) J J₂ := by
  induction first with
  | zero J => simpa using second
  | succ stepped _ ih =>
      rw [Nat.add_right_comm]
      exact .succ stepped (ih second)

theorem Steps.ends {J₁ : Program c} (steps : Steps async n J J₁) (ends : J₁.Ends async M e) :
    J.Ends async M e := by
  induction steps with
  | zero J => exact ends
  | succ first _ ih => exact .step first (ih ends)

/-- A run that ends goes through what the program comes to. -/
theorem Steps.run_of_run {fuel : Nat} {J₁ : Program c} {out : Memory c × Ending}
    (steps : Steps async n J J₁) (ended : J.run async fuel = some out) :
    ∃ fuel', fuel' + n ≤ fuel ∧ J₁.run async fuel' = some out := by
  induction steps generalizing fuel with
  | zero J => exact ⟨fuel, Nat.le_refl _, ended⟩
  | @succ n J J₁ J₂ first _ ih =>
      cases fuel with
      | zero => contradiction
      | succ fuel =>
          simp only [run, first] at ended
          obtain ⟨fuel', less, rest⟩ := ih ended
          exact ⟨fuel', by omega, rest⟩

theorem Steps.kept {I : Program c → Prop} {J₁ : Program c}
    (next : ∀ {J₂ J₃ : Program c}, I J₂ → J₂.next async = .ok J₃ → I J₃) (holds : I J)
    (steps : Steps async n J J₁) : I J₁ := by
  induction steps with
  | zero => exact holds
  | succ first _ ih => exact ih (next holds first)

end Program

/-- What steps of two programs come to. -/
inductive Agrees (R : Program c → Program c' → Prop) (Same : Memory c → Memory c' → Prop) :
    Except (Memory c × Ending) (Program c) → Except (Memory c' × Ending) (Program c') → Prop
  | goes {J : Program c} {J' : Program c'} (related : R J J') : Agrees R Same (.ok J) (.ok J')
  | stops {M : Memory c} {M' : Memory c'} (e : Ending) (same : Same M M') :
      Agrees R Same (.error (M, e)) (.error (M', e))

theorem Agrees.imp {R R₁ : Program c → Program c' → Prop} {Same Same₁ : Memory c → Memory c' → Prop}
    {out : Except (Memory c × Ending) (Program c)} {out' : Except (Memory c' × Ending) (Program c')}
    (agrees : Agrees R Same out out')
    (goes : ∀ {J J'}, out = .ok J → out' = .ok J' → R J J' → R₁ J J')
    (stops : ∀ {M M'}, Same M M' → Same₁ M M') : Agrees R₁ Same₁ out out' := by
  cases agrees with
  | goes related => exact .goes (goes rfl rfl related)
  | stops e same => exact .stops e (stops same)

/-- The programs on the right follow those on the left. -/
structure Follows (async async' : Bool) (R : Program c → Program c' → Prop)
    (Same : Memory c → Memory c' → Prop) : Prop where
  stops : ∀ {J J' M e}, R J J' → J.next async = .error (M, e) →
    ∃ M', J'.Ends async' M' e ∧ Same M M'
  steps : ∀ {J J' J₁}, R J J' → J.next async = .ok J₁ →
    ∃ n J₁', J'.Steps async' (n + 1) J₁' ∧ R J₁ J₁'

section

variable {R : Program c → Program c' → Prop} {Same : Memory c → Memory c' → Prop}

/-- The program on the right takes some steps of its own before one with that on the left. -/
theorem Follows.of_agrees (agrees : ∀ {J J'}, R J J' → ∃ n J₁', J'.Steps async' n J₁' ∧
    Agrees R Same (J.next async) (J₁'.next async')) : Follows async async' R Same := by
  refine ⟨fun {J J' M e} related last => ?_, fun {J J' J₁} related first => ?_⟩
  · obtain ⟨n, J₁', steps, agrees⟩ := agrees related
    rw [last] at agrees
    generalize next : J₁'.next async' = out at agrees
    cases agrees with
    | stops e same => exact ⟨_, steps.ends (.stops next), same⟩
  · obtain ⟨n, J₁', steps, agrees⟩ := agrees related
    rw [first] at agrees
    generalize next : J₁'.next async' = out at agrees
    cases agrees with
    | goes goes => exact ⟨n, _, steps.trans (.one next), goes⟩

theorem Follows.ends (follows : Follows async async' R Same) (related : R J J')
    (ends : J.Ends async M e) : ∃ M', J'.Ends async' M' e ∧ Same M M' := by
  induction ends generalizing J' with
  | stops last => exact follows.stops related last
  | step first _ ih =>
      obtain ⟨n, J₁', steps, related'⟩ := follows.steps related first
      obtain ⟨M', ends', same⟩ := ih related'
      exact ⟨M', steps.ends ends', same⟩

theorem Follows.ends_back (follows : Follows async async' R Same) (related : R J J')
    (ends : J'.Ends async' M' e) : ∃ M, J.Ends async M e ∧ Same M M' := by
  -- Each step of the program on the left takes some of the steps that are left on the right.
  obtain ⟨fuel, ended⟩ := Program.ends_iff_run.1 ends
  induction fuel using Nat.strong_induction_on generalizing J J' with
  | _ fuel ih =>
      cases next : J.next async with
      | error out =>
          obtain ⟨M'', ends', same⟩ := follows.stops related next
          obtain ⟨rfl, rfl⟩ := ends.unique ends'
          exact ⟨_, .stops next, same⟩
      | ok J₁ =>
          obtain ⟨n, J₁', steps, related'⟩ := follows.steps related next
          obtain ⟨fuel', less, ended'⟩ := steps.run_of_run ended
          obtain ⟨M, ends', same⟩ := ih fuel' (by omega) related'
            (Program.ends_iff_run.2 ⟨fuel', ended'⟩) ended'
          exact ⟨M, .step next ends', same⟩

end

/-! ## Runs -/

theorem Ending.Replies.eq_value {v : Val} {r : Reply} (h : e.Replies (.value v)) (h' : e.Replies r) :
    r = .value v := by
  generalize reply : Reply.value v = r₀ at h
  cases h with
  | result r => cases h'; rfl
  | uncaught kind detail => contradiction
  | escaped kind detail => contradiction

/--
Two runs end alike: if one of them ends, so does the other, with memories that
are related, and with replies for the same result or the same error.
-/
def Alike (C : Config (guest c)) (C' : Config (guest c')) (Same : Memory c → Memory c' → Prop) : Prop :=
  (∀ fuel w r, Config.run fuel C = some (w, r) → ∃ fuel' w' r', Config.run fuel' C' = some (w', r') ∧
    Same w.memory.memory w'.memory.memory ∧ ∃ e : Ending, e.Replies r ∧ e.Replies r') ∧
  (∀ fuel' w' r', Config.run fuel' C' = some (w', r') → ∃ fuel w r, Config.run fuel C = some (w, r) ∧
    Same w.memory.memory w'.memory.memory ∧ ∃ e : Ending, e.Replies r ∧ e.Replies r')

theorem Follows.alike {R : Program c → Program c' → Prop} {Same : Memory c → Memory c' → Prop}
    (follows : Follows async async' R Same) {p : Comp c.State} {p' : Comp c'.State} {d : c.Memory}
    {d' : c'.Memory} (related : R (begin p d) (begin p' d')) (settings settings' : Settings) :
    Alike (start async p d settings) (start async' p' d' settings') Same := by
  obtain ⟨runs, ends⟩ := adequate async p d settings
  obtain ⟨runs', ends'⟩ := adequate async' p' d' settings'
  refine ⟨fun fuel w r ended => ?_, fun fuel' w' r' ended => ?_⟩
  · obtain ⟨e, program, replies⟩ := ends fuel w r ended
    obtain ⟨M', program', same⟩ := follows.ends related program
    obtain ⟨fuel', w', r', ended', rfl, replies'⟩ := runs' M' e program'
    exact ⟨fuel', w', r', ended', same, e, replies, replies'⟩
  · obtain ⟨e, program, replies⟩ := ends' fuel' w' r' ended
    obtain ⟨M, program', same⟩ := follows.ends_back related program
    obtain ⟨fuel, w, r, ended', rfl, replies'⟩ := runs M e program'
    exact ⟨fuel, w, r, ended', same, e, replies', replies⟩

/-- What a run ends with that is alike to that of a program which gives a value. -/
theorem Alike.value {c' : Code} {async async' : Bool} {p : Comp c.State} {p' : Comp c'.State} {d : c.Memory}
    {d' : c'.Memory} {settings settings' : Settings} {Same : Memory c → Memory c' → Prop}
    (alike : Alike (start async p d settings) (start async' p' d' settings') Same) {fuel : Nat}
    {v : Val} {plain : v.generator? = none}
    (ended : ((begin p d).run async fuel).map Prod.snd = some (.result (.value v plain))) :
    ∃ fuel w, Config.run fuel (start async' p' d' settings') = some (w, .value v) := by
  obtain ⟨⟨M, _⟩, ended, rfl⟩ := Option.map_eq_some_iff.1 ended
  obtain ⟨fuel, w, r, run, -, replies⟩ :=
    (adequate async p d settings).1 _ _ (Program.ends_iff_run.2 ⟨fuel, ended⟩)
  obtain ⟨fuel', w', r', run', -, e, first, second⟩ := alike.1 fuel w r run
  generalize made : Ending.result (.value v plain) = e₀ at replies
  cases replies with
  | result r₀ =>
      cases made
      exact ⟨fuel', w', first.eq_value second ▸ run'⟩
  | _ => contradiction

end OneShot.Joined
