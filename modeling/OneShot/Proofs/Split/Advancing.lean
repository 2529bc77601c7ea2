import OneShot.Proofs.Split.Calling

/-!
# Generators that are advanced or closed in two runs

What becomes of corresponding generators that are advanced or closed, by their statuses,
as long as no machine of the first run stands for a part of one of the second run.
-/

namespace OneShot.Split

open Config (Reaches)
open List (Forall₂)

variable {c : Code} {J : Joint} {w w' : World (guest c)} {S T : List (Activation (guest c))} {g h d e : Gen} {i j : Input}
  {v v' : Val} {p q : Routine (guest c)}

/-! ## Values of a kind -/

/-- An exception, or no exception on either side. -/
theorem Alike.exc? {N : Names} (alike : Alike N v v') :
    (∃ x x', v = .exc x ∧ v' = .exc x' ∧ Alike N (.exc x) (.exc x')) ∨ ((∀ x, v ≠ .exc x) ∧ ∀ x, v' ≠ .exc x) := by
  cases alike with
  | error kind plain plain' length args => exact .inl ⟨_, _, rfl, rfl, .error kind plain plain' length args⟩
  | worded plain plain' text text' => exact .inl ⟨_, _, rfl, rfl, .worded plain plain' text text'⟩
  | failure kind other caused caused' object => exact .inl ⟨_, _, rfl, rfl, .failure kind other caused caused' object⟩
  | _ => exact .inr ⟨fun _ => nofun, fun _ => nofun⟩

theorem Alike.none? {N : Names} (alike : Alike N v v') : (v = .none ∧ v' = .none) ∨ (v ≠ .none ∧ v' ≠ .none) := by
  cases alike with
  | none => exact .inl ⟨rfl, rfl⟩
  | _ => exact .inr ⟨nofun, nofun⟩

theorem Alike.gen? {N : Names} (alike : Alike N v v') :
    (∃ g h, v = .gen g ∧ v' = .gen h ∧ N.gens g h) ∨ ((∀ g, v ≠ .gen g) ∧ ∀ g, v' ≠ .gen g) := by
  cases alike with
  | gen pair => exact .inl ⟨_, _, rfl, rfl, pair⟩
  | _ => exact .inr ⟨fun _ => nofun, fun _ => nofun⟩

/-! ## Advancing -/

section Advance

variable (w) (S)

theorem advance_throw_other {t : Status (guest c)} (status : w.status g = t) (other : ∀ x, v ≠ .exc x)
    (unpaused : t = .running ∨ t = .finished ∨ ∃ p, t = .fresh p) :
    Config.advance w S g (.throw v) = Config.refuse w S (.notThrowable v.typeName) := by
  rcases unpaused with rfl | rfl | ⟨p, rfl⟩ <;> unfold Config.advance <;> rw [status] <;> cases v <;>
    first | rfl | exact absurd rfl (other _)

theorem advance_fresh {p : Routine (guest c)} (status : w.status g = .fresh p) :
    Config.advance w S g (.send .none) = Config.reply (w.setStatus g .running) (.running g p :: S) (.value .none) := by
  unfold Config.advance
  rw [status]

theorem advance_unstarted {p : Routine (guest c)} (status : w.status g = .fresh p) (other : v ≠ .none) :
    Config.advance w S g (.send v) = Config.refuse w S (.unstartedSend g.kind) := by
  unfold Config.advance
  rw [status]
  cases v <;> first | rfl | exact absurd rfl other

theorem advance_suspended {p : Routine (guest c)} {how : Suspension} (status : w.status g = .suspended p how) (v : Val) :
    Config.advance w S g (.send v) = Config.reply (w.setStatus g .running) (.running g p :: S) (.value v) := by
  unfold Config.advance
  rw [status]

theorem advance_delegating {p : Routine (guest c)} (status : w.status g = .delegating p d) (other : ∀ x, v ≠ .exc x) :
    Config.advance w S g (.throw v) = ⟨w.setStatus g .running, .relaying g p d :: S, .advance d (.throw v)⟩ := by
  unfold Config.advance
  rw [status]
  cases v <;> first | rfl | exact absurd rfl (other _)

end Advance

theorem Stacks.resumes (layout : Stacks J S T) (heard : Heard S) (pair : J.names.gens g h)
    (alike : RoutineAlike J g.id h.id p q) : Stacks J (.running g p :: S) (.running h q :: T) :=
  .cons (.running pair alike) (fun _ => heard) layout

/-- A fault is raised in suspended generators. -/
theorem Worlds.breaks (W : Worlds J w w') (layout : Stacks J S T) (heard : Heard S) (pair : J.names.gens g h)
    (alike : RoutineAlike J g.id h.id p q) {f f' : Fault} (fault : FaultAlike J.names f f') :
    Corresponds J.lone (Config.reply ((w.fault f).1.setStatus g .running) (.running g p :: S) (.raised (w.fault f).2))
      (Config.reply ((w'.fault f').1.setStatus h .running) (.running h q :: T) (.raised (w'.fault f').2)) := by
  have keeps := W.keeps_quiet ((w.store.fault f).1) ((w'.store.fault f').1) rfl rfl
  have W := W.quiet ((w.store.fault f).1) ((w'.store.fault f').1) rfl rfl
  refine (W.setStatus (g := g) (h := h) pair .running).raises ?_ (fault _ _)
  exact (layout.resumes heard pair alike).keep keeps fun _ _ => id

theorem thrownInto_other (u : World (guest c)) (how : Suspension) (other : ∀ x, v ≠ .exc x) : Config.thrownInto u how v =
    if how = .direct then (u, none)
    else ((u.fault (.notThrowable v.typeName)).1, some (u.fault (.notThrowable v.typeName)).2) := by
  cases v <;> first | rfl | exact absurd rfl (other _)

/-- What is no exception is thrown into suspended generators. -/
theorem Worlds.refuses_direct (W : Worlds J w w') (layout : Stacks J S T) (status : w.status g = .suspended p .direct)
    (status' : w'.status h = .suspended q .direct) (other : ∀ x, v ≠ .exc x) (other' : ∀ x, v' ≠ .exc x) :
    Corresponds J.lone (Config.advance w S g (.throw v)) (Config.advance w' T h (.throw v')) := by
  simp only [Config.advance, status, status', thrownInto_other _ _ other, thrownInto_other _ _ other', if_true]
  exact W.refuses layout (.about rfl rfl rfl rfl)

/-- Something is thrown into suspended generators. -/
theorem Worlds.thrown (W : Worlds J w w') (layout : Stacks J S T) (heard : Heard S) (pair : J.names.gens g h)
    {how : Suspension} (status : w.status g = .suspended p how) (status' : w'.status h = .suspended q how)
    (alike : RoutineAlike J g.id h.id p q) (thrown : Alike J.names v v') :
    Corresponds J.lone (Config.advance w S g (.throw v)) (Config.advance w' T h (.throw v')) := by
  rcases thrown.exc? with ⟨x, x', rfl, rfl, thrown⟩ | ⟨other, other'⟩
  · simp only [Config.advance, status, status', Config.thrownInto, thrown.kind]
    by_cases stop : how = .pause ∧ x'.kind = .stopIteration
    · simp only [if_pos stop]
      exact W.breaks layout heard pair alike (.same rfl)
    · simp only [if_neg stop]
      exact (W.setStatus pair .running).raises (layout.resumes heard pair alike) thrown
  · by_cases direct : how = .direct
    · subst direct
      exact W.refuses_direct layout status status' other other'
    · simp only [Config.advance, status, status', thrownInto_other _ _ other, thrownInto_other _ _ other', if_neg direct]
      exact W.breaks layout heard pair alike (.about rfl rfl rfl rfl)

/-- What is no exception is thrown into generators that do not wait for anything. -/
theorem Worlds.refuses_throw (W : Worlds J w w') (layout : Stacks J S T) {t t' : Status (guest c)} (there : w.status g = t)
    (there' : w'.status h = t') (unpaused : t = .running ∨ t = .finished ∨ ∃ p, t = .fresh p)
    (unpaused' : t' = .running ∨ t' = .finished ∨ ∃ p, t' = .fresh p) (other : ∀ x, v ≠ .exc x) (other' : ∀ x, v' ≠ .exc x) :
    Corresponds J.lone (Config.advance w S g (.throw v)) (Config.advance w' T h (.throw v')) := by
  rw [advance_throw_other w S there other unpaused, advance_throw_other w' T there' other' unpaused']
  exact W.refuses layout (.about rfl rfl rfl rfl)

/-- Generators that were not started are advanced in a way that does not start them. -/
theorem Worlds.advances_unstarted (W : Worlds J w w') (layout : Stacks J S T) (pair : J.names.gens g h)
    (there : w.status g = .fresh p) (there' : w'.status h = .fresh q) (alike : InputAlike J.names i j) (other : i ≠ .send .none) :
    Corresponds J.lone (Config.advance w S g i) (Config.advance w' T h j) := by
  obtain ⟨-, -, kind, kind'⟩ := W.fits.gen pair
  cases alike with
  | send alike =>
      rcases alike.none? with ⟨rfl, rfl⟩ | ⟨some, some'⟩
      · exact absurd rfl other
      · rw [advance_unstarted w S there some, advance_unstarted w' T there' some', kind, kind']
        exact W.refuses layout (.same rfl)
  | throw alike =>
      rcases alike.exc? with ⟨x, x', rfl, rfl, alike⟩ | ⟨plain, plain'⟩
      · unfold Config.advance
        rw [there, there']
        exact W.leaves layout pair alike
      · exact W.refuses_throw layout there there' (.inr (.inr ⟨_, rfl⟩)) (.inr (.inr ⟨_, rfl⟩)) plain plain'

/-- Corresponding generators are advanced. -/
theorem Worlds.advances (W : Worlds J w w') (layout : Stacks J S T) (heard : Heard S) (pair : J.names.gens g h)
    (status : StatusAlike.Plain J g h (w.status g) (w'.status h)) (alike : InputAlike J.names i j) :
    Corresponds J.lone (Config.advance w S g i) (Config.advance w' T h j) := by
  obtain ⟨-, -, kind, kind'⟩ := W.fits.gen pair
  generalize there : w.status g = t at status
  generalize there' : w'.status h = t' at status
  cases status with
  | fresh routine =>
      by_cases starts : i = .send .none
      · subst starts
        cases alike with
        | send alike =>
            cases alike
            rw [advance_fresh w S there, advance_fresh w' T there']
            exact (W.setStatus pair .running).gives (layout.resumes heard pair routine) .none
      · exact W.advances_unstarted layout pair there there' alike starts
  | suspended how routine =>
      cases alike with
      | send alike =>
          rw [advance_suspended w S there, advance_suspended w' T there']
          exact (W.setStatus pair .running).gives (layout.resumes heard pair routine) alike
      | throw alike => exact W.thrown layout heard pair there there' routine alike
  | @delegating s d e below =>
      have W := W.setStatus pair .running
      have relays : Stacks J (.relaying g (.guest (.code s)) d :: S) (.relaying h (.guest (.code s)) e :: T) :=
        .cons (.relaying s pair below) (fun _ => heard) layout
      have hears : Heard (.relaying g (.guest (.code s)) d :: S : List (Activation (guest c))) := .of_head trivial
      cases alike with
      | send alike =>
          unfold Config.advance
          rw [there, there']
          exact .joint J W relays (.advance below (.send alike) hears)
      | throw alike =>
          rcases alike.exc? with ⟨x, x', rfl, rfl, alike⟩ | ⟨other, other'⟩
          · unfold Config.advance
            rw [there, there']
            dsimp only
            rw [alike.kind]
            split
            · exact .joint J W (.cons (.exiting s pair alike) (fun _ => heard) layout) (.close below)
            · exact .joint J W relays (.advance below (.throw alike) hears)
          · rw [advance_delegating w S there other, advance_delegating w' T there' other']
            exact .joint J W relays (.advance below (.throw alike) hears)
  | running =>
      cases alike with
      | send alike =>
          unfold Config.advance
          rw [there, there', kind, kind']
          exact W.refuses layout (.same rfl)
      | throw alike =>
          rcases alike.exc? with ⟨x, x', rfl, rfl, alike⟩ | ⟨other, other'⟩
          · unfold Config.advance
            rw [there, there', kind, kind']
            exact W.refuses layout (.same rfl)
          · exact W.refuses_throw layout there there' (.inl rfl) (.inl rfl) other other'
  | finished =>
      cases alike with
      | send alike =>
          unfold Config.advance
          rw [there, there', kind, kind']
          exact W.gives layout .none
      | throw alike =>
          rcases alike.exc? with ⟨x, x', rfl, rfl, alike⟩ | ⟨other, other'⟩
          · unfold Config.advance
            rw [there, there', kind, kind']
            exact W.raises layout alike
          · exact W.refuses_throw layout there there' (.inr (.inl rfl)) (.inr (.inl rfl)) other other'

/-! ## Closing -/

section Closing

variable (W : Worlds J w w') (pair : J.names.gens g h) (below : Stacks J (.closing g :: S) (.closing h :: T))

include W pair below

/-- Generators that are suspended are told to exit. -/
theorem Worlds.closes_suspended {how how' : Suspension} (there : w.status g = .suspended p how)
    (there' : w'.status h = .suspended q how') (routine : RoutineAlike J g.id h.id p q) :
    Corresponds J.lone (Config.close w S g) (Config.close w' T h) := by
  let made := w.store.newException .generatorExit [] .plain
  let made' := w'.store.newException .generatorExit [] .plain
  have keeps := W.keeps_quiet made.1 made'.1 rfl rfl
  have W' := (W.quiet made.1 made'.1 rfl rfl).setStatus (g := g) (h := h) pair .running
  unfold Config.close
  rw [there, there']
  exact W'.raises ((below.resumes (.of_head trivial) pair routine).keep keeps fun _ _ => id) (.ofArgs _ _ .nil)

/-- Generators that delegate to others close those first. -/
theorem Worlds.closes_delegating {s : c.State} (there : w.status g = .delegating (.guest (.code s)) d)
    (there' : w'.status h = .delegating (.guest (.code s)) e) (pair' : J.names.gens d e) :
    Corresponds J.lone (Config.close w S g) (Config.close w' T h) := by
  let made := w.store.newException .generatorExit [] .plain
  let made' := w'.store.newException .generatorExit [] .plain
  have keeps := W.keeps_quiet made.1 made'.1 rfl rfl
  have W' := (W.quiet made.1 made'.1 rfl rfl).setStatus (g := g) (h := h) pair .running
  have exit : Alike J.names (.exc made.2) (.exc made'.2) := .ofArgs _ _ .nil
  have hears : Heard (.closing g :: S : List (Activation (guest c))) := .of_head trivial
  have exiting := Stacks.cons (.exiting s pair exit) (fun _ => hears) below
  unfold Config.close
  rw [there, there']
  exact .joint (J.on made.1 made'.1) W' (exiting.keep keeps fun _ _ => id) (.close pair')

end Closing

/-- Corresponding generators are closed. -/
theorem Worlds.closes (W : Worlds J w w') (layout : Stacks J S T) (pair : J.names.gens g h)
    (status : StatusAlike.Plain J g h (w.status g) (w'.status h)) :
    Corresponds J.lone (Config.close w S g) (Config.close w' T h) := by
  obtain ⟨-, -, kind, kind'⟩ := W.fits.gen pair
  have below : Stacks J (.closing g :: S) (.closing h :: T) := .cons (.closing pair) (by simp [Activation.active?]) layout
  generalize there : w.status g = t at status
  generalize there' : w'.status h = t' at status
  cases status with
  | suspended how routine => exact W.closes_suspended pair below there there' routine
  | delegating s pair' => exact W.closes_delegating pair below there there' pair'
  | fresh routine =>
      unfold Config.close
      rw [there, there']
      exact (W.setStatus pair .finished).gives layout .none
  | running =>
      unfold Config.close
      rw [there, there', kind, kind']
      exact W.refuses layout (.same rfl)
  | finished =>
      unfold Config.close
      rw [there, there']
      exact W.gives layout .none

end OneShot.Split
