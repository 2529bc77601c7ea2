import OneShot.Proofs.Steps

/-!
# What is beneath

The kernel works on the topmost activations.  What is beneath those that it works on
makes no difference, until a reply comes to it.
-/

namespace OneShot.Config

variable {G : Guest} {w w' : World G} {A B : List (Activation G)} {C D : Config G} {g : Gen} {r : Reply}
  {n fuel : Nat}

/-- A configuration on top of more activations. -/
def above (C : Config G) (B : List (Activation G)) : Config G := ⟨C.world, C.stack ++ B, C.signal⟩

theorem above_leave (x : Exc) : (leave w A g x).above B = leave w (A ++ B) g x := by
  unfold leave
  dsimp only
  split <;> rfl

theorem above_await (p : Routine G) (v : Val) : (await w A g p v).above B = await w (A ++ B) g p v := by
  unfold await
  repeat' split
  all_goals rfl

theorem above_turnOf (t : Turn (Routine G)) : (turnOf w A g t).above B = turnOf w (A ++ B) g t := by
  cases t with
  | raise x => exact above_leave x
  | fault f => exact above_leave _
  | ask a p =>
      cases a with
      | await v => exact above_await p v
      | delegate v =>
          unfold turnOf
          dsimp only
          split <;> rfl
      | _ => rfl
  | _ => rfl

theorem above_turnOfCall (t : Turn (Routine G)) : (turnOfCall w A t).above B = turnOfCall w (A ++ B) t := by
  cases t with
  | ask a p => cases a <;> rfl
  | _ => rfl

theorem above_started (t : Start) : (started w A t).above B = started w (A ++ B) t := by
  cases t <;> rfl

theorem above_call (f : Val) (args : List Val) (caller : Caller) :
    (call w A f args caller).above B = call w (A ++ B) f args caller := by
  by_cases closure : ∃ id name, f = .closure id name
  · obtain ⟨id, name, rfl⟩ := closure
    simp only [call]
    generalize (G.enter w.memory id args).2 = e
    cases e <;> rfl
  · have other : ∀ id name, f ≠ .closure id name := fun id name same => closure ⟨id, name, same⟩
    rw [call_of_invoke w A args caller other, call_of_invoke w (A ++ B) args caller other]
    exact above_started _

theorem above_advance (i : Input) : (advance w A g i).above B = advance w (A ++ B) g i := by
  unfold advance
  repeat' split
  all_goals first | rfl | exact above_leave _

theorem above_close : (close w A g).above B = close w (A ++ B) g := by
  unfold close
  split <;> rfl

theorem above_deliver (a : Activation G) (r : Reply) : (deliver w a A r).above B = deliver w a (A ++ B) r := by
  cases a with
  | calling p => exact above_turnOfCall _
  | running h p => exact above_turnOf _
  | relaying h p d => cases r <;> rfl
  | closing h =>
      cases r with
      | raised x =>
          simp only [deliver]
          split <;> rfl
      | _ => rfl
  | exiting h p x => cases r <;> rfl

/-- A step that does not end a run is the same on top of more activations. -/
theorem step_above (first : C.step = .ok D) : (C.above B).step = .ok (D.above B) := by
  obtain ⟨w, A, signal⟩ := C
  cases signal with
  | reply r =>
      cases A with
      | nil => contradiction
      | cons a A =>
          cases first
          exact congrArg Except.ok (above_deliver a r).symm
  | call f args caller =>
      rw [step_call'] at first
      cases first
      exact (step_call' _ _ _ _ _).trans (congrArg Except.ok (above_call f args caller).symm)
  | advance g i =>
      rw [step_advance'] at first
      cases first
      exact (step_advance' _ _ _ _).trans (congrArg Except.ok (above_advance i).symm)
  | close g =>
      rw [step_close'] at first
      cases first
      exact (step_close' _ _ _).trans (congrArg Except.ok above_close.symm)

theorem Reaches.above (h : Reaches n C D) : Reaches n (C.above B) (D.above B) := by
  induction h with
  | refl C => exact .refl _
  | step first _ ih => exact .step (step_above first) ih

/-- A run that ends comes to what is beneath. -/
theorem run_above (ended : run fuel C = some (w, r)) : ∃ n, Reaches n (C.above B) ⟨w, B, .reply r⟩ := by
  obtain ⟨n, reached⟩ := Reaches.of_run ended
  exact ⟨n, reached.above⟩

end OneShot.Config
