import OneShot.Proofs.Beneath
import OneShot.Proofs.Settling

/-!
# What code remembers

Only code changes what code remembers.  So whatever holds of its memory before and after
each of its own turns and calls holds along a run.
-/

namespace OneShot.Config

variable {G : Guest} {w : World G} {stack : List (Activation G)} {g : Gen} {C D : Config G} {R : G.Memory → G.Memory → Prop}

/-! ## Steps that leave the memory alone -/

theorem memory_turnOfCall (t : Turn (Routine G)) : (turnOfCall w stack t).world.memory = w.memory := by
  cases t with
  | ask a p => cases a <;> rfl
  | _ => rfl

theorem memory_started (t : Start) : (started w stack t).world.memory = w.memory := by
  cases t <;> rfl

theorem memory_thrownInto (how : Suspension) (v : Val) : (thrownInto w how v).1.memory = w.memory := by
  cases v with
  | exc x =>
      simp only [thrownInto]
      split <;> rfl
  | _ =>
      simp only [thrownInto]
      split <;> rfl

theorem memory_advance (i : Input) : (advance w stack g i).world.memory = w.memory := by
  unfold advance
  repeat' split
  all_goals first
    | rfl
    | exact memory_leave _ _ _ _
    | rename_i thrown
      exact (congrArg (fun out => out.1.memory) thrown).symm.trans (memory_thrownInto _ _)

theorem memory_close : (close w stack g).world.memory = w.memory := by
  unfold close
  split <;> rfl

/-! ## Steps of code -/

/-- What relates the memories before and after each turn and call of code. -/
structure Relates (R : G.Memory → G.Memory → Prop) : Prop where
  refl : ∀ m, R m m
  trans : ∀ {l m n}, R l m → R m n → R l n
  enter : ∀ m id args, R m (G.enter m id args).1
  step : ∀ m b r, R m (G.step m b r).1

namespace Relates

variable (relates : Relates R)

include relates

theorem of_eq {m n : G.Memory} (same : n = m) : R m n := same ▸ relates.refl m

theorem routine (p : Routine G) (r : Reply) : R w.memory (p.step w r).1.memory := by
  cases p with
  | guest b => exact relates.step w.memory b r
  | library p => exact relates.refl w.memory

theorem deliver (a : Activation G) (r : Reply) : R w.memory (deliver w a stack r).world.memory := by
  cases a with
  | calling p =>
      simp only [Config.deliver, memory_turnOfCall]
      exact relates.routine p r
  | running g p =>
      simp only [Config.deliver, memory_turnOf]
      exact relates.routine p r
  | relaying g p d => cases r <;> exact relates.refl _
  | closing g =>
      cases r with
      | raised x =>
          simp only [Config.deliver]
          split <;> exact relates.refl _
      | _ => exact relates.refl _
  | exiting g p x => cases r <;> exact relates.refl _

theorem call (f : Val) (args : List Val) (caller : Caller) : R w.memory (call w stack f args caller).world.memory := by
  by_cases closure : ∃ id name, f = .closure id name
  · obtain ⟨id, name, rfl⟩ := closure
    simp only [Config.call]
    generalize (G.enter w.memory id args).2 = e
    cases e <;> exact relates.enter w.memory id args
  · rw [call_of_invoke w stack args caller fun id name same => closure ⟨id, name, same⟩, memory_started]
    exact relates.refl _

theorem of_step (first : C.step = .ok D) : R C.world.memory D.world.memory := by
  obtain ⟨w, stack, signal⟩ := C
  cases signal with
  | reply r =>
      cases stack with
      | nil => cases first
      | cons a stack =>
          cases first
          exact relates.deliver a r
  | call f args caller =>
      rw [step_call'] at first
      cases first
      exact relates.call f args caller
  | advance g i =>
      rw [step_advance'] at first
      cases first
      exact relates.of_eq (memory_advance i)
  | close g =>
      rw [step_close'] at first
      cases first
      exact relates.of_eq memory_close

theorem of_reaches {n : Nat} (reached : Reaches n C D) : R C.world.memory D.world.memory := by
  induction reached with
  | refl C => exact relates.refl _
  | step first rest ih => exact relates.trans (relates.of_step first) ih

end Relates

end OneShot.Config
