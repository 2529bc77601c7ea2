import OneShot.Proofs.Joined.Blocking
import OneShot.Proofs.Frames.Passing

/-!
# Waiting in place

Code that escapes to an asynchronous driver, and the same code that does in place what
the driver would do for it: it runs the coroutine itself, and goes on with the outcome.
Awaiters, which escape for computations, block instead.
-/

namespace OneShot.Joined

/-! ## Code that waits in place -/

/-- A state of code that goes on, or that runs a coroutine before. -/
inductive Placed (σ τ : Type) where
  | going (s : σ)
  | awaiting (t : τ) (s : σ)

section

variable {σ τ : Type}

def Comp.placed (p : Comp σ) : Comp (Placed σ τ) := ⟨p.wraps.map Wrap.blocking, p.made, .going p.body⟩

def Act.placed : Act σ τ → Act (Placed σ τ) τ
  | .escape t s => .again (.value .none) (.awaiting t s)
  | act => act.map .going id Comp.placed

/-- What comes next in place of a coroutine. -/
def Move.placed (s : σ) : Move τ → Act (Placed σ τ) τ
  | .pause t => .again (.value .none) (.awaiting t s)
  | .done a => .again a (.going s)

/-- What is run by an event; it may be that of a coroutine. -/
def Event.runs? : Event σ τ → Option (Event σ τ ⊕ τ)
  | .escapes _ _ => none
  | .task t _ => some (.inr t)
  | e => some (.inl e)

/-- What is run by an event of code that waits in place. -/
def Event.runsInPlace? : Event (Placed σ τ) τ → Option (Event σ τ ⊕ τ)
  | .code (.going s) a => some (.inl (.code s a))
  | .code (.awaiting t _) _ => some (.inr t)
  | .performs (.going s) o => some (.inl (.performs s o))
  | .exit (.going s) => some (.inl (.exit s))
  | .task t _ => some (.inr t)
  | .returns i v => some (.inl (.returns i v))
  | .clause j k args => some (.inl (.clause j k args))
  | _ => none

end

variable {c : Code}

/-- The same code, where all waiting is done in place. -/
@[reducible]
def Code.placed (c : Code) : Code where
  Memory := c.Memory
  State := Placed c.State c.Task
  Task := c.Task
  step d s a :=
    match s with
    | .going s => ((c.step d s a).1, (c.step d s a).2.placed)
    | .awaiting t s => ((c.task d t).1, (c.task d t).2.placed s)
  exit d s :=
    match s with
    | .going s | .awaiting _ s => c.exit d s
  task := c.task
  onReturn i d v := ((c.onReturn i d v).1, (c.onReturn i d v).2.map Comp.placed)
  clause j d k args := ((c.clause j d k args).1, (c.clause j d k args).2.map Comp.placed)
  init := c.init

/-- The programs of code that waits in place. -/
def placing : Translation c c.placed where
  state := .going
  task := id
  comp := Comp.placed
  name := id
  blocking _ := true
  extra _ := False
  same M M' := M.data = M'.data ∧ M.log.filterMap Event.runs? = M'.log.filterMap Event.runsInPlace?

variable {M : Memory c} {M' : Memory c.placed} {J J₁ : Program c} {J' : Program c.placed}

/-- The driver runs a coroutine, which the code itself runs in place. -/
structure Waits (J : Program c) (J' : Program c.placed) (t : c.Task) (s : c.State) : Prop where
  memory : placing.same J.memory J'.memory
  slices : List.Forall₂ placing.Slices J.slices J'.slices
  stack : placing.Stacks J.stack J'.stack
  control : J.control = .task t s
  control' : J'.control = .code (.awaiting t s) (.value .none)

/-- A coroutine runs, in place or not. -/
theorem step_awaiting (same : placing.same M M') (t : c.Task) (s : c.State) (a : Deep.Answer) :
    placing.same (M.task t).1 (M'.step (.awaiting t s) a).1 ∧
      (M'.step (.awaiting t s) a).2 = (M.task t).2.placed s := by
  obtain ⟨d, log⟩ := M
  obtain ⟨_, log'⟩ := M'
  obtain ⟨rfl, same⟩ := same
  simp only [Memory.step, Memory.task, Memory.running]
  generalize c.task d t = out
  obtain ⟨d', move⟩ := out
  cases move <;>
    exact ⟨⟨rfl, by simp [Memory.noting, Move.placed, same, Event.runs?, Event.runsInPlace?]⟩, trivial⟩

theorem Waits.next {t : c.Task} {s : c.State} (waits : Waits J J' t s) :
    ∃ J₁ J₁', J.next true = .ok J₁ ∧ J'.next false = .ok J₁' ∧
      (placing.Relates J₁ J₁' ∨ ∃ t', Waits J₁ J₁' t' s) := by
  obtain ⟨same, acts⟩ := step_awaiting waits.memory t s (.value .none)
  rw [Program.next_eq, Program.next_eq, Program.step, Program.step, waits.control, waits.control']
  simp only [acts]
  cases (J.memory.task t).2 with
  | pause t' => exact ⟨_, _, rfl, rfl, .inr ⟨t', same, waits.slices, waits.stack, rfl, rfl⟩⟩
  | done a => exact ⟨_, _, rfl, rfl, .inl ⟨same, waits.slices, waits.stack, rfl⟩⟩

/-- A program from which nothing ever comes to wait for the driver. -/
def Program.Calm (J : Program c) : Prop :=
  ∀ n J', J.Steps false n J' → ∀ K t s held, J'.step ≠ .escapes K t s held

theorem Program.Calm.next (calm : J.Calm) : J.next true = J.next false := by
  have here := calm 0 J (.zero J)
  rw [Program.next_eq, Program.next_eq]
  generalize J.step = out at here ⊢
  cases out with
  | escapes K t s held => exact absurd rfl (here K t s held)
  | _ => rfl

end OneShot.Joined
