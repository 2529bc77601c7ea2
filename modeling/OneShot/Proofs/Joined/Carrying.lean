import OneShot.Proofs.Joined.Setup
import Mathlib.Data.List.Forall2

/-!
# Carrying out a program

When a configuration of the kernel carries out a program over one stack.  What
runs is on top of levels whose marks are those of the stack; what is suspended
are the slices that code has numbers for.
-/

namespace OneShot.Joined

open Config (Leads)
open Deep (Failure Result)

variable {c : Code}

/-! ## Drivers -/

/-- What may drive the outermost machine, with its facts. -/
abbrev Drivers (c : Code) := Base c → Facts (guest c) → Prop

/-- What drives the machine of a run: an asynchronous driver is run by a loop. -/
inductive Driver : Bool → Drivers c
  | sync : Driver false (fun g => [.calling (.library (.execute (.running g)))]) 0
  | async (d : Gen) (n : Nat) (outer : Bool) :
      Driver true (fun g => [.running d (.library (.executeAsync (.running g n))),
        .calling (.library (.loop (.running d outer))), .calling (.guest .passing)])
        {.gen d.id .running}

/-! ## What the guest remembers -/

/-- What a program has in common with the memory of the guest and its continuations. -/
structure Recalls (J : Program c) (es : List (Entry c)) (mem : Memo c) : Prop where
  memory : mem.memory = J.memory
  handles : mem.handles = es.map Entry.cont
  slices : List.Forall₂ Entry.Shows es J.slices

variable {J J' : Program c} {es : List (Entry c)} {mem mem' : Memo c}

/-- Nothing depends on the stack and on what is done next. -/
theorem Recalls.of_eq (h : Recalls J es mem) (memory : J'.memory = J.memory)
    (slices : J'.slices = J.slices) : Recalls J' es mem :=
  ⟨h.memory.trans memory.symm, h.handles, slices ▸ h.slices⟩

theorem Recalls.agrees (h : Recalls J es mem) (agrees : mem.Agrees mem') : Recalls J es mem' :=
  ⟨agrees.memory.trans h.memory, agrees.handles.trans h.handles, h.slices⟩

/-! ## Carrying out -/

/-- A body that goes on with the code of a computation. -/
def Goes (b : Body c) (r : Reply) (s : c.State) (a : Deep.Answer) : Prop :=
  ∀ m : Memo c, Body.step m b r = Body.run m s a

theorem goes_waiting (s : c.State) (a : Deep.Answer) : Goes (.waiting s) a.reply s a := by
  intro m
  simp only [Body.step, Deep.Answer.ofReply?_reply]

theorem goes_going (s : c.State) (a : Deep.Answer) (r : Reply) : Goes (.going s a) r s a := by
  intro m
  cases r <;> rfl

/-- The code of a computation goes on with an answer. -/
def Going (V : Drivers c) (J : Program c) (s : c.State) (a : Deep.Answer) (C : Config (guest c)) :
    Prop :=
  ∃ D B es mem b r, V D B ∧ Recalls J es mem ∧ Goes b r s a ∧
    Running D (.guest b) r (stackMarks J.stack) mem (entryFacts es + B) C

/-- It does not matter what is done next. -/
theorem Going.of_eq {V : Drivers c} {s : c.State} {a : Deep.Answer} {C : Config (guest c)}
    (h : Going V J s a C) (memory : J'.memory = J.memory) (slices : J'.slices = J.slices)
    (stack : J'.stack = J.stack) : Going V J' s a C := by
  obtain ⟨D, B, es, mem, b, r, driver, recalls, goes, running⟩ := h
  exact ⟨D, B, es, mem, b, r, driver, recalls.of_eq memory slices, goes, stack ▸ running⟩

/-- A loop that runs a coroutine. -/
def looping (d : Gen) (outer : Bool) : Activation (guest c) :=
  .calling (.library (.loop (.running d outer)))

/-- A configuration that carries out a program. -/
inductive Carries (V : Drivers c) (J : Program c) (C : Config (guest c)) : Prop
  | code {s : c.State} {a : Deep.Answer} (control : J.control = .code s a)
      (going : Going V J s a C)
  /-- A result that is about to be delivered to code. -/
  | answering {r : Result} {s : c.State} {fs : List (Part c.State)} (control : J.control = .result r)
      (stack : J.stack = .code s :: fs) (going : Going V { J with stack := fs } s r.answer C)
  | result {r : Result} {D : Base c} {B : Facts (guest c)} {es : List (Entry c)} {mem : Memo c}
      (control : J.control = .result r) (driver : V D B) (recalls : Recalls J es mem)
      (arrived : Arrived D r mem (entryFacts es + B) (stackMarks J.stack) C)
  /-- A coroutine is run by a loop; with what it ends with, the code goes on. -/
  | task {t : c.Task} {s : c.State} {d : Gen} {hs : List (Hop (guest c))} {outer : Bool}
      {A : List (Activation (guest c))} {F : Facts (guest c)} {mem : Memo c}
      (control : J.control = .task t s) (memory : mem.memory = J.memory)
      (here : At (.running d (.guest (Body.task t)) ::
          (relayingHops d hs ++ looping (bottom d hs) outer :: A)) (.reply (.value .none)) mem
        ({.gen d.id .running} + (runningHops hs + F)) C)
      (ends : ∀ (a : Deep.Answer) (M : Memory c) (C' : Config (guest c)),
        At (relayingHops d hs ++ looping (bottom d hs) outer :: A) (.reply a.reply)
          { mem with memory := M } (runningHops hs + F) C' →
        Leads 0 C' (Going V { J with memory := M } s a))

/-! ## What the guest remembers then -/

theorem Going.memory {V : Drivers c} {s : c.State} {a : Deep.Answer} {C : Config (guest c)} (h : Going V J s a C) :
    C.world.memory.memory = J.memory := by
  obtain ⟨D, B, es, mem, b, r, driver, recalls, goes, d, L, Ls, marked, w, rfl, rfl, -⟩ := h
  exact recalls.memory

theorem Arrived.memory {D : Base c} {r : Result} {F : Facts (guest c)} {ms : List (Mark c.State)}
    {C : Config (guest c)} (h : Arrived D r mem F ms C) : C.world.memory = mem := by
  cases h with
  | bound here => exact here.memory
  | _ here =>
      obtain ⟨w, rfl, rfl, -⟩ := here
      rfl

theorem Carries.memory {V : Drivers c} {C : Config (guest c)} (h : Carries V J C) : C.world.memory.memory = J.memory := by
  cases h with
  | code control h => exact h.memory
  | answering control stack h => exact h.memory
  | task control memory here =>
      obtain ⟨w, rfl, rfl, -⟩ := here
      exact memory
  | result control driver recalls arrived => rw [arrived.memory, recalls.memory]

end OneShot.Joined
