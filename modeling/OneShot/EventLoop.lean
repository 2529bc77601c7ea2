import OneShot.Store
import OneShot.Turn
import OneShot.Display

/-!
# Event loops

A loop advances coroutines until they are done.  With several of them it goes
round robin: one runs until it gives way and then goes to the end of the queue.

Code that is run by a loop cannot start another one, but it can have something
run on a loop elsewhere and wait for that.  So a loop leaves the mark of a
running loop as it found it.
-/

namespace OneShot

namespace Loop

/-- A loop over one coroutine; `outer` tells whether one was running before it. -/
inductive Phase where
  | start (g : Gen)
  | running (g : Gen) (outer : Bool)

def step (s : Store) : Phase → Reply → Store × Turn Phase
  | .start g, _ =>
    let outer := s.looping
    ({ s with looping := true }, .ask (.advance g (.send .none)) (.running g outer))
  | .running g outer, .yielded _ => (s, .ask (.advance g (.send .none)) (.running g outer))
  | .running _ outer, .value v => ({ s with looping := outer }, .done v)
  | .running _ outer, .raised x => ({ s with looping := outer }, .raise x)

end Loop

namespace Gather

/-- A coroutine and the place of its answer. -/
structure Task where
  place : Nat
  coroutine : Gen

structure Progress where
  queue : List Task
  answers : List (Nat × Val)
  outer : Bool

inductive Phase where
  | start (queue : List Task)
  | running (t : Task) (p : Progress)

def next (s : Store) (p : Progress) : Store × Turn Phase :=
  match p.queue with
  | t :: queue =>
    (s, .ask (.advance t.coroutine (.send .none)) (.running t { p with queue }))
  | [] =>
    let answers := (List.range p.answers.length).map fun i => (p.answers.lookup i).getD .none
    let (s, v) := s.newList answers.toArray
    ({ s with looping := p.outer }, .done v)

def answer (s : Store) (p : Progress) (t : Task) (parts : List Val) : Store × Turn Phase :=
  let (s, v) := s.newList parts.toArray
  next s { p with answers := (t.place, v) :: p.answers }

def step (s : Store) : Phase → Reply → Store × Turn Phase
  | .start queue, _ =>
    let outer := s.looping
    next { s with looping := true } ⟨queue, [], outer⟩
  | .running t p, .yielded _ => next s { p with queue := p.queue ++ [t] }
  | .running t p, .value v => answer s p t [.str "ok", v]
  | .running t p, .raised x =>
    answer s p t [.str "err", .str x.kind.text, .str (s.message x)]

end Gather

end OneShot
