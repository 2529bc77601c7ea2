import OneShot.Value
import OneShot.Fault

/-!
# Turns

Running code, of a program or of the library, goes by turns.  A turn ends by
asking for something, by going on, or for good; the reply to what was asked
starts the next one.
-/

namespace OneShot

/-- What is passed into a suspended generator. -/
inductive Input where
  | send (v : Val)
  | throw (v : Val)

inductive Reply where
  | value (v : Val)
  | raised (x : Exc)
  /-- The generator that was advanced has suspended with this value. -/
  | yielded (v : Val)

namespace Reply

/-- A stop that comes out of a generator is its end, with the value of the stop. -/
def ended : Reply → Reply
  | .raised x => if x.kind = .stopIteration then .value x.stopValue else .raised x
  | r => r

end Reply

/-- How a suspended generator takes what is thrown into it. -/
inductive Suspension where
  /-- At its own suspension point; what is no exception comes back to the thrower. -/
  | direct
  /-- Through a step inside it, in which the throw of what is no exception fails. -/
  | inner
  /-- Likewise, and a stop fails in that step as well. -/
  | pause
  deriving DecidableEq, Repr, Inhabited

inductive Ask where
  | call (f : Val) (args : List Val)
  | advance (g : Gen) (i : Input)
  | close (g : Gen)
  | yield (v : Val) (how : Suspension)
  /-- Let a generator run in the place of this one, to its result. -/
  | delegate (v : Val)
  /-- Likewise for a coroutine. -/
  | await (v : Val)

namespace Ask

/-- Closing a value: generators and continuations can be closed. -/
def closing : Val → Ask
  | .gen g => .close g
  | v => .call (.native (.service .close)) [v]

end Ask

inductive Turn (σ : Type) where
  | ask (a : Ask) (next : σ)
  | more (next : σ)
  | done (v : Val)
  | raise (x : Exc)
  | fault (f : Fault)

namespace Turn

def map {σ τ : Type} (f : σ → τ) : Turn σ → Turn τ
  | .ask a next => .ask a (f next)
  | .more next => .more (f next)
  | .done v => .done v
  | .raise x => .raise x
  | .fault e => .fault e

/-- Raises a value, which may turn out to be no exception. -/
def raiseValue {σ : Type} : Val → Turn σ
  | .exc x => .raise x
  | _ => .fault .notRaisable

end Turn

end OneShot
