/-!
# Exception kinds

Every exception has a kind, and the kinds form a tree.  A kind *is a* kind `a`
when `a` lies on its path to the root.  The engine turns an exception into a
failure that travels down its stack only if its kind is an `exception`; the
others (`base`, `generatorExit`, `fatal`) leave the machine at once.
-/

namespace OneShot

inductive Kind where
  | base
  | generatorExit
  | fatal
  | exception
  | value
  | lookup
  | index
  | key
  | arithmetic
  | zeroDivision
  | overflow
  | runtime
  | type
  | name
  | field
  | assertion
  | os
  | timeout
  | stopIteration
  | engine
  | doubleResume
  | invalidInvocation
  | uncaughtEffect
  deriving DecidableEq, Repr, Inhabited

namespace Kind

/-- The kinds on the path from a kind to the root, without the kind itself. -/
def ancestors : Kind → List Kind
  | .base => []
  | .generatorExit | .fatal | .exception => [.base]
  | .index | .key => [.lookup, .exception, .base]
  | .zeroDivision | .overflow => [.arithmetic, .exception, .base]
  | .timeout => [.os, .exception, .base]
  | .doubleResume | .invalidInvocation | .uncaughtEffect => [.engine, .exception, .base]
  | _ => [.exception, .base]

def isA (k a : Kind) : Bool := k == a || k.ancestors.contains a

def isException (k : Kind) : Bool := k.isA .exception

def text : Kind → String
  | .base => "BaseException"
  | .generatorExit => "GeneratorExit"
  | .fatal => "Fatal"
  | .exception => "Exception"
  | .value => "ValueError"
  | .lookup => "LookupError"
  | .index => "IndexError"
  | .key => "KeyError"
  | .arithmetic => "ArithmeticError"
  | .zeroDivision => "ZeroDivisionError"
  | .overflow => "OverflowError"
  | .runtime => "RuntimeError"
  | .type => "TypeError"
  | .name => "NameError"
  | .field => "AttributeError"
  | .assertion => "AssertionError"
  | .os => "OSError"
  | .timeout => "TimeoutError"
  | .stopIteration => "StopIteration"
  | .engine => "HandleffError"
  | .doubleResume => "DoubleResumeError"
  | .invalidInvocation => "InvalidInvocationError"
  | .uncaughtEffect => "UncaughtEffectError"

def all : List Kind :=
  [.base, .generatorExit, .fatal, .exception, .value, .lookup, .index, .key, .arithmetic,
    .zeroDivision, .overflow, .runtime, .type, .name, .field, .assertion, .os, .timeout,
    .stopIteration, .engine, .doubleResume, .invalidInvocation, .uncaughtEffect]

def ofText? (s : String) : Option Kind := all.find? (·.text == s)

theorem mem_all (k : Kind) : k ∈ all := by cases k <;> decide

@[simp] theorem isA_refl (k : Kind) : k.isA k = true := by simp [isA]

theorem isA_base (k : Kind) : k.isA .base = true := by cases k <;> decide

end Kind

end OneShot
