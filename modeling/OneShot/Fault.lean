import OneShot.Value

/-!
# Faults

The causes for which the runtime itself raises an exception, with the kind and
the wording of each.  Types are given by their names.
-/

namespace OneShot

inductive Fault where
  | badOperands (operator : String)
  | divisionByZero
  | outOfRange (type : String)
  | assignmentOutOfRange
  | indexTooBig
  | depthTooBig
  | notIndexable (type : String)
  | notAssignable (type : String)
  | badListIndex (type : String)
  | badTextIndex (type : String)
  | popEmpty
  | popSurplus
  | noLength (type : String)
  | notInteger (type : String)
  | notText (type : String)
  | nullByte
  | notIterable (type : String)
  | notIterator (type : String)
  | notPairs
  | unhashable (type : String)
  | notCallable (type : String)
  | noField (object : Val) (field : String)
  | badFieldName (type : String)
  | unbound (name : String)
  /-- A function of the program called with a wrong number of arguments. -/
  | arity (function : String) (expected given : Nat)
  /-- A library function called with too few arguments; lists the missing ones. -/
  | missing (function : String) (parameters : List String)
  /-- A library function called with too many arguments. -/
  | surplus (function : String) (least most given : Nat)
  | notRaisable
  | notThrowable (type : String)
  | notDelegate
  | notSuspendable
  | notAwaitable (type : String)
  | reawaited
  | awaitedTwice
  | loopRunning
  | executing (kind : GenKind)
  | unstartedSend (kind : GenKind)
  | escapedStop (kind : GenKind)
  | ignoredExit (kind : GenKind)
  | notGenerator (type : String)
  | notComputation (type : String)
  | clauseKey (type : String)
  /-- A template refers to an argument by its place, but there are none. -/
  | noReplacement (place : Nat)
  | badTemplate (reason : String)
  | misused (types : String)

namespace Fault

def kind : Fault → Kind
  | .divisionByZero => .zeroDivision
  | .depthTooBig => .overflow
  | .outOfRange _ | .assignmentOutOfRange | .indexTooBig | .popEmpty | .noReplacement _ => .index
  | .noField .. => .field
  | .unbound _ => .name
  | .executing _ | .nullByte | .badTemplate _ => .value
  | .reawaited | .awaitedTwice | .loopRunning | .escapedStop _ | .ignoredExit _ => .runtime
  | _ => .type

/-- `1 argument`, `2 arguments`. -/
private def counted (n : Nat) (noun : String) : String :=
  s!"{n} {noun}" ++ if n = 1 then "" else "s"

/-- `'a'`, `'a' and 'b'`, `'a', 'b', and 'c'`. -/
private def enumerated : List String → String
  | [] => ""
  | [a] => s!"'{a}'"
  | [a, b] => s!"'{a}' and '{b}'"
  | as => match as.reverse with
    | [] => ""
    | z :: rest =>
      String.intercalate ", " (rest.reverse.map fun a => s!"'{a}'") ++ s!", and '{z}'"

/-- A class is called by its own name, and other objects by that of their class. -/
private def owner : Val → String
  | .native (.report r) => s!"type object '{(Native.report r).name}'"
  | v => s!"'{v.typeName}' object"

def message : Fault → String
  | .badOperands o => s!"bad operands for {o}"
  | .divisionByZero => "integer division or modulo by zero"
  | .outOfRange t => if t = "str" then "string index out of range" else "list index out of range"
  | .assignmentOutOfRange => "list assignment index out of range"
  | .indexTooBig => "cannot fit 'int' into an index-sized integer"
  | .depthTooBig => "Python int too large to convert to C int"
  | .notIndexable t => s!"'{t}' object is not subscriptable"
  | .notAssignable t => s!"'{t}' object does not support item assignment"
  | .badListIndex t => s!"list indices must be integers or slices, not {t}"
  | .badTextIndex t => s!"string indices must be integers, not '{t}'"
  | .popEmpty => "pop from empty list"
  | .popSurplus => "pop expected at most 1 argument, got 2"
  | .noLength t => s!"object of type '{t}' has no len()"
  | .notInteger t => s!"'{t}' object cannot be interpreted as an integer"
  | .notText t => s!"str expected, not {t}"
  | .nullByte => "embedded null byte"
  | .notIterable t => s!"'{t}' object is not iterable"
  | .notIterator t => s!"'{t}' object is not an iterator"
  | .notPairs => "cannot convert dictionary update sequence element #0 to a sequence"
  | .unhashable t => s!"unhashable type: '{t}'"
  | .notCallable t => s!"'{t}' object is not callable"
  | .noField v a => owner v ++ s!" has no attribute '{a}'"
  | .badFieldName t => s!"attribute name must be string, not '{t}'"
  | .unbound x => s!"name '{x}' is not defined"
  | .arity f e g => s!"{f}() takes {e} arguments but {g} were given"
  | .missing f ps =>
    s!"{f}() missing " ++ counted ps.length "required positional argument" ++ ": " ++ enumerated ps
  | .surplus f least most g =>
    s!"{f}() takes " ++
      (if least = most then counted most "positional argument"
       else s!"from {least} to {most} positional arguments") ++
      s!" but {g} " ++ (if g = 1 then "was" else "were") ++ " given"
  | .notRaisable => "exceptions must derive from BaseException"
  | .notThrowable t =>
    s!"exceptions must be classes or instances deriving from BaseException, not {t}"
  | .notDelegate => "yf needs a generator"
  | .notSuspendable => "a plain function cannot suspend"
  | .notAwaitable t => s!"object {t} can't be used in 'await' expression"
  | .reawaited => "cannot reuse already awaited coroutine"
  | .awaitedTwice => "coroutine is being awaited already"
  | .loopRunning => "asyncio.run() cannot be called from a running event loop"
  | .executing k => s!"{k.text} already executing"
  | .unstartedSend k => s!"can't send non-None value to a just-started {k.text}"
  | .escapedStop k => s!"{k.text} raised StopIteration"
  | .ignoredExit k => s!"{k.text} ignored GeneratorExit"
  | .notGenerator t => s!"Callable did not return a generator, got {t}"
  | .notComputation t => s!"Cannot convert {t} to generator"
  | .clauseKey t => s!"Handler clauses must be keyed by EffectInstance, got {t}"
  | .noReplacement i => s!"Replacement index {i} out of range for positional args tuple"
  | .badTemplate r => r
  | .misused ts => s!"no such operation on {ts}"

def detail : Fault → Detail
  | .noField v a => .missing v a
  | _ => .plain

end Fault

/-- What a library function is called with. -/
structure Signature where
  function : String
  /-- How many arguments come with the call itself, such as the object of a method. -/
  bound : Nat
  required : List String
  optional : Nat

/-- The fault of a call with a wrong number of arguments. -/
def Signature.fault? (g : Signature) (given : Nat) : Option Fault :=
  let least := g.required.length
  if given < least then some (.missing g.function (g.required.drop given))
  else if given ≤ least + g.optional then none
  else some (.surplus g.function (g.bound + least) (g.bound + least + g.optional) (g.bound + given))

theorem Signature.fault?_eq_none_iff (g : Signature) (given : Nat) :
    g.fault? given = none ↔
      g.required.length ≤ given ∧ given ≤ g.required.length + g.optional := by
  simp only [Signature.fault?]
  split
  · simp; omega
  · split <;> simp <;> omega

end OneShot
