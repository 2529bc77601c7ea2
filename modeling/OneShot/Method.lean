import OneShot.Fault

/-!
# Methods

The operations that come with an object.  Asked for by its name, a method is a
function that has the object as its first argument already.
-/

namespace OneShot

/-- An operation on an object, and what it needs besides the object. -/
structure Method where
  name : String
  required : List String
  optional : Nat
  code : Native

/-- The methods of an object. -/
def Val.methods : Val → List Method
  | .cont _ => [
    ⟨"mark_consumed", [], 0, .op .markConsumed⟩, ⟨"resume", [], 1, .service .resume⟩,
    ⟨"throw", ["error"], 0, .service .throwInto⟩, ⟨"close", [], 0, .service .close⟩]
  | .handler _ => [⟨"handle", ["computation"], 0, .service .handle⟩]
  | .machine _ => [⟨"run", [], 0, .service .runMachine⟩]
  | .context _ => [⟨"format", [], 0, .op .formatContext⟩]
  | .state _ => [⟨"run", ["init", "computation"], 0, .service .runState⟩]
  | .prompt _ => [
    ⟨"shift0", ["f"], 0, .service .shift⟩, ⟨"reset", ["computation"], 0, .service .reset⟩]
  | .awaiter _ => [
    ⟨"await_", ["awaitable"], 0, .service .awaitEffect⟩,
    ⟨"async_", ["computation"], 0, .service .awaitAsync⟩,
    ⟨"blocking", ["computation"], 0, .service .awaitBlocking⟩]
  | _ => []

def Val.method? (v : Val) (name : String) : Option Method := v.methods.find? (·.name == name)

/-- What a method is called with, the object apart. -/
def Method.signature (m : Method) (object : Val) : Signature :=
  ⟨object.className ++ "." ++ m.name, 1, m.required, m.optional⟩

theorem Val.name_of_method? {v : Val} {name : String} {m : Method}
    (h : v.method? name = some m) : m.name = name := by
  simpa using List.find?_some h

end OneShot
