import OneShot.Change
import OneShot.Text.Template

/-!
# The errors of the engine

Each states its cause in a message that is composed when the error is made.
-/

namespace OneShot

open Change

/-- The text of the place where an invocation was made, which is a context or a template. -/
def placeText : Val → Change String
  | .context c => ask c.text
  | .str t =>
    match Text.Template.fill t.toList with
    | .ok cs => pure (String.ofList cs)
    | .error (.malformed reason) => fail (.badTemplate reason)
    | .error (.place i) => fail (.noReplacement i)
    | .error (.name x) => raise .key [.str x]
  | v => fail (.noField v "format")

/-- Fails if the place of the invocation has no text. -/
def uncaughtEffectError (invocation effect context : Val) : Change Exc := do
  let place ← match context with
    | .none => pure ""
    | c => pure ("\n  raised at " ++ (← placeText c))
  let cause ← ask (·.str effect)
  make (·.newException .uncaughtEffect
    [.str ("uncaught effect is found: " ++ cause ++ place)] (.uncaught invocation effect))

namespace Store

def doubleResumeError (s : Store) (k : Val) : Store × Exc :=
  s.newException .doubleResume
    [.str ("continuation cannot be called twice: " ++ s.repr k)] (.doubleResume k)

/-- The hint is left out unless it counts as true. -/
def invalidInvocationError (s : Store) (v hint : Val) : Store × Exc :=
  s.newException .invalidInvocation
    [.str ("invalid invocation is found: " ++ s.repr v ++
      if s.truth hint then "\nHint: " ++ s.str hint else "")] (.invalid v)

end Store

end OneShot
