import OneShot.Store

/-!
# Prompts

Delimited control: `reset` installs the handler of a prompt around a
computation, and `shift` performs the prompt's effect with a body, which is
applied to the continuation in the place of the delimited computation.
-/

namespace OneShot

/-- A new prompt: its effect, and the handler that applies bodies. -/
def Store.newPrompt (s : Store) : Store × Prompt :=
  let (s, shift) := s.freshEffect (.str "Shift0Reset#shift0")
  let (s, id) := s.freshId
  (s, ⟨shift, id, .native .identity, [(shift, .native .applyBody)]⟩)

end OneShot
