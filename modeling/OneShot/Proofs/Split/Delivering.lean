import OneShot.Proofs.Split.Serving

/-!
# What is delivered to two stacks

An outcome that is delivered to stacks of frames which correspond is answered by the same
frame, comes to the relay, or passes all frames and goes on to what is below.
-/

namespace OneShot.Split

open List (Forall₂)
open Machine (Phase deliver)

variable {N M : Names} {n : Gen} {here : Prop} {o o' : Outcome}

/-- Outcomes of two runs. -/
inductive OutcomeAlike (N : Names) : Outcome → Outcome → Prop
  | ok {v w : Val} (alike : Alike N v w) : OutcomeAlike N (.ok v) (.ok w)
  | failed {v w : Val} (alike : Alike N v w) : OutcomeAlike N (.failed v) (.failed w)

theorem OutcomeAlike.input (h : OutcomeAlike N o o') : InputAlike N o.input o'.input := by
  cases h with
  | ok alike => exact .send alike
  | failed alike => exact .throw alike

/-- The reply that tells of an outcome. -/
inductive Outcome.Tells : Outcome → Reply → Prop
  | ok (v : Val) : Tells (.ok v) (.value v)
  | failed (x : Exc) : Tells (.failed (.exc x)) (.raised x)

/-- An outcome that a machine hands on unchanged, by a reply, when it has nothing more to do. -/
inductive Outcome.Passes : Outcome → Reply → Prop
  | ok (v : Val) : Passes (.ok v) (.value v)
  | failed {x : Exc} (caught : x.isException = true) (unstopped : x.kind ≠ .stopIteration) :
      Passes (.failed (.exc x)) (.raised x)

theorem Outcome.Passes.tells {r : Reply} (h : Outcome.Passes o r) : Outcome.Tells o r := by
  cases h with
  | ok v => exact .ok v
  | failed caught unstopped => exact .failed _

/-- What machines ask for on behalf of the frame on top. -/
inductive AsksAlike (N : Names) (n : Gen) (here : Prop) : List Val → List Val → Turn Phase → Turn Phase → Prop
  | call {fs gs : List Val} {f g v w : Val} (alike : Alike N f g) (value : Alike N v w) (left : Spread N n here fs gs) :
      AsksAlike N n here fs gs (.ask (.call f [v]) .calling) (.ask (.call g [w]) .calling)
  | advance {fs gs : List Val} {g h : Gen} {i j : Input} (pair : N.gens g h) (alike : InputAlike N i j) (left : Topped N n here fs gs) :
      AsksAlike N n here fs gs (.ask (.advance g i) (.advancing (.gen g))) (.ask (.advance h j) (.advancing (.gen h)))

theorem AsksAlike.mono {there : Prop} {fs gs : List Val} {turn turn' : Turn Phase} (h : AsksAlike N n here fs gs turn turn')
    (allowed : here → there) : AsksAlike N n there fs gs turn turn' := by
  cases h with
  | call alike value left => exact .call alike value (left.mono (le_refl _) allowed)
  | advance pair alike left => exact .advance pair alike (left.mono (le_refl _) allowed)

/-- What becomes of an outcome that is delivered to `fs`, and to `gs` above `tail`. -/
inductive Delivery (N : Names) (n : Gen) (here : Prop) (o o' : Outcome) (fs gs tail : List Val) : Prop
  | asks {left left' : List Val} {turn turn' : Turn Phase} (first : ∀ s, deliver s o fs = (s, left, turn))
      (second : ∀ s, deliver s o' (gs ++ tail) = (s, left' ++ tail, turn')) (alike : AsksAlike N n here left left' turn turn')
  | relay {t : Tag} {fs' gs' : List Val} (allowed : here)
      (first : ∀ s, deliver s o fs = (s, genFrame n t :: fs', .ask (.advance n o.input) (.advancing (.gen n))))
      (second : ∀ s, deliver s o' (gs ++ tail) = deliver s o' (gs' ++ tail)) (below : Forall₂ (FrameAlike N) fs' gs')
  | ended (first : ∀ s, deliver s o fs = (s, [], o.finish)) (second : ∀ s, deliver s o' (gs ++ tail) = deliver s o' tail)

theorem deliver_gen (o : Outcome) (g : Gen) (t : Tag) (rest : List Val) (s : Store) :
    deliver s o (genFrame g t :: rest) = (s, genFrame g t :: rest, .ask (.advance g o.input) (.advancing (.gen g))) := by
  cases o <;> rfl

theorem deliver_gen_above (o : Outcome) (g : Gen) (t : Tag) (rest tail : List Val) (s : Store) :
    deliver s o (genFrame g t :: rest ++ tail) =
      (s, genFrame g t :: rest ++ tail, .ask (.advance g o.input) (.advancing (.gen g))) :=
  deliver_gen o g t (rest ++ tail) s

theorem alike_onReturn (N : Names) (l : Layer) : Alike N l.handler.onReturn l.handler.onReturn := by
  obtain ⟨onReturn, clauses⟩ := l
  cases onReturn with
  | none => exact .identity
  | some j => exact .function j

variable {fs gs : List Val}

/-- The generator on top gets what is delivered to it. -/
theorem Topped.asks (h : Topped N n here fs gs) (alike : OutcomeAlike N o o') (tail : List Val) :
    ∃ turn turn', (∀ s, deliver s o fs = (s, fs, turn)) ∧ (∀ s, deliver s o' (gs ++ tail) = (s, gs ++ tail, turn')) ∧
      AsksAlike N n here fs gs turn turn' := by
  cases h with
  | intro t u pair rest =>
      exact ⟨_, _, deliver_gen o _ t _, deliver_gen_above o' _ u _ tail, .advance pair alike.input (.intro t u pair rest)⟩

theorem Spread.delivery (h : Spread N n here fs gs) (alike : OutcomeAlike N o o') (tail : List Val) :
    Delivery N n here o o' fs gs tail := by
  induction h with
  | nil => exact .ended (fun _ => rfl) fun _ => rfl
  | @cons f g fs gs head rest ih =>
      cases head with
      | gen t u pair =>
          obtain ⟨turn, turn', first, second, asked⟩ := (Topped.intro t u pair rest).asks alike tail
          exact .asks first second asked
      | layer l t u =>
          cases alike with
          | ok value =>
              have second (w : Val) (s : Store) : deliver s (.ok w) (layerFrame l u :: gs ++ tail) =
                  (s, gs ++ tail, .ask (.call l.handler.onReturn [w]) .calling) := rfl
              exact .asks (fun _ => rfl) (second _) (.call (alike_onReturn N l) value rest)
          | failed value =>
              -- A failure passes the frames of handlers.
              cases ih with
              | asks first second asked => exact .asks first second asked
              | relay allowed first second below => exact .relay allowed first second below
              | ended first second => exact .ended first second
  | relay t allowed below => exact .relay allowed (deliver_gen o n t _) (fun _ => rfl) below

end OneShot.Split
