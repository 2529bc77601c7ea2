import OneShot.Proofs.Joined.Dispatching

/-!
# Owners

The innermost part of a stack that answers an operation, and the first of its
marks that owns the effect, are the same.
-/

namespace OneShot.Joined

variable {c : Code} {f : Part c.State} {fs above below : List (Part c.State)} {o : Operation c.Task} {w : Way c.State c.Task}

/-- The mark of a part that answers with its clause, and what is left of the marks of the part. -/
inductive Answers : Part c.State → Operation c.Task → Way c.State c.Task → Bound → Val → List (Mark c.State) → Prop
  | clause {l : Layer} {e j : Nat} {args : List Val} (clause : l.clause? e = some j) :
      Answers (.layer l) (.ask e args) (.clause j args) (.layer l) (Joined.clause j) []
  | get (i n : Nat) (v : Val) :
      Answers (.state i n v) (.get n) (.value v (.state i n v)) (.state n) StateEffect.onGet [.loop v]
  | put (i n : Nat) (v w : Val) :
      Answers (.state i n v) (.put n w) (.value .none (.state i n w)) (.state n) StateEffect.onPut
        [.loop v]
  | task (n : Nat) (blocking : Bool) (t : c.Task) :
      Answers (.await n blocking) (.await n t) (.task t blocking) (.await n blocking)
        (.native (if blocking then .onAwaitBlocking else .onAwaitAsync)) []
  | body (n j : Nat) :
      Answers (.prompt n) (.shift n j) (.clause j []) (.prompt n) (.native .applyBody) []

theorem Layer.clause?_handler (l : Layer) (e : Nat) :
    l.handler.clause? (plainEffect e) = (l.clause? e).map clause := by
  have same (p : Nat × Nat) : ((plainEffect p.1).uid == (plainEffect e).uid) = (p.1 == e) := by
    have times : 5 * p.1 = 5 * e ↔ p.1 = e := by omega
    simp [plainEffect, times]
  simp only [Handler.clause?, Layer.handler, Layer.clause?, List.find?_map, Option.map_map,
    Function.comp_def, same]

theorem Layer.clause?_other (l : Layer) {e : Effect} (other : e.uid % 5 ≠ 0) :
    l.handler.clause? e = none := by
  have differs (p : Nat × Nat) : ((plainEffect p.1).uid == e.uid) = false := by
    simp only [plainEffect, beq_eq_false_iff_ne]
    omega
  simp [Handler.clause?, Layer.handler, List.find?_map, Function.comp_def, differs]

theorem Bound.clause?_state {n : Nat} {e : Effect} (get : e.uid ≠ 5 * n + 1)
    (put : e.uid ≠ 5 * n + 2) : (Bound.state n).handler.clause? e = none := by
  simp [Bound.handler, stateEffect, Handler.clause?, getEffect, putEffect, Ne.symm get, Ne.symm put]

theorem Bound.clause?_await {n : Nat} {blocking : Bool} {e : Effect} (other : e.uid ≠ 5 * n + 3) :
    (Bound.await n blocking).handler.clause? e = none := by
  cases blocking <;>
    simp [Bound.handler, awaiter, Handler.clause?, awaitEffect, Ne.symm other]

theorem Bound.clause?_prompt {n : Nat} {e : Effect} (other : e.uid ≠ 5 * n + 4) :
    (Bound.prompt n).handler.clause? e = none := by
  simp [Bound.handler, Joined.prompt, Handler.clause?, shiftEffect, Ne.symm other]

variable {b : Bound} {v : Val} {ms : List (Mark c.State)}

theorem Answers.marks (h : Answers f o w b v ms) : f.marks = .bound b :: ms := by
  cases h <;> rfl

theorem Answers.owns (h : Answers f o w b v ms) : b.handler.clause? o.effect = some v := by
  cases h with
  | @clause l e j args clause =>
      change l.handler.clause? (plainEffect e) = _
      rw [l.clause?_handler, clause]
      rfl
  | get i n v => simp [Bound.handler, stateEffect, Handler.clause?, Operation.effect]
  | put i n v w =>
      have differs : ((getEffect n).uid == (putEffect n).uid) = false := by
        simp only [getEffect, putEffect, beq_eq_false_iff_ne]
        omega
      simp [Bound.handler, stateEffect, Handler.clause?, Operation.effect, differs]
  | task n blocking t =>
      cases blocking <;> simp [Bound.handler, awaiter, Handler.clause?, Operation.effect]
  | body n j => simp [Bound.handler, Joined.prompt, Handler.clause?, Operation.effect]

theorem Part.way?_some (h : f.way? o = some w) : ∃ b v ms, Answers f o w b v ms := by
  unfold Part.way? at h
  split at h
  · obtain ⟨j, clause, rfl⟩ := Option.map_eq_some_iff.1 h
    exact ⟨_, _, _, .clause clause⟩
  · split at h <;> cases h
    subst_vars
    exact ⟨_, _, _, .get _ _ _⟩
  · split at h <;> cases h
    subst_vars
    exact ⟨_, _, _, .put _ _ _ _⟩
  · split at h <;> cases h
    subst_vars
    exact ⟨_, _, _, .task _ _ _⟩
  · split at h <;> cases h
    subst_vars
    exact ⟨_, _, _, .body _ _⟩
  · contradiction

theorem Part.way?_none (h : f.way? o = none) : Free o.effect f.marks := by
  intro b mem
  cases f with
  | code s => simp [Part.marks] at mem
  | layer l =>
      obtain rfl : b = .layer l := by simpa [Part.marks] using mem
      cases o with
      | ask e args =>
          have clause : l.clause? e = none := by simpa [Part.way?] using h
          exact (l.clause?_handler e).trans (by rw [clause]; rfl)
      | _ =>
          exact l.clause?_other (by
            simp only [Operation.effect, getEffect, putEffect, awaitEffect, shiftEffect]
            omega)
  | state i n v =>
      obtain rfl : b = .state n := by simpa [Part.marks] using mem
      cases o <;> refine Bound.clause?_state ?_ ?_ <;>
        simp [Part.way?, Operation.effect, plainEffect, getEffect, putEffect, awaitEffect,
          shiftEffect] at h ⊢ <;>
        omega
  | await n blocking =>
      obtain rfl : b = .await n blocking := by simpa [Part.marks] using mem
      cases o <;> refine Bound.clause?_await ?_ <;>
        simp [Part.way?, Operation.effect, plainEffect, getEffect, putEffect, awaitEffect,
          shiftEffect] at h ⊢ <;>
        omega
  | prompt n =>
      obtain rfl : b = .prompt n := by simpa [Part.marks] using mem
      cases o <;> refine Bound.clause?_prompt ?_ <;>
        simp [Part.way?, Operation.effect, plainEffect, getEffect, putEffect, awaitEffect,
          shiftEffect] at h ⊢ <;>
        omega

theorem owner?_none (h : owner? o fs = none) : Free o.effect (stackMarks fs) := by
  induction fs with
  | nil => exact .nil
  | cons f fs ih =>
      simp only [owner?] at h
      split at h
      · contradiction
      · rename_i passes
        rw [stackMarks_cons]
        exact free_append.2 ⟨Part.way?_none passes, ih (by simpa using h)⟩

theorem owner?_some (h : owner? o fs = some ⟨above, f, w, below⟩) :
    fs = above ++ f :: below ∧ Free o.effect (stackMarks above) ∧ ∃ b v ms, Answers f o w b v ms := by
  induction fs generalizing above with
  | nil => contradiction
  | cons f' fs ih =>
      simp only [owner?] at h
      split at h
      · rename_i found
        cases h
        exact ⟨rfl, .nil, Part.way?_some found⟩
      · rename_i passes
        obtain ⟨⟨above', f'', w', below'⟩, found, same⟩ := Option.map_eq_some_iff.1 h
        cases same
        obtain ⟨rfl, free, answers⟩ := ih found
        refine ⟨rfl, ?_, answers⟩
        rw [stackMarks_cons]
        exact free_append.2 ⟨Part.way?_none passes, free⟩

end OneShot.Joined
