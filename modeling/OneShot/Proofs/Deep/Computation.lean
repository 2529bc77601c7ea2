import OneShot.Kernel

/-!
# Computations with deep handlers

A computation returns a value, raises an exception, or performs an effect and
goes on with a reply.  A handler answers some effects by clauses.  A clause may
use the continuation that it gets once: it holds it at first, and is an ordinary
computation after it has resumed it.  So it cannot resume it twice.

`eval` is the semantics of computations under handlers, by recursion on fuel.
-/

namespace OneShot.Deep

/-- An exception that travels through handlers as a failure. -/
structure Failure where
  exc : Exc
  isException : exc.isException = true
  noStop : exc.kind ≠ .stopIteration

/-- What a computation goes on with. -/
inductive Answer where
  | value (v : Val)
  | failed (x : Failure)

/-- What a computation ends with.  A generator object would not be an end, but be run in turn. -/
inductive Result where
  | value (v : Val) (h : v.generator? = none)
  | failed (x : Failure)

def Result.answer : Result → Answer
  | .value v _ => .value v
  | .failed x => .failed x

/-- What a computation does next. -/
inductive Act (σ : Type) where
  | done (r : Result)
  | perform (e : Effect) (args : List Val) (next : σ)

/-- What a clause does next that holds a continuation. -/
inductive HeldAct (σ τ : Type) where
  | act (a : Act σ)
  | resume (b : Answer) (next : τ)

/-- What the call of a return handler comes to: a plain result, or a computation to run. -/
inductive Opening (σ : Type) where
  | result (r : Result)
  | run (s : σ)

/-- What the call of a clause comes to; a plain function may pass the resumption on. -/
inductive HeldOpening (σ : Type) where
  | result (r : Result)
  | resume (b : Answer)
  | run (s : σ)

/-- Code of computations, return handlers and clauses.  Functions are known by numbers. -/
structure Code where
  Plain : Type
  Holding : Type
  plain : Plain → Answer → Act Plain
  holding : Holding → Answer → HeldAct Holding Plain
  onReturn : Nat → Val → Opening Plain
  clause : Nat → List Val → HeldOpening Holding

/-- A handler by the numbers of its functions. -/
structure Layer where
  id : Nat
  onReturn : Option Nat
  clauses : List (Effect × Nat)

namespace Layer

def clause? (l : Layer) (e : Effect) : Option Nat :=
  (l.clauses.find? fun c => c.1.uid == e.uid).map Prod.snd

end Layer

/-- A computation in progress, under handlers. -/
inductive Prog (c : Code) where
  | done (r : Result)
  | plain (s : c.Plain) (a : Answer)
  /-- A clause that holds a continuation. -/
  | holding (s : c.Holding) (a : Answer) (k : Answer → Prog c)
  | handle (l : Layer) (p : Prog c)
  /-- Goes on with the outcome of a computation. -/
  | bind (p : Prog c) (s : c.Plain)

/-- What a computation comes to: a result, or an effect with what follows the reply. -/
inductive Head (c : Code) where
  | done (r : Result)
  | perform (e : Effect) (args : List Val) (k : Answer → Prog c)

variable {c : Code}

namespace Prog

/-- The return handler of a layer applied to a value. -/
def returned (l : Layer) (v : Val) (h : v.generator? = none) : Prog c :=
  match l.onReturn with
  | none => .done (.value v h)
  | some i =>
      match c.onReturn i v with
      | .result r => .done r
      | .run s => .plain s (.value .none)

/-- A clause applied to a continuation and the arguments of an effect. -/
def clause (j : Nat) (k : Answer → Prog c) (args : List Val) : Prog c :=
  match c.clause j args with
  | .result r => .done r
  | .resume b => k b
  | .run s => .holding s (.value .none) k

def eval : Nat → Prog c → Option (Head c)
  | 0, _ => none
  | _ + 1, .done r => some (.done r)
  | _ + 1, .plain s a =>
      match c.plain s a with
      | .done r => some (.done r)
      | .perform e args s => some (.perform e args fun b => .plain s b)
  | n + 1, .holding s a k =>
      match c.holding s a with
      | .act (.done r) => some (.done r)
      | .act (.perform e args s) => some (.perform e args fun b => .holding s b k)
      | .resume b s => eval n (.bind (k b) s)
  | n + 1, .handle l p =>
      match eval n p with
      | none => none
      | some (.done (.value v h)) => eval n (returned l v h)
      | some (.done (.failed x)) => some (.done (.failed x))
      | some (.perform e args k) =>
          match l.clause? e with
          | some j => eval n (clause j (fun b => .handle l (k b)) args)
          | none => some (.perform e args fun b => .handle l (k b))
  | n + 1, .bind p s =>
      match eval n p with
      | none => none
      | some (.done r) => eval n (.plain s r.answer)
      | some (.perform e args k) => some (.perform e args fun b => .bind (k b) s)

theorem eval_mono {m n : Nat} (h : m ≤ n) {p : Prog c} {hd : Head c}
    (evaluated : eval m p = some hd) : eval n p = some hd := by
  induction m generalizing n p hd with
  | zero => contradiction
  | succ m ih =>
      obtain ⟨n, rfl⟩ : ∃ k, n = k + 1 := ⟨n - 1, by omega⟩
      have less : m ≤ n := by omega
      cases p with
      | done r => exact evaluated
      | plain s a => exact evaluated
      | holding s a k =>
          simp only [eval] at evaluated ⊢
          split at evaluated
          · exact evaluated
          · exact evaluated
          · exact ih less evaluated
      | handle l p =>
          simp only [eval] at evaluated ⊢
          cases inner : eval m p with
          | none => simp [inner] at evaluated
          | some hd' =>
              rw [ih less inner]
              simp only [inner] at evaluated
              split at evaluated
              · contradiction
              · rename_i same
                cases same
                exact ih less evaluated
              · rename_i same
                cases same
                exact evaluated
              · rename_i same
                cases same
                split at evaluated
                · exact ih less evaluated
                · exact evaluated
      | bind p s =>
          simp only [eval] at evaluated ⊢
          cases inner : eval m p with
          | none => simp [inner] at evaluated
          | some hd' =>
              rw [ih less inner]
              simp only [inner] at evaluated
              split at evaluated
              · contradiction
              · rename_i same
                cases same
                exact ih less evaluated
              · rename_i same
                cases same
                exact evaluated

end Prog

/-! ## The laws of deep handlers -/

/-- The head that a program comes to, if it comes to one. -/
def Evaluates (p : Prog c) (hd : Head c) : Prop := ∃ n, p.eval n = some hd

theorem Evaluates.unique {p : Prog c} {hd hd' : Head c} (first : Evaluates p hd)
    (second : Evaluates p hd') : hd = hd' := by
  obtain ⟨m, left⟩ := first
  obtain ⟨n, right⟩ := second
  have left' := Prog.eval_mono (Nat.le_max_left m n) left
  rw [Prog.eval_mono (Nat.le_max_right m n) right] at left'
  exact (Option.some.inj left').symm

/-- What a program evaluates to if all that it does first is to evaluate another one. -/
theorem evaluates_congr {p q : Prog c} (n : Nat)
    (goes : ∀ m, n ≤ m → p.eval (m + 1) = q.eval m) (hd : Head c) :
    Evaluates p hd ↔ Evaluates q hd := by
  constructor
  · rintro ⟨m, evaluated⟩
    refine ⟨max n m, ?_⟩
    rw [← goes _ (Nat.le_max_left n m)]
    exact Prog.eval_mono (by omega) evaluated
  · rintro ⟨m, evaluated⟩
    refine ⟨max n m + 1, ?_⟩
    rw [goes _ (Nat.le_max_left n m)]
    exact Prog.eval_mono (by omega) evaluated

/-- How deep handlers treat what the computation under them comes to. -/
structure IsDeep (E : Prog c → Head c → Prop) : Prop where
  value : ∀ {l : Layer} {p : Prog c} {v : Val} {h : v.generator? = none},
    E p (.done (.value v h)) → ∀ hd, E (.handle l p) hd ↔ E (Prog.returned l v h) hd
  failed : ∀ {l : Layer} {p : Prog c} {x : Failure},
    E p (.done (.failed x)) → E (.handle l p) (.done (.failed x))
  owned : ∀ {l : Layer} {p : Prog c} {e : Effect} {args : List Val} {k : Answer → Prog c}
    {j : Nat}, E p (.perform e args k) → l.clause? e = some j →
    ∀ hd, E (.handle l p) hd ↔ E (Prog.clause j (fun b => .handle l (k b)) args) hd
  unowned : ∀ {l : Layer} {p : Prog c} {e : Effect} {args : List Val} {k : Answer → Prog c},
    E p (.perform e args k) → l.clause? e = none →
    E (.handle l p) (.perform e args fun b => .handle l (k b))

theorem evaluates_isDeep : IsDeep (Evaluates (c := c)) where
  value := by
    rintro l p v h ⟨n, inner⟩
    refine evaluates_congr n fun m more => ?_
    simp only [Prog.eval, Prog.eval_mono more inner]
  failed := by
    rintro l p x ⟨n, inner⟩
    exact ⟨n + 1, by simp only [Prog.eval, inner]⟩
  owned := by
    rintro l p e args k j ⟨n, inner⟩ owner
    refine evaluates_congr n fun m more => ?_
    simp only [Prog.eval, Prog.eval_mono more inner, owner]
  unowned := by
    rintro l p e args k ⟨n, inner⟩ free
    exact ⟨n + 1, by simp only [Prog.eval, inner, free]⟩

theorem evaluates_resume {s : c.Holding} {a b : Answer} {k : Answer → Prog c} {s' : c.Plain}
    (resumes : c.holding s a = .resume b s') (hd : Head c) :
    Evaluates (.holding s a k) hd ↔ Evaluates (.bind (k b) s') hd :=
  evaluates_congr 0 (fun m _ => by simp only [Prog.eval, resumes]) hd

theorem evaluates_bind {p : Prog c} {r : Result} (inner : Evaluates p (.done r)) (s : c.Plain)
    (hd : Head c) : Evaluates (.bind p s) hd ↔ Evaluates (.plain s r.answer) hd := by
  obtain ⟨n, inner⟩ := inner
  refine evaluates_congr n (fun m more => ?_) hd
  simp only [Prog.eval, Prog.eval_mono more inner]

theorem evaluates_bind_perform {p : Prog c} {e : Effect} {args : List Val}
    {k : Answer → Prog c} (inner : Evaluates p (.perform e args k)) (s : c.Plain) :
    Evaluates (.bind p s) (.perform e args fun b => .bind (k b) s) := by
  obtain ⟨n, inner⟩ := inner
  exact ⟨n + 1, by simp only [Prog.eval, inner]⟩

end OneShot.Deep
