import OneShot.Proofs.Joined.Translating

/-!
# Coroutines in order

Whatever is awaited is run at once: nothing else is run before its outcome is there,
and with that goes on just the code that has waited.  So coroutines run one after the
other, each once, in the order in which they were awaited.
-/

namespace OneShot.Joined

variable {σ τ : Type} {c : Code} {async : Bool} {J J' : Program c} {M : Memory c} {e : Ending}

/-! ## Logs -/

/-- What a coroutine does, until it has an outcome. -/
inductive Settles : τ → List (Event σ τ) → Deep.Answer → Prop
  | done (t : τ) (a : Deep.Answer) : Settles t [.task t (.done a)] a
  | pause (t : τ) {t' : τ} {run : List (Event σ τ)} {a : Deep.Answer} (rest : Settles t' run a) :
      Settles t (.task t (.pause t') :: run) a

/-- The coroutine that something is to wait for from now on. -/
def Event.awaits? : Event σ τ → Option (τ × σ)
  | .performs s (.await _ t) => some (t, s)
  | .escapes s t => some (t, s)
  | _ => none

def Event.isTask : Event σ τ → Bool
  | .task _ _ => true
  | _ => false

/--
Each coroutine that is awaited is run to its outcome at once, with which goes on what has
waited for it; no other coroutine is run.  In a run that does not give a result, the last
one may have been awaited in vain, and what waited is closed; but not if a driver that is
asynchronous has heard of it.
-/
inductive Orderly (async : Bool) (e : Ending) : List (Event σ τ) → Prop
  | nil : Orderly async e []
  | other {v : Event σ τ} {log : List (Event σ τ)} (plain : v.awaits? = none)
      (idle : v.isTask = false) (rest : Orderly async e log) : Orderly async e (v :: log)
  | awaits {v : Event σ τ} {t : τ} {s : σ} {run : List (Event σ τ)} {a : Deep.Answer}
      {log : List (Event σ τ)} (waits : v.awaits? = some (t, s)) (settles : Settles t run a)
      (rest : Orderly async e (.code s a :: log)) : Orderly async e (v :: (run ++ .code s a :: log))
  | abandons {v : Event σ τ} {w : τ × σ} (closed : List σ) (waits : v.awaits? = some w)
      (gave : ∀ r, e ≠ .result r) (unheard : async = true → ∀ s t, v ≠ .escapes s t) :
      Orderly async e (v :: closed.map .exit)

/-- What is logged from a program on. -/
def Expects (async : Bool) (e : Ending) : Control σ τ → List (Event σ τ) → Prop
  | .code s a, log => ∃ log', log = .code s a :: log' ∧ Orderly async e log
  | .result _, log => Orderly async e log
  | .task t s, log => ∃ run a log', log = run ++ .code s a :: log' ∧ Settles t run a ∧
      Orderly async e (.code s a :: log')

def Control.isTask : Control σ τ → Bool
  | .task _ _ => true
  | _ => false

theorem Expects.orderly {k : Control σ τ} {log : List (Event σ τ)} (h : Expects async e k log)
    (idle : k.isTask = false) : Orderly async e log := by
  cases k with
  | code s a => exact h.choose_spec.2
  | result r => exact h
  | task t s => contradiction

theorem orderly_exits (ss : List σ) : Orderly async e (ss.map .exit : List (Event σ τ)) := by
  induction ss with
  | nil => exact .nil
  | cons s ss ih => exact .other rfl rfl ih

/-! ## Steps -/

/-- What waits on a stack. -/
def waiting (fs : List (Part σ)) : List σ :=
  fs.filterMap fun | .code s => some s | _ => none

theorem Memory.log_closing (m : Memory c) (fs : List (Part c.State)) :
    (m.closing fs).log = m.log ++ (waiting fs).map .exit := by
  induction fs generalizing m with
  | nil => exact (List.append_nil _).symm
  | cons f fs ih =>
      cases f with
      | code s =>
          have exits : (m.closing (.code s :: fs)).log = ((m.exit s).closing fs).log := rfl
          rw [exits, ih, Memory.exit, List.append_assoc]
          rfl
      | _ => exact ih m

theorem Program.requested_idle (q : Request c.State) :
    (J.requested q).memory = J.memory ∧ (J.requested q).control.isTask = false := by
  cases q with
  | resume k b =>
      simp only [Program.requested]
      rcases J.slices[k]? with _ | _ | s <;> exact ⟨rfl, rfl⟩
  | run p => exact ⟨rfl, rfl⟩

theorem Program.opened_idle (o : Opening c.State) :
    (J.opened o).memory = J.memory ∧ (J.opened o).control.isTask = false := by
  cases o with
  | result r => exact ⟨rfl, rfl⟩
  | request q => exact J.requested_idle q

/-- What is logged from a step on is as `P` tells, if what is logged after it is as expected. -/
inductive Adds (async : Bool) (m : Memory c) (P : Ending → List (Event c.State c.Task) → Prop) :
    Except (Memory c × Ending) (Program c) → Prop
  | goes {J : Program c} (added : List (Event c.State c.Task)) (log : J.memory.log = m.log ++ added)
      (holds : ∀ {e : Ending} {log : List (Event c.State c.Task)}, Expects async e J.control log →
        P e (added ++ log)) : Adds async m P (.ok J)
  | stops {M : Memory c} {e : Ending} (added : List (Event c.State c.Task))
      (log : M.log = m.log ++ added) (holds : P e added) : Adds async m P (.error (M, e))

section

variable {m : Memory c} {P Q : Ending → List (Event c.State c.Task) → Prop}
  {out : Except (Memory c × Ending) (Program c)}

/-- Nothing is logged by a step to a program that runs no coroutine. -/
theorem Adds.idle (memory : J.memory = m) (idle : J.control.isTask = false)
    (holds : ∀ {e log}, Orderly async e log → P e log) : Adds async m P (.ok J) :=
  .goes [] (by rw [memory, List.append_nil]) fun expects => holds (expects.orderly idle)

/-- What was logged before comes first. -/
theorem Adds.after {m' : Memory c} {noted : List (Event c.State c.Task)}
    (h : Adds async m' P out) (log : m'.log = m.log ++ noted) (holds : ∀ {e l}, P e l → Q e (noted ++ l)) :
    Adds async m Q out := by
  cases h with
  | goes added log' holds' =>
      refine .goes (noted ++ added) (by rw [log', log, List.append_assoc]) fun expects => ?_
      rw [List.append_assoc]
      exact holds (holds' expects)
  | stops added log' holds' => exact .stops (noted ++ added) (by rw [log', log, List.append_assoc]) (holds holds')

end

theorem Program.adds_performed (o : Operation c.Task) (s : c.State) :
    Adds async J.memory (fun e log => Orderly async e (.performs s o :: log))
      ((J.performed o s).under async) := by
  simp only [Program.performed]
  rcases found : owner? o J.stack with _ | ⟨above, f, way, below⟩
  · simp only [Next.under]
    refine .stops _ (J.memory.log_closing _) ?_
    cases o with
    | await n t => exact .abandons _ rfl (by simp) (by simp)
    | _ => exact .other rfl rfl (orderly_exits _)
  · have answers := (owner?_way found).2
    cases way with
    | clause j args =>
        refine .goes [.clause j J.slices.length args] ?_ fun expects => ?_
        · simp only [Program.answered, Program.opened_idle]
          rfl
        · have rest := expects.orderly (Program.opened_idle _).2
          cases o with
          | await n t => cases f <;> simp [Part.way?] at answers
          | _ => exact .other rfl rfl (.other rfl rfl rest)
    | value v left =>
        refine .idle rfl rfl fun rest => ?_
        cases o with
        | await n t => cases f <;> simp [Part.way?] at answers
        | _ => exact .other rfl rfl rest
    | task t blocking =>
        obtain ⟨n, rfl⟩ : ∃ n, o = .await n t := by
          cases f <;> cases o <;> simp [Part.way?] at answers
          exact ⟨_, by rw [answers.2.1]⟩
        have goes : Adds async J.memory (fun e log => Orderly async e (.performs s (.await n t) :: log))
            (.ok { J with control := .task t s }) := by
          refine .goes [] (List.append_nil _).symm fun expects => ?_
          obtain ⟨run, a, log, rfl, settles, rest⟩ := expects
          exact .awaits rfl settles rest
        cases blocking with
        | true => exact goes
        | false =>
            cases async with
            | true => exact goes
            | false => exact .stops _ (J.memory.log_closing _) (.abandons _ rfl (by simp) (by simp))

theorem Program.adds_acted (async : Bool) (J : Program c) (act : Act c.State c.Task) :
    ∃ noted, (∀ m : Memory c, (m.noting act).log = m.log ++ noted) ∧
      Adds async J.memory (fun e log => Orderly async e (noted ++ log)) ((J.acted act).under async) := by
  cases act with
  | done r => exact ⟨[], fun m => (List.append_nil _).symm, .idle rfl rfl id⟩
  | again b s => exact ⟨[], fun m => (List.append_nil _).symm, .idle rfl rfl id⟩
  | perform o s => exact ⟨_, fun m => rfl, J.adds_performed o s⟩
  | escape t s =>
      refine ⟨[.escapes s t], fun m => rfl, ?_⟩
      cases async with
      | true =>
          refine .goes [] (List.append_nil _).symm fun expects => ?_
          obtain ⟨run, a, log, rfl, settles, rest⟩ := expects
          exact .awaits rfl settles rest
      | false => exact .stops _ (J.memory.log_closing _) (.abandons _ rfl (by simp) (by simp))
  | call q s =>
      have requested := Program.requested_idle (J := { J with stack := .code s :: J.stack }) q
      exact ⟨[], fun m => (List.append_nil _).symm, .idle requested.1 requested.2 id⟩

theorem Program.adds_delivered (r : Deep.Result) :
    Adds async J.memory (Orderly async) ((J.delivered r).under async) := by
  unfold Program.delivered
  rcases J.stack with _ | ⟨f, fs⟩
  · exact .stops [] (List.append_nil _).symm .nil
  · have handed : Adds async J.memory (Orderly async) (.ok { J with stack := fs, control := .result r }) :=
      .idle rfl rfl id
    cases f with
    | code s => exact .idle rfl rfl id
    | layer l =>
        cases r with
        | failed x => exact handed
        | value v plain =>
            simp only
            rcases l.onReturn with _ | i
            · exact handed
            · refine .goes [.returns i v] ?_ fun expects => ?_
              · simp only [Program.opened_idle]
                rfl
              · exact .other rfl rfl (expects.orderly (Program.opened_idle _).2)
    | _ => exact handed

/-- What is logged from a program on is as expected. -/
theorem Program.adds_next (async : Bool) (J : Program c) :
    Adds async J.memory (Expects async · J.control) (J.next async) := by
  rw [Program.next_eq, Program.step]
  cases control : J.control with
  | code s a =>
      let J₁ : Program c := { J with memory := (J.memory.step s a).1, control := .code s a }
      obtain ⟨noted, notes, adds⟩ := J₁.adds_acted async (J.memory.step s a).2
      have logged : J₁.memory.log = J.memory.log ++ (.code s a :: noted) :=
        (notes _).trans (List.append_assoc ..)
      exact adds.after logged fun rest => ⟨_, List.cons_append, .other rfl rfl rest⟩
  | result r => exact J.adds_delivered r
  | task t s =>
      refine .goes [.task t (J.memory.task t).2] rfl fun h => ?_
      generalize (J.memory.task t).2 = m at h ⊢
      cases m with
      | pause t' =>
          obtain ⟨run, a, log, rfl, settles, rest⟩ := h
          exact ⟨_, a, log, rfl, .pause t settles, rest⟩
      | done a =>
          obtain ⟨log, rfl, rest⟩ := h
          exact ⟨_, a, log, rfl, .done t a, rest⟩

/-- Coroutines are run in order, all along a run. -/
theorem Program.Ends.orderly (h : J.Ends async M e) :
    ∃ log, M.log = J.memory.log ++ log ∧ Expects async e J.control log := by
  induction h with
  | @stops J M e last =>
      have adds := J.adds_next async
      rw [last] at adds
      cases adds with
      | stops added log expects => exact ⟨added, log, expects⟩
  | @step J J' M e first _ ih =>
      obtain ⟨log, logged, expected⟩ := ih
      have adds := J.adds_next async
      rw [first] at adds
      cases adds with
      | goes added log' expects =>
          exact ⟨added ++ log, by rw [logged, log', List.append_assoc], expects expected⟩

/-- As long as a program goes on, what is logged is as expected if what comes after it is. -/
theorem Program.Steps.orderly {n : Nat} (h : J.Steps async n J') : ∃ log, J'.memory.log = J.memory.log ++ log ∧
    ∀ e rest, Expects async e J'.control rest → Expects async e J.control (log ++ rest) := by
  induction h with
  | zero J => exact ⟨[], (List.append_nil _).symm, fun e rest expects => expects⟩
  | @succ n J J₁ J₂ first _ ih =>
      obtain ⟨log, logged, expected⟩ := ih
      have adds := J.adds_next async
      rw [first] at adds
      cases adds with
      | goes added log' expects =>
          refine ⟨added ++ log, by rw [logged, log', List.append_assoc], fun e rest holds => ?_⟩
          rw [List.append_assoc]
          exact expects (expected e rest holds)

/-- A log of a program that goes on, to which more may come. -/
theorem orderly_of_steps {p : Comp c.State} {d : c.Memory} {n : Nat} (h : (begin p d).Steps async n J) :
    ∃ e rest, Orderly async e (J.memory.log ++ rest) := by
  obtain ⟨log, logged, expected⟩ := h.orderly
  rw [logged]
  let e : Ending := .result (.value .none Val.generator?_none)
  have goes_on : ∃ rest, Expects async e J.control rest := by
    cases J.control with
    | code s a => exact ⟨_, [], rfl, .other rfl rfl .nil⟩
    | result r => exact ⟨[], .nil⟩
    | task t s => exact ⟨_, _, .value .none, [], rfl, .done t (.value .none), .other rfl rfl .nil⟩
  obtain ⟨rest, expects⟩ := goes_on
  exact ⟨e, rest, (expected e rest expects).orderly rfl⟩

theorem orderly_of_ends {p : Comp c.State} {d : c.Memory} (h : (begin p d).Ends async M e) :
    Orderly async e M.log := by
  obtain ⟨log, logged, expected⟩ := h.orderly
  rw [logged]
  exact expected.orderly rfl

end OneShot.Joined
