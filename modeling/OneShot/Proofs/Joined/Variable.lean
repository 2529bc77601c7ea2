import OneShot.Proofs.Joined.Rewrapping

/-!
# States as variables

A state that is run around a computation is as good as a variable that its code reads and
assigns to.  The part of the stack that has the value of the state wanders: it is captured
with what is around it, and comes back with that.  But it is never there twice.
-/

namespace OneShot.Joined

open Deep (Result)

variable {c : Code} {async : Bool} {i : Nat} {J J₁ : Program c}

/-! ## Where a state is run -/

/-- Whether a part of a stack is a state that a function runs. -/
def Part.runs {σ : Type} (i : Nat) : Part σ → Bool
  | .state j _ _ => j == i
  | _ => false

def held {σ : Type} : Option (Slice σ) → List (Part σ)
  | some (_, fs) => fs
  | none => []

/-- How often a function runs a state, on the stack of a program and in its slices. -/
def Program.runs (J : Program c) (i : Nat) : Nat :=
  J.stack.countP (Part.runs i) + (J.slices.flatMap held).countP (Part.runs i)

def Request.Avoids {σ : Type} (i : Nat) : Request σ → Prop
  | .resume _ _ => True
  | .run p => .state i ∉ p.scopes

/-- Code that runs no state by a function. -/
structure Code.Avoids (c : Code) (i : Nat) : Prop where
  step : ∀ d s a q s', (c.step d s a).2 = .call q s' → q.Avoids i
  returns : ∀ j d v q, (c.onReturn j d v).2 = .request q → q.Avoids i
  clause : ∀ j d k args q, (c.clause j d k args).2 = .request q → q.Avoids i

theorem countP_parts {ws : List Scope} (avoids : .state i ∉ ws) (d : c.Memory) :
    (parts d ws).countP (Part.runs i) = 0 := by
  induction ws with
  | nil => rfl
  | cons w ws ih =>
      rw [List.mem_cons, not_or] at avoids
      rw [parts, List.countP_append, ih avoids.2, Nat.zero_add]
      cases w with
      | state j =>
          have other : j ≠ i := fun same => avoids.1 (same ▸ rfl)
          simp [Scope.parts, Part.runs, other]
      | _ => rfl

theorem countP_set {σ : Type} {slices : List (Option (Slice σ))} {k : Nat} {s : σ} {fs : List (Part σ)}
    (here : slices[k]? = some (some (s, fs))) :
    ((slices.set k none).flatMap held).countP (Part.runs i) + fs.countP (Part.runs i) =
      (slices.flatMap held).countP (Part.runs i) := by
  induction slices generalizing k with
  | nil => contradiction
  | cons slice slices ih =>
      cases k with
      | zero =>
          cases here
          simp [held]
          omega
      | succ k =>
          have rest := ih here
          simp only [List.set_cons_succ, List.flatMap_cons, List.countP_append]
          omega

theorem Program.runs_requested {q : Request c.State} (avoids : q.Avoids i) :
    (J.requested q).runs i ≤ J.runs i := by
  cases q with
  | resume k b =>
      simp only [Program.requested]
      rcases here : J.slices[k]? with _ | _ | ⟨s, fs⟩
      · exact Nat.le_refl _
      · exact Nat.le_refl _
      · have moved := countP_set (i := i) here
        simp only [Program.runs, List.countP_append]
        omega
  | run p => simp [Program.requested, Program.runs, countP_parts avoids]

theorem Program.runs_opened {o : Opening c.State} (avoids : ∀ q, o = .request q → q.Avoids i) :
    (J.opened o).runs i ≤ J.runs i := by
  cases o with
  | result r => exact Nat.le_refl _
  | request q => exact Program.runs_requested (avoids q rfl)

theorem Program.runs_performed (code : c.Avoids i) (o : Operation c.Task) (s : c.State)
    (stepped : (J.performed o s).under async = .ok J₁) : J₁.runs i ≤ J.runs i := by
  simp only [Program.performed] at stepped
  rcases found : owner? o J.stack with _ | ⟨above, f, way, below⟩
  · simp only [found, Next.under] at stepped
    contradiction
  · obtain ⟨shape, answers⟩ := owner?_way found
    simp only [found] at stepped
    cases way with
    | clause j args =>
        cases stepped
        refine Nat.le_trans (Program.runs_opened (code.clause _ _ _ _)) (Nat.le_of_eq ?_)
        simp only [Program.runs, shape, List.flatMap_append, List.countP_append, List.flatMap_cons,
          List.flatMap_nil, held, List.countP_cons, List.countP_nil]
        omega
    | value v left =>
        cases stepped
        have same : Part.runs i left = Part.runs i f := by
          cases f <;> cases o <;> simp [Part.way?] at answers <;> simp [← answers.2.2, Part.runs]
        simp [Program.runs, shape, List.countP_cons, same]
    | task t blocking =>
        cases blocking <;> cases async <;> cases stepped <;> exact Nat.le_refl _

theorem Program.runs_acted (code : c.Avoids i) {act : Act c.State c.Task}
    (avoids : ∀ q s, act = .call q s → q.Avoids i) (stepped : (J.acted act).under async = .ok J₁) :
    J₁.runs i ≤ J.runs i := by
  cases act with
  | perform o s => exact Program.runs_performed code o s stepped
  | call q s =>
      cases stepped
      refine Nat.le_trans (Program.runs_requested (avoids q s rfl)) (Nat.le_of_eq ?_)
      simp [Program.runs, Part.runs]
  | escape t s => cases async <;> cases stepped; exact Nat.le_refl _
  | _ => cases stepped; exact Nat.le_refl _

theorem Program.runs_delivered (code : c.Avoids i) {r : Result}
    (stepped : (J.delivered r).under async = .ok J₁) : J₁.runs i ≤ J.runs i := by
  unfold Program.delivered at stepped
  rcases shape : J.stack with _ | ⟨f, fs⟩
  · rw [shape] at stepped
    contradiction
  · have popped : fs.countP (Part.runs i) + (J.slices.flatMap held).countP (Part.runs i) ≤ J.runs i := by
      simp only [Program.runs, shape, List.countP_cons]
      omega
    rw [shape] at stepped
    cases f with
    | layer l =>
        cases r with
        | failed x => cases stepped; exact popped
        | value v plain =>
            simp only at stepped
            rcases called : l.onReturn with _ | j
            · rw [called] at stepped
              cases stepped
              exact popped
            · rw [called] at stepped
              cases stepped
              exact Nat.le_trans (Program.runs_opened (code.returns _ _ _)) popped
    | _ => cases stepped; exact popped

/-- No step makes a state be run more often. -/
theorem Program.runs_next (code : c.Avoids i) (stepped : J.next async = .ok J₁) : J₁.runs i ≤ J.runs i := by
  rw [Program.next_eq, Program.step] at stepped
  cases control : J.control with
  | code s a =>
      rw [control] at stepped
      exact Program.runs_acted (J := { J with memory := (J.memory.step s a).1, control := .code s a }) code
        (code.step _ _ _) stepped
  | result r =>
      rw [control] at stepped
      exact Program.runs_delivered code stepped
  | task t s =>
      rw [control] at stepped
      cases stepped
      exact Nat.le_refl _

/-! ## Code with a variable -/

/-- What code does that reads a variable, or assigns to it, where it would ask a state. -/
def Act.assigning {σ τ : Type} (n : Nat) (mine : σ → Bool) (v : Val) : Act σ τ → Val × Act σ τ
  | .perform (.get m) s =>
      if m = n ∧ mine s = true then (v, .again (.value v) s) else (v, .perform (.get m) s)
  | .perform (.put m w) s =>
      if m = n ∧ mine s = true then (w, .again (.value .none) s) else (v, .perform (.put m w) s)
  | act => (v, act)

/-- Whether an event is none of what a variable is used for instead. -/
def Event.remains {σ τ : Type} (n : Nat) (mine : σ → Bool) : Event σ τ → Bool
  | .performs s (.get m) | .performs s (.put m _) => !(m == n && mine s)
  | _ => true

/--
The same code with a variable.  It is used instead of the state `n` where the code that
waits is `mine`.
-/
@[reducible]
def Code.assigning (c : Code) (n : Nat) (mine : c.State → Bool) : Code where
  Memory := c.Memory × Val
  State := c.State
  Task := c.Task
  step d s a :=
    (((c.step d.1 s a).1, ((c.step d.1 s a).2.assigning n mine d.2).1),
      ((c.step d.1 s a).2.assigning n mine d.2).2)
  exit d s := (c.exit d.1 s, d.2)
  task d t := (((c.task d.1 t).1, d.2), (c.task d.1 t).2)
  onReturn j d v := (((c.onReturn j d.1 v).1, d.2), (c.onReturn j d.1 v).2)
  clause j d k args := (((c.clause j d.1 k args).1, d.2), (c.clause j d.1 k args).2)
  init j d := c.init j d.1

/-- Whether an operation asks a state. -/
inductive Operation.Asks {τ : Type} (n : Nat) : Operation τ → Prop
  | get : Asks n (.get n)
  | put (v : Val) : Asks n (.put n v)

/--
What is mine asks the state that `i` runs, which is there and is not run again inside;
and nothing else does.
-/
def Program.Confines (async : Bool) (i n : Nat) (mine : c.State → Bool) (J : Program c) : Prop :=
  ∀ m J' s a o s', J.Steps async m J' → J'.control = .code s a → (J'.memory.step s a).2 = .perform o s' →
    o.Asks n →
    (mine s' = true → ∃ above v below, J'.stack = above ++ .state i n v :: below ∧
      ∀ f ∈ above, f.way? o = none) ∧
    (mine s' = false → ∀ above v below, J'.stack = above ++ .state i n v :: below →
      ∃ f ∈ above, f.way? o ≠ none)

theorem Program.Confines.next {n : Nat} {mine : c.State → Bool} (confines : J.Confines async i n mine)
    (first : J.next async = .ok J₁) : J₁.Confines async i n mine :=
  fun m J' s a o s' steps => confines (m + 1) J' s a o s' (.succ first steps)

theorem Code.Avoids.assigning (avoids : c.Avoids i) (n : Nat) (mine : c.State → Bool) :
    (c.assigning n mine).Avoids i where
  step d s a q s' called := by
    refine avoids.step d.1 s a q s' ?_
    have acts : ((c.step d.1 s a).2.assigning n mine d.2).2 = .call q s' := called
    cases act : (c.step d.1 s a).2 with
    | perform o s =>
        rw [act] at acts
        cases o with
        | get m => simp only [Act.assigning] at acts; split at acts <;> contradiction
        | put m w => simp only [Act.assigning] at acts; split at acts <;> contradiction
        | _ => contradiction
    | _ =>
        rw [act] at acts
        exact acts
  returns j d v q requested := avoids.returns j d.1 v q requested
  clause j d k args q requested := avoids.clause j d.1 k args q requested

/-! ## The same value -/

section

variable {n : Nat} {mine : c.State → Bool}

/-- Programs of the code with a variable, and of the code that asks a state with the same value. -/
def valued (i n : Nat) (mine : c.State → Bool) (v : Val) : Translation (c.assigning n mine) c where
  state := id
  task := id
  comp := id
  name := id
  blocking := id
  extra f := f = .state i n v
  same M M' := M.data = (M'.data, v) ∧ M.log = M'.log.filter (Event.remains n mine)

variable {v w : Val} {fs : List (Part (c.assigning n mine).State)} {fs' above below : List (Part c.State)}

theorem part_valued (f : Part c.State) : (valued i n mine v).part f = f := by
  cases f <;> rfl

theorem act_valued (act : Act c.State c.Task) : (valued i n mine v).act act = act := by
  cases act with
  | perform o s => exact congrArg (Act.perform · s) o.map_id
  | call q s => cases q <;> rfl
  | _ => rfl

theorem stacks_valued (fs : List (Part c.State)) : (valued i n mine v).Stacks fs fs := by
  induction fs with
  | nil => exact .nil
  | cons f fs ih =>
      have stacked := Translation.Stacks.part (T := valued i n mine v) f ih
      rwa [part_valued] at stacked

theorem filter_remains {log : List (Event c.State c.Task)} {e : Event c.State c.Task}
    (remains : e.remains n mine = true) :
    (log ++ [e]).filter (Event.remains n mine) = log.filter (Event.remains n mine) ++ [e] := by
  rw [List.filter_append, List.filter_cons_of_pos remains, List.filter_nil]

theorem parts_assigning (d : c.Memory) (ws : List Scope) :
    (parts (c := c.assigning n mine) (d, v) ws : List (Part c.State)) = parts (c := c) d ws := by
  induction ws with
  | nil => rfl
  | cons w ws ih => cases w <;> simp only [parts, Scope.parts, ih]

theorem lawful_valued : (valued i n mine v).Lawful async async where
  body _ := rfl
  begins := by
    rintro ⟨d, log⟩ ⟨d', log'⟩ p ⟨rfl, rfl⟩
    exact Eq.mpr (congrArg (Translation.Stacks _ · _) (parts_assigning ..)) (stacks_valued _)
  clause := by
    rintro ⟨d, log⟩ ⟨d', log'⟩ j k args ⟨rfl, rfl⟩
    exact ⟨⟨rfl, (filter_remains rfl).symm⟩, by
      simp only [Memory.clause, Memory.running]
      cases (c.clause j d' k args).2 with
      | result r => rfl
      | request q => cases q <;> rfl⟩
  returns := by
    rintro ⟨d, log⟩ ⟨d', log'⟩ j v ⟨rfl, rfl⟩
    exact ⟨⟨rfl, (filter_remains rfl).symm⟩, by
      simp only [Memory.onReturn, Memory.running]
      cases (c.onReturn j d' v).2 with
      | result r => rfl
      | request q => cases q <;> rfl⟩
  task := by
    rintro ⟨d, log⟩ ⟨d', log'⟩ t ⟨rfl, rfl⟩
    exact ⟨⟨rfl, (filter_remains rfl).symm⟩, (Move.map_id _).symm⟩
  exit := by
    rintro ⟨d, log⟩ ⟨d', log'⟩ s ⟨rfl, rfl⟩
    exact ⟨rfl, (filter_remains rfl).symm⟩
  awaits _ := rfl
  extra f same := same ▸ rfl

/-- Where the state is on the stack, and what is around it. -/
theorem Translation.Stacks.split (stacked : (valued i n mine v).Stacks fs fs') (shape : above ++ .state i n w :: below = fs')
    (absent : fs.countP (Part.runs i) = 0) :
    w = v ∧ ∃ above₀ below₀, fs = above₀ ++ below₀ ∧ (valued i n mine v).Stacks above₀ above ∧
      (valued i n mine v).Stacks below₀ below := by
  induction stacked generalizing above with
  | nil => simp at shape
  | @part f fs fs' rest ih =>
      rw [part_valued] at shape
      rw [List.countP_cons] at absent
      cases above with
      | nil =>
          cases shape
          simp [Part.runs] at absent
      | cons g above =>
          cases shape
          obtain ⟨same, above₀, below₀, rfl, left, right⟩ := ih rfl (by omega)
          have left' := Translation.Stacks.part f left
          rw [part_valued] at left'
          exact ⟨same, f :: above₀, below₀, rfl, left', right⟩
  | extra more rest ih =>
      cases above with
      | nil =>
          cases shape
          cases more
          exact ⟨rfl, [], _, rfl, .nil, rest⟩
      | cons g above =>
          cases shape
          obtain ⟨same, above₀, below₀, rfl, left, right⟩ := ih rfl absent
          exact ⟨same, above₀, below₀, rfl, .extra more left, right⟩

/-- Where the state is not, its value does not matter. -/
theorem Translation.Stacks.revalue (stacked : (valued i n mine v).Stacks fs fs')
    (absent : fs'.countP (Part.runs i) = 0) : (valued i n mine w).Stacks fs fs' := by
  induction stacked with
  | nil => exact .nil
  | part f rest ih =>
      rw [List.countP_cons] at absent
      have stacked := Translation.Stacks.part (T := valued i n mine w) f (ih (by omega))
      rw [part_valued] at stacked ⊢
      exact stacked
  | extra more rest ih =>
      cases more
      simp [Part.runs] at absent

theorem Translation.Slices.revalue {slices : List (Option (Slice (c.assigning n mine).State))}
    {slices' : List (Option (Slice c.State))}
    (related : List.Forall₂ (valued i n mine v).Slices slices slices')
    (absent : (slices'.flatMap held).countP (Part.runs i) = 0) :
    List.Forall₂ (valued i n mine w).Slices slices slices' := by
  induction related with
  | nil => exact .nil
  | @cons slice slice' slices slices' first rest ih =>
      rw [List.flatMap_cons, List.countP_append] at absent
      refine .cons ?_ (ih (by omega))
      cases first with
      | taken => exact .taken
      | pending s stacked => exact .pending s (stacked.revalue (by simp only [held] at absent; omega))

/-! ## Steps -/

theorem owner?_of {σ τ : Type} {o : Operation τ} {above below : List (Part σ)} {f : Part σ} {w : Way σ τ}
    (others : ∀ g ∈ above, g.way? o = none) (answers : f.way? o = some w) :
    owner? o (above ++ f :: below) = some ⟨above, f, w, below⟩ := by
  induction above with
  | nil => simp [owner?, answers]
  | cons g above ih =>
      rw [List.forall_mem_cons] at others
      simp [owner?, others.1, ih others.2]

/-- An action that asks the state, and one that uses the variable, which then is `w`, and gives `r`. -/
structure Uses (n : Nat) (mine : c.State → Bool) (v : Val) (act act' : Act c.State c.Task) (s : c.State)
    (o : Operation c.Task) (w r : Val) : Prop where
  asks : o.Asks n
  mine : mine s = true
  performs : act' = .perform o s
  way : ∀ i, (Part.state i n v : Part c.State).way? o = some (.value r (.state i n w))
  goes : act = .again (.value r) s

theorem Act.uses_or (act : Act c.State c.Task) :
    (∃ s o r, Uses n mine v (act.assigning n mine v).2 act s o (act.assigning n mine v).1 r) ∨
      act.assigning n mine v = (v, act) ∧ ∀ o s, act = .perform o s → o.Asks n → mine s = false := by
  cases act with
  | perform o s =>
      by_cases asks : o.Asks n ∧ mine s = true
      · refine .inl ⟨s, o, ?_⟩
        obtain ⟨asks, here⟩ := asks
        cases asks with
        | get =>
            have used : (Act.perform (.get n) s : Act c.State c.Task).assigning n mine v =
                (v, .again (.value v) s) := if_pos ⟨rfl, here⟩
            exact ⟨v, .get, here, rfl, fun i => by rw [used]; exact if_pos rfl, by rw [used]⟩
        | put w =>
            have used : (Act.perform (.put n w) s : Act c.State c.Task).assigning n mine v =
                (w, .again (.value .none) s) := if_pos ⟨rfl, here⟩
            exact ⟨.none, .put w, here, rfl, fun i => by rw [used]; exact if_pos rfl, by rw [used]⟩
      · refine .inr ⟨?_, ?_⟩
        · cases o with
          | get m => exact if_neg fun (same : m = n ∧ mine s = true) => asks ⟨same.1 ▸ .get, same.2⟩
          | put m w => exact if_neg fun (same : m = n ∧ mine s = true) => asks ⟨same.1 ▸ .put w, same.2⟩
          | _ => rfl
        · rintro o s ⟨rfl, rfl⟩ asks'
          simpa [asks'] using asks
  | _ => exact .inr ⟨rfl, nofun⟩

theorem Event.remains_performs {o : Operation c.Task} {s : c.State} :
    (Event.performs s o).remains n mine = true ↔ (o.Asks n → mine s = false) := by
  cases o with
  | get m =>
      have asks : (Operation.get m : Operation c.Task).Asks n ↔ m = n :=
        ⟨fun | .get => rfl, fun same => same ▸ .get⟩
      simp [Event.remains, asks, imp_iff_not_or]
  | put m w =>
      have asks : (Operation.put m w : Operation c.Task).Asks n ↔ m = n :=
        ⟨fun | .put _ => rfl, fun same => same ▸ .put w⟩
      simp [Event.remains, asks, imp_iff_not_or]
  | _ => exact ⟨fun _ => nofun, fun _ => rfl⟩

/-- The code uses the variable, or does as the other code does, which does not ask the state for what is mine. -/
theorem step_valued {M : Memory (c.assigning n mine)} {M' : Memory c} (same : (valued i n mine v).same M M')
    (s : c.State) (a : Deep.Answer) :
    (∃ s' o w r, Uses n mine v (M.step s a).2 (M'.step s a).2 s' o w r ∧
      (valued i n mine w).same (M.step s a).1 (M'.step s a).1) ∨
    (∀ o s', (M'.step s a).2 = .perform o s' → o.Asks n → mine s' = false) ∧
      (valued i n mine v).same (M.step s a).1 (M'.step s a).1 ∧ (M'.step s a).2 = (M.step s a).2 := by
  obtain ⟨d, log⟩ := M
  obtain ⟨d', log'⟩ := M'
  obtain ⟨rfl, rfl⟩ := same
  have ran : (log' ++ [Event.code (τ := c.Task) s a]).filter (Event.remains n mine) =
      log'.filter (Event.remains n mine) ++ [.code s a] := filter_remains rfl
  simp only [Memory.step, Memory.running]
  rcases (c.step d' s a).2.uses_or (n := n) with ⟨s', o, r, uses⟩ | ⟨others, foreign⟩
  · refine .inl ⟨s', o, _, r, uses, ?_⟩
    have gone : (Event.performs s' o).remains n mine ≠ true := by
      simp [Event.remains_performs, uses.asks, uses.mine]
    rw [uses.goes, uses.performs]
    refine ⟨rfl, ?_⟩
    simp only [Memory.noting]
    rw [List.filter_append, List.filter_cons_of_neg gone, List.filter_nil, List.append_nil, ran]
  · refine .inr ⟨foreign, ?_, by rw [others]⟩
    rw [others]
    cases act : (c.step d' s a).2 with
    | perform o s' =>
        refine ⟨rfl, ?_⟩
        simp only [Memory.noting]
        rw [filter_remains (Event.remains_performs.2 (foreign o s' act)), ran]
    | escape t s' =>
        refine ⟨rfl, ?_⟩
        simp only [Memory.noting]
        rw [filter_remains rfl, ran]
    | _ => exact ⟨rfl, ran.symm⟩

variable {J : Program (c.assigning n mine)} {J' : Program c}

/-- What uses the variable goes on as the computation does whose state is asked. -/
theorem Uses.next (related : (valued i n mine v).Relates J J') (absent : J.runs i = 0) (once : J'.runs i ≤ 1)
    (confines : J'.Confines async i n mine) {s s' : c.State} {a : Deep.Answer} {o : Operation c.Task} {r : Val}
    (control : J.control = .code s a)
    (uses : Uses n mine v (J.memory.step s a).2 (J'.memory.step s a).2 s' o w r)
    (same : (valued i n mine w).same (J.memory.step s a).1 (J'.memory.step s a).1) :
    ∃ J₁ J₁', J.next async = .ok J₁ ∧ J'.next async = .ok J₁' ∧ (valued i n mine w).Relates J₁ J₁' := by
  have control' : J'.control = .code s a := by rw [related.control, control]; rfl
  obtain ⟨above, u, below, shape, others⟩ :=
    (confines 0 J' s a o s' (.zero J') control' uses.performs uses.asks).1 uses.mine
  simp only [Program.runs, Nat.add_eq_zero_iff] at absent
  simp only [Program.runs, shape, List.countP_append, List.countP_cons, Part.runs, beq_self_eq_true,
    if_true] at once
  obtain ⟨rfl, above₀, below₀, left, first, second⟩ := related.stack.split shape.symm absent.1
  have rest : (J'.slices.flatMap held).countP (Part.runs i) = 0 := by omega
  refine ⟨{ J with memory := (J.memory.step s a).1, control := .code s' (.value r) },
    { J' with memory := (J'.memory.step s a).1, stack := above ++ .state i n w :: below,
              control := .code s' (.value r) }, ?_, ?_, ?_⟩
  · rw [Program.next_eq, Program.step, control]
    simp only [uses.goes, Program.acted, Next.under]
  · rw [Program.next_eq, Program.step, control']
    simp only [uses.performs, Program.acted, Program.performed, shape, owner?_of others (uses.way i),
      Next.under]
  · refine ⟨same, Translation.Slices.revalue related.slices rest, ?_, rfl⟩
    rw [left]
    exact (first.revalue (by omega)).append (.extra rfl (second.revalue (by omega)))

/-- Programs with a variable, and programs that ask the state instead, which is run once at most. -/
structure Valued (async : Bool) (i n : Nat) (mine : c.State → Bool) (J : Program (c.assigning n mine))
    (J' : Program c) : Prop where
  related : ∃ v, (valued i n mine v).Relates J J'
  absent : J.runs i = 0
  once : J'.runs i ≤ 1
  confines : J'.Confines async i n mine

/-- A state that keeps out of what is not mine is silent there. -/
theorem Program.Confines.silent (confines : J'.Confines async i n mine) {s s' : c.State} {a : Deep.Answer}
    {o : Operation c.Task} (control : J'.control = .code s a)
    (performs : (J'.memory.step s a).2 = .perform o s') (foreign : o.Asks n → mine s' = false) :
    (valued i n mine v).Silent o J'.stack := by
  rintro above f below shape rfl others
  have others' : ∀ g ∈ above, g.way? o = none := o.map_id ▸ others
  have silent : (Part.state i n v : Part c.State).way? o = none := by
    by_contra answers
    have asks : o.Asks n := by
      cases o with
      | get m => exact (show n = m by simpa [Part.way?] using answers) ▸ .get
      | put m w => exact (show n = m by simpa [Part.way?] using answers) ▸ .put w
      | _ => exact absurd rfl answers
    obtain ⟨g, here, owns⟩ := (confines 0 J' s a o s' (.zero J') control performs asks).2 (foreign asks)
      above v below shape
    exact owns (others' g here)
  exact o.map_id.symm ▸ silent

theorem follows_valued (avoids : c.Avoids i) : Follows async async (Valued async i n mine)
    fun M M' => M.data.1 = M'.data ∧ M.log = M'.log.filter (Event.remains n mine) := by
  refine .of_agrees fun {J J'} h => ?_
  have agrees : ∃ w k J₁', J'.Steps async k J₁' ∧
      (valued i n mine w).Agrees (J.next async) (J₁'.next async) := by
    obtain ⟨v, related⟩ := h.related
    by_cases used : ∃ s a s' o w r, J.control = .code s a ∧
        Uses n mine v (J.memory.step s a).2 (J'.memory.step s a).2 s' o w r ∧
        (valued i n mine w).same (J.memory.step s a).1 (J'.memory.step s a).1
    · obtain ⟨s, a, s', o, w, r, control, uses, same⟩ := used
      obtain ⟨J₁, J₁', left, right, related⟩ := uses.next related h.absent h.once h.confines control same
      exact ⟨w, 0, J', .zero J', left ▸ right ▸ .goes related⟩
    · refine ⟨v, related.next lawful_valued fun s a control => ?_⟩
      have control' : J'.control = .code s a := by rw [related.control, control]; rfl
      rcases step_valued related.memory s a with ⟨s', o, w, r, uses⟩ | ⟨foreign, same, acts⟩
      · exact absurd ⟨s, a, s', o, w, r, control, uses⟩ used
      · refine ⟨same, acts.trans (act_valued (c := c) (i := i) (v := v) _).symm, fun o s' performs => ?_, fun t s' _ => rfl⟩
        rw [← acts] at performs
        exact h.confines.silent control' performs (foreign o s' performs)
  obtain ⟨w, k, J₁', steps, agrees⟩ := agrees
  refine ⟨k, J₁', steps, agrees.imp (fun left right related => ⟨⟨w, related⟩, ?_, ?_, ?_⟩) fun same => ?_⟩
  · have less := Program.runs_next (avoids.assigning n mine) left
    have absent := h.absent
    omega
  · have less := Program.runs_next avoids right
    have once : J₁'.runs i ≤ 1 :=
      steps.kept (fun holds next => Nat.le_trans (Program.runs_next avoids next) holds) h.once
    omega
  · exact (steps.kept (fun confines next => confines.next next) h.confines).next right
  · exact ⟨congrArg Prod.fst same.1, same.2⟩

/-- Where a state that is run nowhere else is put around a computation. -/
theorem valued_begin {outer inner : List Wrap} {made : Bool} {body : c.State} {d : c.Memory}
    (once : .state i ∉ (⟨outer ++ inner, made, body⟩ : Comp c.State).scopes)
    (confines : (begin ⟨outer ++ .scope (.state i) :: inner, made, body⟩ d).Confines async i
      (c.init i d).1 mine) :
    Valued async i (c.init i d).1 mine
      (begin (c := c.assigning (c.init i d).1 mine) ⟨outer ++ inner, made, body⟩ (d, (c.init i d).2))
      (begin ⟨outer ++ .scope (.state i) :: inner, made, body⟩ d) := by
  have scopes : (⟨outer ++ .scope (.state i) :: inner, made, body⟩ : Comp c.State).scopes =
      outer.flatMap Wrap.scopes ++ .state i :: inner.flatMap Wrap.scopes := by
    simp [Comp.scopes, Wrap.scopes]
  have others : (⟨outer ++ inner, made, body⟩ : Comp c.State).scopes =
      outer.flatMap Wrap.scopes ++ inner.flatMap Wrap.scopes := by
    simp [Comp.scopes]
  rw [others, List.mem_append, not_or] at once
  refine ⟨⟨(c.init i d).2, ⟨rfl, rfl⟩, .nil, ?_, rfl⟩, ?_, ?_, confines⟩
  · rw [begin, begin, scopes, others, parts_append, parts_append, parts_assigning, parts_assigning, parts,
      Scope.parts, List.append_assoc]
    exact (stacks_valued _).append (.extra rfl (stacks_valued _))
  · rw [Program.runs, begin, others, parts_append, List.countP_append, countP_parts once.1, countP_parts once.2]
    rfl
  · rw [Program.runs, begin, scopes, parts_append, parts, List.countP_append, List.countP_append,
      countP_parts once.1, countP_parts once.2]
    simp [Scope.parts, Part.runs]

end

/--
A computation under a state ends as the same computation does that reads a variable, and
assigns to it, wherever it asks the state: with the same result or the same error, under the
same driver and whatever the state is run under, after the same code was run and the same
other operations were performed in the same order.
-/
theorem state_is_variable (c : Code) (i : Nat) (mine : c.State → Bool) (async : Bool)
    (outer inner : List Wrap) (made : Bool) (body : c.State) (d : c.Memory) (settings settings' : Settings)
    (avoids : c.Avoids i) (once : .state i ∉ (⟨outer ++ inner, made, body⟩ : Comp c.State).scopes)
    (confines : (begin ⟨outer ++ .scope (.state i) :: inner, made, body⟩ d).Confines async i
      (c.init i d).1 mine) :
    Alike (start (c := c.assigning (c.init i d).1 mine) async ⟨outer ++ inner, made, body⟩
        (d, (c.init i d).2) settings)
      (start async ⟨outer ++ .scope (.state i) :: inner, made, body⟩ d settings')
      fun M M' => M.data.1 = M'.data ∧ M.log = M'.log.filter (Event.remains (c.init i d).1 mine) :=
  (follows_valued avoids).alike (valued_begin once confines) settings settings'

/-- Code that puts a value into a state, and gives what it then gets. -/
def rereading : Code where
  Memory := Unit
  State := Nat
  Task := Empty
  step _ s a := ((), match s, a with
    | 0, _ => .perform (.put 0 (.str "new")) 1
    | 1, _ => .perform (.get 0) 2
    | _, .value (.str text) => .done (.value (.str text) (Val.generator?_str text))
    | _, _ => .done (.value .none Val.generator?_none))
  exit _ _ := ()
  task _ t := nomatch t
  onReturn _ _ _ := ((), .result (.value .none Val.generator?_none))
  clause _ _ _ _ := ((), .result (.value .none Val.generator?_none))
  init _ _ := (0, .str "old")

/-- The state stays on the stack until there is a result. -/
def Rereads (J : Program rereading) : Prop :=
  (∃ v, J.stack = [.state 0 0 v]) ∨ J.stack = [] ∧ ∃ r, J.control = .result r

theorem stack_acted {J J₁ : Program rereading} {v : Val} (shape : J.stack = [.state 0 0 v])
    {o : Operation Empty} (asks : o.Asks 0) {s : Nat} {act : Act Nat Empty} (performs : act = .perform o s)
    (first : (J.acted act).under false = .ok J₁) : ∃ w, J₁.stack = [.state 0 0 w] := by
  subst performs
  simp only [Program.acted, Program.performed, shape] at first
  cases asks <;> exact ⟨_, by cases first; rfl⟩

theorem Rereads.next {J J₁ : Program rereading} (h : Rereads J) (first : J.next false = .ok J₁) :
    Rereads J₁ := by
  rw [Program.next_eq, Program.step] at first
  obtain ⟨v, shape⟩ | ⟨shape, r, control⟩ := h
  · cases control : J.control with
    | code s a =>
        simp only [control] at first
        obtain _ | _ | s : Nat := s
        · exact .inl (stack_acted (by exact shape) (.put (.str "new")) (s := 1) rfl first)
        · exact .inl (stack_acted (by exact shape) .get (s := 2) rfl first)
        · refine .inl ⟨v, ?_⟩
          obtain ⟨r, done⟩ : ∃ r, (J.memory.step (s + 2 : Nat) a).2 = .done r := by
            obtain v | x := a
            · cases v <;> exact ⟨_, rfl⟩
            · exact ⟨_, rfl⟩
          simp only [done, Program.acted] at first
          cases first
          exact shape
    | result r =>
        simp only [control, Program.delivered, shape] at first
        cases first
        exact .inr ⟨rfl, r, rfl⟩
    | task t s => exact Empty.elim t
  · simp only [control, Program.delivered, shape] at first
    contradiction

theorem state_is_variable_rereading : ∃ fuel w,
    Config.run fuel (start (c := rereading) false ⟨[.scope (.state 0)], false, (0 : Nat)⟩ () default) =
      some (w, .value (.str "new")) := by
  have confines : (begin (c := rereading) ⟨[.scope (.state 0)], false, (0 : Nat)⟩ ()).Confines false 0 0
      fun _ => true := by
    intro m J s a o s' steps control performs asks
    refine ⟨fun _ => ?_, by simp⟩
    obtain ⟨v, shape⟩ | ⟨-, r, result⟩ := steps.kept Rereads.next (.inl ⟨_, rfl⟩)
    · exact ⟨[], v, [], shape, by simp⟩
    · rw [control] at result
      contradiction
  have ended : ((begin (c := rereading.assigning 0 fun _ => true) ⟨[], false, (0 : Nat)⟩ ((), .str "old")).run
      false 10).map Prod.snd = some (.result (.value (.str "new") rfl)) := rfl
  have avoids : rereading.Avoids 0 := by
    refine ⟨fun d s a q s' called => ?_, by simp [rereading], by simp [rereading]⟩
    obtain _ | _ | s : Nat := s
    · contradiction
    · contradiction
    · obtain v | x := a
      · cases v <;> contradiction
      · contradiction
  exact (state_is_variable rereading 0 _ false [] [] false (0 : Nat) () default default avoids
    (by simp [Comp.scopes])
    confines).value ended

end OneShot.Joined
