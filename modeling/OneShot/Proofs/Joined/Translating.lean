import OneShot.Proofs.Joined.Simulating

/-!
# Programs that are translated

A translation replaces the states of code, and the computations, by those of other
code.  On a stack of the other code there may be more parts, which hand on whatever
comes and answer nothing.  A program and its translation take their steps together.
-/

namespace OneShot.Joined

open Deep (Result)

/-! ## What code does, in other states -/

section

variable {σ σ' τ τ' : Type}

def Operation.map (f : τ → τ') : Operation τ → Operation τ'
  | .ask e args => .ask e args
  | .get n => .get n
  | .put n v => .put n v
  | .await n t => .await n (f t)
  | .shift n j => .shift n j

@[simp] theorem Operation.map_id (o : Operation τ) : o.map id = o := by
  cases o <;> rfl

theorem Operation.effect_map (f : τ → τ') (o : Operation τ) : (o.map f).effect = o.effect := by
  cases o <;> rfl

def Move.map (f : τ → τ') : Move τ → Move τ'
  | .pause t => .pause (f t)
  | .done a => .done a

@[simp] theorem Move.map_id (m : Move τ) : m.map id = m := by
  cases m <;> rfl

def Request.map (ρ : Comp σ → Comp σ') : Request σ → Request σ'
  | .resume k b => .resume k b
  | .run p => .run (ρ p)

def Opening.map (ρ : Comp σ → Comp σ') : Opening σ → Opening σ'
  | .result r => .result r
  | .request q => .request (q.map ρ)

def Act.map (φ : σ → σ') (f : τ → τ') (ρ : Comp σ → Comp σ') : Act σ τ → Act σ' τ'
  | .done r => .done r
  | .again b s => .again b (φ s)
  | .perform o s => .perform (o.map f) (φ s)
  | .escape t s => .escape (f t) (φ s)
  | .call q s => .call (q.map ρ) (φ s)

/-- Whether a part of a stack hands on every result. -/
def Part.handsOn : Part σ → Bool
  | .code _ => false
  | .layer l => l.onReturn.isNone
  | _ => true

end

theorem owner?_way {σ τ : Type} {o : Operation τ} {fs above below : List (Part σ)} {f : Part σ}
    {w : Way σ τ} (h : owner? o fs = some ⟨above, f, w, below⟩) :
    fs = above ++ f :: below ∧ f.way? o = some w := by
  induction fs generalizing above with
  | nil => contradiction
  | cons g fs ih =>
      simp only [owner?] at h
      split at h
      · rename_i found
        cases h
        exact ⟨rfl, found⟩
      · obtain ⟨⟨above', f', w', below'⟩, found, same⟩ := Option.map_eq_some_iff.1 h
        cases same
        obtain ⟨rfl, answers⟩ := ih found
        exact ⟨rfl, answers⟩

variable {c c' : Code} {async async' : Bool}

theorem Program.delivered_handsOn {J : Program c} {f : Part c.State} {fs : List (Part c.State)}
    (stack : J.stack = f :: fs) (handsOn : f.handsOn = true) (r : Result) :
    J.delivered r = .more { J with stack := fs, control := .result r } := by
  unfold Program.delivered
  rw [stack]
  cases f with
  | code s => contradiction
  | layer l =>
      cases r with
      | failed x => rfl
      | value v plain =>
          have none_called : l.onReturn = none := Option.isNone_iff_eq_none.1 handsOn
          simp only [none_called]
  | _ => rfl

/-- What a step comes to under a driver. -/
def Next.under (async : Bool) : Next c → Except (Memory c × Ending) (Program c)
  | .more J => .ok J
  | .finished J r => .error (J.memory, .result r)
  | .leaves J o s => .error (J.memory.closing (.code s :: J.stack), .uncaught o.effect)
  | .escapes J t s held =>
      if async then .ok { J with control := .task t s }
      else .error (J.memory.closing held, .escaped)

theorem Program.next_eq (J : Program c) : J.next async = J.step.under async := by
  unfold Program.next
  cases J.step <;> rfl

/-! ## Translations -/

structure Translation (c c' : Code) where
  state : c.State → c'.State
  task : c.Task → c'.Task
  comp : Comp c.State → Comp c'.State
  /-- What a handler is known by, instead of what it was. -/
  name : Nat → Nat
  /-- Whether an awaiter blocks, instead of whether it did. -/
  blocking : Bool → Bool
  /-- What there may be more of on a stack. -/
  extra : Part c'.State → Prop
  same : Memory c → Memory c' → Prop

namespace Translation

variable (T : Translation c c')

def part : Part c.State → Part c'.State
  | .code s => .code (T.state s)
  | .layer l => .layer { l with id := T.name l.id }
  | .state i n v => .state i n v
  | .await n blocking => .await n (T.blocking blocking)
  | .prompt n => .prompt n

def way : Way c.State c.Task → Way c'.State c'.Task
  | .clause j args => .clause j args
  | .value v left => .value v (T.part left)
  | .task t blocking => .task (T.task t) (T.blocking blocking)

theorem way?_part (f : Part c.State) (o : Operation c.Task) :
    (T.part f).way? (o.map T.task) = (f.way? o).map T.way := by
  cases f with
  | layer l => cases o <;> simp [part, Part.way?, Operation.map, Function.comp_def, way, Layer.clause?]
  | _ => cases o <;> simp [part, Part.way?, Operation.map, apply_ite, way]

def act : Act c.State c.Task → Act c'.State c'.Task := Act.map T.state T.task T.comp

def control : Control c.State c.Task → Control c'.State c'.Task
  | .code s a => .code (T.state s) a
  | .result r => .result r
  | .task t s => .task (T.task t) (T.state s)

/-- A stack and its translation. -/
inductive Stacks : List (Part c.State) → List (Part c'.State) → Prop
  | nil : Stacks [] []
  | part (f : Part c.State) {fs : List (Part c.State)} {fs' : List (Part c'.State)}
      (rest : Stacks fs fs') : Stacks (f :: fs) (T.part f :: fs')
  | extra {f : Part c'.State} {fs : List (Part c.State)} {fs' : List (Part c'.State)}
      (more : T.extra f) (rest : Stacks fs fs') : Stacks fs (f :: fs')

inductive Slices : Option (Slice c.State) → Option (Slice c'.State) → Prop
  | taken : Slices none none
  | pending (s : c.State) {fs : List (Part c.State)} {fs' : List (Part c'.State)}
      (stacked : T.Stacks fs fs') : Slices (some (s, fs)) (some (T.state s, fs'))

/-- A program and its translation. -/
structure Relates (J : Program c) (J' : Program c') : Prop where
  memory : T.same J.memory J'.memory
  slices : List.Forall₂ T.Slices J.slices J'.slices
  stack : T.Stacks J.stack J'.stack
  control : J'.control = T.control J.control

/-- What a step under a driver comes to, and what that of the translation does. -/
abbrev Agrees : Except (Memory c × Ending) (Program c) → Except (Memory c' × Ending) (Program c') → Prop :=
  Joined.Agrees T.Relates T.same

/--
A translation of all that a program does apart from the steps of its computations,
from one driver to another.
-/
structure Lawful (async async' : Bool) : Prop where
  body : ∀ p, (T.comp p).body = T.state p.body
  begins : ∀ {M : Memory c} {M' : Memory c'} (p : Comp c.State), T.same M M' →
    T.Stacks (parts M.data p.scopes) (parts M'.data (T.comp p).scopes)
  clause : ∀ {M : Memory c} {M' : Memory c'} (j k : Nat) (args : List Val), T.same M M' →
    T.same (M.clause j k args).1 (M'.clause j k args).1 ∧
      (M'.clause j k args).2 = (M.clause j k args).2.map T.comp
  returns : ∀ {M : Memory c} {M' : Memory c'} (i : Nat) (v : Val), T.same M M' →
    T.same (M.onReturn i v).1 (M'.onReturn i v).1 ∧
      (M'.onReturn i v).2 = (M.onReturn i v).2.map T.comp
  task : ∀ {M : Memory c} {M' : Memory c'} (t : c.Task), T.same M M' →
    T.same (M.task t).1 (M'.task (T.task t)).1 ∧ (M'.task (T.task t)).2 = (M.task t).2.map T.task
  exit : ∀ {M : Memory c} {M' : Memory c'} (s : c.State), T.same M M' →
    T.same (M.exit s) (M'.exit (T.state s))
  awaits : ∀ blocking, (T.blocking blocking || async') = (blocking || async)
  extra : ∀ f, T.extra f → f.handsOn = true

/-- No part that a stack has more of answers an operation that comes to it. -/
def Silent (o : Operation c.Task) (fs' : List (Part c'.State)) : Prop :=
  ∀ above f below, fs' = above ++ f :: below → T.extra f →
    (∀ g ∈ above, g.way? (o.map T.task) = none) → f.way? (o.map T.task) = none

variable {T} in
theorem Silent.tail {o : Operation c.Task} {f : Part c'.State} {fs' : List (Part c'.State)}
    (silent : T.Silent o (f :: fs')) (passes : f.way? (o.map T.task) = none) : T.Silent o fs' :=
  fun above g below shape more others => silent (f :: above) g below (congrArg (f :: ·) shape) more
    (List.forall_mem_cons.2 ⟨passes, others⟩)

variable {T} {J : Program c} {J' : Program c'} {M : Memory c} {M' : Memory c'}
  {fs gs : List (Part c.State)} {fs' gs' : List (Part c'.State)}

/-! ## Stacks -/

theorem Stacks.append (first : T.Stacks fs fs') (second : T.Stacks gs gs') :
    T.Stacks (fs ++ gs) (fs' ++ gs') := by
  induction first with
  | nil => exact second
  | part f _ ih => exact .part f ih
  | extra more _ ih => exact .extra more ih

/-- The innermost part that answers an operation, and that of the translation. -/
theorem Stacks.owner? (stacked : T.Stacks fs fs') {o : Operation c.Task} (silent : T.Silent o fs') :
    (owner? o fs = none ∧ owner? (o.map T.task) fs' = none) ∨
      ∃ above f way below above' below', owner? o fs = some ⟨above, f, way, below⟩ ∧
        owner? (o.map T.task) fs' = some ⟨above', T.part f, T.way way, below'⟩ ∧
        T.Stacks above above' ∧ T.Stacks below below' := by
  induction stacked with
  | nil => exact .inl ⟨rfl, rfl⟩
  | part f rest ih =>
      have answers := T.way?_part f o
      rcases way : f.way? o with _ | w
      · rw [way] at answers
        simp only [Option.map_none] at answers
        rcases ih (silent.tail answers) with ⟨none₁, none₂⟩ | ⟨above, g, w, below, above', below',
          some₁, some₂, stacked₁, stacked₂⟩
        · exact .inl ⟨by simp [Joined.owner?, way, none₁], by simp [Joined.owner?, answers, none₂]⟩
        · exact .inr ⟨f :: above, g, w, below, T.part f :: above', below',
            by simp [Joined.owner?, way, some₁], by simp [Joined.owner?, answers, some₂],
            .part f stacked₁, stacked₂⟩
      · rw [way] at answers
        simp only [Option.map_some] at answers
        exact .inr ⟨[], f, w, _, [], _, by simp [Joined.owner?, way], by simp [Joined.owner?, answers],
          .nil, rest⟩
  | @extra f _ _ more rest ih =>
      have answers := silent [] f _ rfl more (by simp)
      rcases ih (silent.tail answers) with ⟨none₁, none₂⟩ | ⟨above, g, w, below, above', below',
        some₁, some₂, stacked₁, stacked₂⟩
      · exact .inl ⟨none₁, by simp [Joined.owner?, answers, none₂]⟩
      · exact .inr ⟨above, g, w, below, f :: above', below', some₁,
          by simp [Joined.owner?, answers, some₂], .extra more stacked₁, stacked₂⟩

theorem Stacks.closing (lawful : T.Lawful async async') (stacked : T.Stacks fs fs')
    (same : T.same M M') : T.same (M.closing fs) (M'.closing fs') := by
  induction stacked generalizing M M' with
  | nil => exact same
  | part f rest ih =>
      cases f with
      | code s => exact ih (lawful.exit s same)
      | _ => exact ih same
  | @extra f _ _ more rest ih =>
      have handsOn := lawful.extra f more
      cases f with
      | code s => contradiction
      | _ => exact ih same

/-! ## Slices -/

section

variable {slices : List (Option (Slice c.State))} {slices' : List (Option (Slice c'.State))}

theorem Slices.getElem? (related : List.Forall₂ T.Slices slices slices') (k : Nat) :
    (slices[k]? = none ∧ slices'[k]? = none) ∨ (slices[k]? = some none ∧ slices'[k]? = some none) ∨
      ∃ s fs fs', slices[k]? = some (some (s, fs)) ∧ slices'[k]? = some (some (T.state s, fs')) ∧
        T.Stacks fs fs' := by
  induction related generalizing k with
  | nil => exact .inl ⟨rfl, rfl⟩
  | cons first _ ih =>
      cases k with
      | zero =>
          cases first with
          | taken => exact .inr (.inl ⟨rfl, rfl⟩)
          | pending s stacked => exact .inr (.inr ⟨s, _, _, rfl, rfl, stacked⟩)
      | succ k => exact ih k

theorem Slices.set (related : List.Forall₂ T.Slices slices slices') (k : Nat) :
    List.Forall₂ T.Slices (slices.set k none) (slices'.set k none) := by
  induction related generalizing k with
  | nil => exact .nil
  | cons first rest ih =>
      cases k with
      | zero => exact .cons .taken rest
      | succ k => exact .cons first (ih k)

end

/-! ## Steps -/

theorem Relates.requested (lawful : T.Lawful async async') (related : T.Relates J J')
    (q : Request c.State) : T.Relates (J.requested q) (J'.requested (q.map T.comp)) := by
  cases q with
  | resume k b =>
      rcases Slices.getElem? related.slices k with ⟨left, right⟩ | ⟨left, right⟩ | ⟨s, fs, fs', left, right, stacked⟩
      · simp only [Request.map, Program.requested, left, right]
        exact ⟨related.memory, related.slices, related.stack, rfl⟩
      · simp only [Request.map, Program.requested, left, right]
        exact ⟨related.memory, related.slices, related.stack, rfl⟩
      · simp only [Request.map, Program.requested, left, right]
        exact ⟨related.memory, Slices.set related.slices k, stacked.append related.stack, rfl⟩
  | run p =>
      refine ⟨related.memory, related.slices, (lawful.begins p related.memory).append related.stack, ?_⟩
      exact congrArg (Control.code · (.value .none)) (lawful.body p)

theorem Relates.opened (lawful : T.Lawful async async') (related : T.Relates J J')
    (o : Opening c.State) : T.Relates (J.opened o) (J'.opened (o.map T.comp)) := by
  cases o with
  | result r => exact ⟨related.memory, related.slices, related.stack, rfl⟩
  | request q => exact related.requested lawful q

theorem Relates.answered (lawful : T.Lawful async async') (related : T.Relates J J') (j : Nat)
    (args : List Val) (s : c.State) (slice : T.Stacks fs fs') (below : T.Stacks gs gs') :
    T.Relates (J.answered j args (s, fs) gs) (J'.answered j args (T.state s, fs') gs') := by
  obtain ⟨same, opening⟩ := lawful.clause j J.slices.length args related.memory
  rw [related.slices.length_eq] at same opening
  simp only [Program.answered, related.slices.length_eq, opening]
  have called : T.Relates
      { J with memory := (J.memory.clause j J'.slices.length args).1,
               slices := J.slices ++ [some (s, fs)], stack := gs }
      { J' with memory := (J'.memory.clause j J'.slices.length args).1,
                slices := J'.slices ++ [some (T.state s, fs')], stack := gs' } :=
    ⟨same, List.rel_append related.slices (.cons (.pending s slice) .nil), below, related.control⟩
  exact called.opened lawful _

theorem Relates.performed (lawful : T.Lawful async async') (related : T.Relates J J')
    {o : Operation c.Task} (silent : T.Silent o J'.stack) (s : c.State) :
    T.Agrees ((J.performed o s).under async) ((J'.performed (o.map T.task) (T.state s)).under async') := by
  rcases related.stack.owner? silent with ⟨left, right⟩ | ⟨above, f, way, below, above', below', left,
    right, stacked, stacked'⟩
  · simp only [Program.performed, left, right, Next.under, Operation.effect_map]
    exact .stops _ (Stacks.closing lawful (.part (.code s) related.stack) related.memory)
  · simp only [Program.performed, left, right]
    cases way with
    | clause j args =>
        exact .goes (related.answered lawful j args s (stacked.append (.part f .nil)) stacked')
    | value v part =>
        exact .goes ⟨related.memory, related.slices, stacked.append (.part part stacked'), rfl⟩
    | task t blocking =>
        have awaits := lawful.awaits blocking
        simp only [Translation.way]
        have goes : T.Relates { J with control := .task t s }
            { J' with control := .task (T.task t) (T.state s) } :=
          ⟨related.memory, related.slices, related.stack, rfl⟩
        have stops := Stacks.closing lawful stacked' related.memory
        revert awaits
        cases blocking <;> cases async <;> cases T.blocking _ <;> cases async' <;> intro awaits <;>
          first | contradiction | exact .goes goes | exact .stops .escaped stops

theorem Relates.acted (lawful : T.Lawful async async') (related : T.Relates J J')
    {act : Act c.State c.Task} (silent : ∀ o s, act = .perform o s → T.Silent o J'.stack)
    (driven : ∀ t s, act = .escape t s → async = async') :
    T.Agrees ((J.acted act).under async) ((J'.acted (T.act act)).under async') := by
  cases act with
  | done r => exact .goes ⟨related.memory, related.slices, related.stack, rfl⟩
  | again b s => exact .goes ⟨related.memory, related.slices, related.stack, rfl⟩
  | perform o s => exact related.performed lawful (silent o s rfl) s
  | escape t s =>
      cases driven t s rfl
      cases async with
      | true => exact .goes ⟨related.memory, related.slices, related.stack, rfl⟩
      | false => exact .stops .escaped (Stacks.closing lawful (.part (.code s) related.stack) related.memory)
  | call q s =>
      have waits : T.Relates { J with stack := .code s :: J.stack }
          { J' with stack := .code (T.state s) :: J'.stack } :=
        ⟨related.memory, related.slices, .part (.code s) related.stack, related.control⟩
      exact .goes (waits.requested lawful q)

/-- What a stack has more of hands a result on, down to the next part that is translated. -/
theorem Relates.handsOn (lawful : T.Lawful async async') {r : Result} (control : J.control = .result r)
    (related : T.Relates J J') : ∃ n J₁, J'.Steps async' n J₁ ∧ T.Relates J J₁ ∧
      ((J.stack = [] ∧ J₁.stack = []) ∨ ∃ f fs fs', J.stack = f :: fs ∧ J₁.stack = T.part f :: fs' ∧
        T.Stacks fs fs') := by
  obtain ⟨memory, slices, stacked, controls⟩ := related
  generalize left : J.stack = fs at stacked
  generalize right : J'.stack = fs' at stacked
  induction stacked generalizing J' with
  | nil => exact ⟨0, J', .zero J', ⟨memory, slices, by rw [left, right]; exact .nil, controls⟩,
      .inl ⟨rfl, right⟩⟩
  | part f rest => exact ⟨0, J', .zero J', ⟨memory, slices, by rw [left, right]; exact .part f rest, controls⟩,
      .inr ⟨f, _, _, rfl, right, rest⟩⟩
  | @extra f fs fs' more rest ih =>
      have result : J'.control = .result r := by rw [controls, control]; rfl
      let K : Program c' := { J' with stack := fs', control := .result r }
      have stepped : J'.next async' = .ok K := by
        rw [Program.next_eq, Program.step, result]
        exact congrArg (Next.under async') (Program.delivered_handsOn right (lawful.extra f more) r)
      obtain ⟨n, J₁, steps, related, shape⟩ := @ih K memory slices (by rw [control]; rfl) left rfl
      exact ⟨n + 1, J₁, .succ stepped steps, related, shape⟩

theorem Relates.delivered (lawful : T.Lawful async async') (related : T.Relates J J') {r : Result}
    (shape : (J.stack = [] ∧ J'.stack = []) ∨ ∃ f fs fs', J.stack = f :: fs ∧ J'.stack = T.part f :: fs' ∧
      T.Stacks fs fs') :
    T.Agrees ((J.delivered r).under async) ((J'.delivered r).under async') := by
  rcases shape with ⟨left, right⟩ | ⟨f, fs, fs', left, right, rest⟩
  · simp only [Program.delivered, left, right]
    exact .stops _ related.memory
  · have handed : T.Relates { J with stack := fs, control := .result r }
        { J' with stack := fs', control := .result r } := ⟨related.memory, related.slices, rest, rfl⟩
    simp only [Program.delivered, left, right]
    cases f with
    | code s => exact .goes ⟨related.memory, related.slices, rest, rfl⟩
    | layer l =>
        cases r with
        | failed x => exact .goes handed
        | value v plain =>
            simp only [part]
            rcases l.onReturn with _ | i
            · exact .goes handed
            · obtain ⟨same, opening⟩ := lawful.returns i v related.memory
              simp only [opening]
              have called : T.Relates { J with memory := (J.memory.onReturn i v).1, stack := fs }
                  { J' with memory := (J'.memory.onReturn i v).1, stack := fs' } :=
                ⟨same, related.slices, rest, related.control⟩
              exact .goes (called.opened lawful _)
    | _ => exact .goes handed

/-- A program and its translation take a step, unless what it does is not translated as such. -/
theorem Relates.next (lawful : T.Lawful async async') (related : T.Relates J J')
    (code : ∀ s a, J.control = .code s a →
      T.same (J.memory.step s a).1 (J'.memory.step (T.state s) a).1 ∧
        (J'.memory.step (T.state s) a).2 = T.act (J.memory.step s a).2 ∧
        (∀ o s', (J.memory.step s a).2 = .perform o s' → T.Silent o J'.stack) ∧
        ∀ t s', (J.memory.step s a).2 = .escape t s' → async = async') :
    ∃ n J₁, J'.Steps async' n J₁ ∧ T.Agrees (J.next async) (J₁.next async') := by
  cases control : J.control with
  | code s a =>
      obtain ⟨same, acts, silent, driven⟩ := code s a control
      have control' : J'.control = .code (T.state s) a := by rw [related.control, control]; rfl
      refine ⟨0, J', .zero J', ?_⟩
      rw [Program.next_eq, Program.next_eq, Program.step, Program.step, control, control']
      simp only [acts]
      have stepped : T.Relates { J with memory := (J.memory.step s a).1, control := .code s a }
          { J' with memory := (J'.memory.step (T.state s) a).1, control := .code (T.state s) a } :=
        ⟨same, related.slices, related.stack, rfl⟩
      exact stepped.acted lawful silent driven
  | result r =>
      obtain ⟨n, J₁, steps, related₁, shape⟩ := related.handsOn lawful control
      have control' : J₁.control = .result r := by rw [related₁.control, control]; rfl
      refine ⟨n, J₁, steps, ?_⟩
      rw [Program.next_eq, Program.next_eq, Program.step, Program.step, control, control']
      exact related₁.delivered lawful shape
  | task t s =>
      have control' : J'.control = .task (T.task t) (T.state s) := by rw [related.control, control]; rfl
      obtain ⟨same, moved⟩ := lawful.task t related.memory
      refine ⟨0, J', .zero J', ?_⟩
      rw [Program.next_eq, Program.next_eq, Program.step, Program.step, control, control']
      simp only [moved]
      refine .goes ⟨same, related.slices, related.stack, ?_⟩
      cases (J.memory.task t).2 <;> rfl

theorem begins (lawful : T.Lawful async async') (p : Comp c.State) {d : c.Memory} {d' : c'.Memory}
    (same : T.same ⟨d, []⟩ ⟨d', []⟩) : T.Relates (begin p d) (begin (T.comp p) d') :=
  ⟨same, .nil, lawful.begins p same, congrArg (Control.code · (.value .none)) (lawful.body p)⟩

/--
All programs follow one another if all steps of code are translated, given what holds all
along of the programs on the right.
-/
theorem follows (lawful : T.Lawful async async') {I : Program c' → Prop}
    (kept : ∀ {J₁ J₂ : Program c'}, I J₁ → J₁.next async' = .ok J₂ → I J₂)
    (code : ∀ {J : Program c} {J' : Program c'}, T.Relates J J' → I J' → ∀ s a, J.control = .code s a →
      T.same (J.memory.step s a).1 (J'.memory.step (T.state s) a).1 ∧
        (J'.memory.step (T.state s) a).2 = T.act (J.memory.step s a).2 ∧
        (∀ o s', (J.memory.step s a).2 = .perform o s' → T.Silent o J'.stack) ∧
        ∀ t s', (J.memory.step s a).2 = .escape t s' → async = async') :
    Follows async async' (fun J J' => T.Relates J J' ∧ I J') T.same := by
  refine .of_agrees fun related => ?_
  obtain ⟨n, J₁, steps, agrees⟩ := related.1.next lawful (code related.1 related.2)
  exact ⟨n, J₁, steps, agrees.imp
    (fun _ next goes => ⟨goes, kept (steps.kept kept related.2) next⟩) id⟩

end Translation
end OneShot.Joined
