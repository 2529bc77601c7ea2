import OneShot.Proofs.Joined.Translating

/-!
# Computations under other wraps

Code that does the same, but puts its computations under other wraps.  If these come
to stacks that are translated, the programs of the code are.
-/

namespace OneShot.Joined

variable {c : Code} {async async' : Bool}

/-- The same code, whose computations are put under other wraps. -/
@[reducible]
def Code.rewrap (c : Code) (ρ : Comp c.State → Comp c.State) : Code where
  Memory := c.Memory
  State := c.State
  Task := c.Task
  step d s a := ((c.step d s a).1, (c.step d s a).2.map id id ρ)
  exit := c.exit
  task := c.task
  onReturn i d v := ((c.onReturn i d v).1, (c.onReturn i d v).2.map ρ)
  clause j d k args := ((c.clause j d k args).1, (c.clause j d k args).2.map ρ)
  init := c.init

/-- The programs of code whose computations are put under other wraps. -/
def rewrapping (ρ : Comp c.State → Comp c.State) (name : Nat → Nat) (blocking : Bool → Bool)
    (extra : Part c.State → Prop) : Translation c (c.rewrap ρ) where
  state := id
  task := id
  comp := ρ
  name := name
  blocking := blocking
  extra := extra
  same M M' := M.data = M'.data ∧ M.log = M'.log

variable {ρ : Comp c.State → Comp c.State} {ν : Nat → Nat} {β : Bool → Bool} {extra : Part c.State → Prop}

theorem parts_rewrap (d : c.Memory) (ws : List Scope) :
    (parts (c := c.rewrap ρ) d ws : List (Part c.State)) = parts d ws := by
  induction ws with
  | nil => rfl
  | cons w ws ih => cases w <;> simp only [parts, Scope.parts, ih]

theorem stacks_rewrapping (fs : List (Part c.State)) : (rewrapping ρ id id extra).Stacks fs fs := by
  induction fs with
  | nil => exact .nil
  | cons f fs ih =>
      have same : (rewrapping ρ id id extra).part f = f := by cases f <;> rfl
      have stacked := Translation.Stacks.part f ih
      rwa [same] at stacked

/-- Computations that are put under other wraps have the same bodies, under stacks that are translated. -/
structure Rewraps (ρ : Comp c.State → Comp c.State) (ν : Nat → Nat) (β : Bool → Bool)
    (extra : Part c.State → Prop) : Prop where
  body : ∀ p, (ρ p).body = p.body
  begins : ∀ d p, (rewrapping ρ ν β extra).Stacks (parts d p.scopes) (parts (c := c) d (ρ p).scopes)
  extra : ∀ f, extra f → f.handsOn = true

theorem Rewraps.lawful (h : Rewraps ρ ν β extra)
    (awaits : ∀ blocking, (β blocking || async') = (blocking || async)) :
    (rewrapping ρ ν β extra).Lawful async async' where
  body := h.body
  begins := by
    intro M M' p same
    have whole : parts (c := c.rewrap ρ) M'.data (ρ p).scopes = parts (c := c) M.data (ρ p).scopes :=
      (parts_rewrap (c := c) M'.data _).trans (congrArg (parts · _) same.1.symm)
    exact Eq.mpr (congrArg _ whole) (h.begins M.data p)
  clause := by
    rintro ⟨d, log⟩ ⟨_, _⟩ j k args ⟨rfl, rfl⟩
    exact ⟨⟨rfl, rfl⟩, rfl⟩
  returns := by
    rintro ⟨d, log⟩ ⟨_, _⟩ i v ⟨rfl, rfl⟩
    exact ⟨⟨rfl, rfl⟩, rfl⟩
  task := by
    rintro ⟨d, log⟩ ⟨_, _⟩ t ⟨rfl, rfl⟩
    exact ⟨⟨rfl, rfl⟩, (Move.map_id _).symm⟩
  exit := by
    rintro ⟨d, log⟩ ⟨_, _⟩ s ⟨rfl, rfl⟩
    exact ⟨rfl, rfl⟩
  awaits := awaits
  extra := h.extra

theorem step_rewrap {M : Memory c} {M' : Memory (c.rewrap ρ)}
    (same : (rewrapping ρ ν β extra).same M M') (s : c.State) (a : Deep.Answer) :
    (rewrapping ρ ν β extra).same (M.step s a).1 (M'.step s a).1 ∧
      (M'.step s a).2 = (rewrapping ρ ν β extra).act (M.step s a).2 := by
  obtain ⟨d, log⟩ := M
  obtain ⟨_, _⟩ := M'
  obtain ⟨rfl, rfl⟩ := same
  refine ⟨?_, rfl⟩
  simp only [Memory.step, Memory.running]
  cases (c.step d s a).2 with
  | perform o s => cases o <;> exact ⟨rfl, rfl⟩
  | _ => exact ⟨rfl, rfl⟩

theorem Rewraps.begin (h : Rewraps ρ ν β extra) (p : Comp c.State) (d : c.Memory) :
    (rewrapping ρ ν β extra).Relates (begin p d) (begin (ρ p) d) := by
  have whole : parts (c := c.rewrap ρ) d (ρ p).scopes = parts (c := c) d (ρ p).scopes :=
    parts_rewrap (c := c) d _
  refine ⟨⟨rfl, rfl⟩, .nil, Eq.mpr (congrArg _ whole) (h.begins d p), ?_⟩
  exact congrArg (Control.code · (.value .none)) (h.body p)

end OneShot.Joined
