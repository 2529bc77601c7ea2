import OneShot.Proofs.Joined.Rewrapping

/-!
# Handlers that let everything through

More handlers may be put anywhere around computations.  If they have no return handlers,
and own none of the effects that come to them, a program does the same as before: what it
performs goes to the same owners, over whatever machines there are now.  Which handlers
they are does not matter, for nothing depends on what a handler is known by.
-/

namespace OneShot.Joined

variable {c : Code} {async : Bool} {U : Layer → Prop}

/-! ## More layers -/

/-- Scopes with more layers among them. -/
inductive Inserts (U : Layer → Prop) : List Scope → List Scope → Prop
  | nil : Inserts U [] []
  | scope (w : Scope) {ws ws' : List Scope} (rest : Inserts U ws ws') : Inserts U (w :: ws) (w :: ws')
  | layer {u : Layer} {ws ws' : List Scope} (more : U u) (rest : Inserts U ws ws') :
      Inserts U ws (.handle u :: ws')

def Part.among {σ : Type} (U : Layer → Prop) : Part σ → Prop
  | .layer u => U u
  | _ => False

/-- Computations are put under more layers, which leave results as they are. -/
structure Layering (U : Layer → Prop) (ρ : Comp c.State → Comp c.State) : Prop where
  plain : ∀ u, U u → u.onReturn = none
  body : ∀ p, (ρ p).body = p.body
  inserts : ∀ p, Inserts U p.scopes (ρ p).scopes

/--
No layer of some owns an effect that comes to it: what is performed while the layer is on
the stack, and not answered by what is above it.
-/
def Program.Spares (async : Bool) (U : Layer → Prop) (J : Program c) : Prop :=
  ∀ n J' s a o s', J.Steps async n J' → J'.control = .code s a →
    (J'.memory.step s a).2 = .perform o s' → ∀ above u below, J'.stack = above ++ .layer u :: below →
      U u → (∀ f ∈ above, f.way? o = none) → (Part.layer u : Part c.State).way? o = none

theorem Program.Spares.next {J J₁ : Program c} (spares : J.Spares async U) (first : J.next async = .ok J₁) :
    J₁.Spares async U :=
  fun n J' s a o s' steps => spares (n + 1) J' s a o s' (.succ first steps)

/-- Layers are spared that own no effect that is performed anywhere. -/
theorem spares_of_foreign {J : Program c} (foreign : ∀ d s a o s', (c.step d s a).2 = .perform o s' →
    ∀ u, U u → (Part.layer u : Part c.State).way? o = none) : J.Spares async U :=
  fun _ J' s a o s' _ _ performs _ u _ _ more _ => foreign J'.memory.data s a o s' performs u more

/-- The same programs, with more layers on their stacks. -/
abbrev layering (U : Layer → Prop) (ρ : Comp c.State → Comp c.State) : Translation c (c.rewrap ρ) :=
  rewrapping ρ id id (Part.among U)

theorem Inserts.stacks {ρ : Comp c.State → Comp c.State} {ws ws' : List Scope} (h : Inserts U ws ws')
    (d : c.Memory) : (layering U ρ).Stacks (parts d ws) (parts (c := c) d ws') := by
  induction h with
  | nil => exact .nil
  | scope w rest ih => exact ih.append (stacks_rewrapping _)
  | @layer u ws ws' more rest ih =>
      have extra : (layering U ρ).Stacks [] [.layer u] := .extra more .nil
      have whole := ih.append extra
      rw [List.append_nil] at whole
      exact whole

theorem Layering.rewraps {ρ : Comp c.State → Comp c.State} (h : Layering U ρ) :
    Rewraps ρ id id (Part.among U) where
  body := h.body
  begins d p := (h.inserts p).stacks d
  extra f more := by
    cases f with
    | layer u => exact congrArg Option.isNone (h.plain u more)
    | _ => exact more.elim

theorem follows_layered {ρ : Comp c.State → Comp c.State} (h : Layering U ρ) : Follows async async
    (fun J J' => (layering U ρ).Relates J J' ∧ J'.Spares async U) (layering U ρ).same :=
  Translation.follows (h.rewraps.lawful fun _ => rfl) Program.Spares.next
    fun {J J'} related spares s a control => by
      obtain ⟨same, acts⟩ := step_rewrap related.memory s a
      refine ⟨same, acts, fun o s' performs above f below shape more others => ?_, fun t s' _ => rfl⟩
      have control' : J'.control = .code s a := by rw [related.control, control]; rfl
      rw [performs] at acts
      have here : o.map id = o := o.map_id
      cases f with
      | layer u =>
          refine spares 0 J' s a _ s' (.zero J') control' acts above u below shape more others
      | _ => exact more.elim

/-! ## Other names -/

def Scope.rename (ν : Nat → Nat) : Scope → Scope
  | .handle l => .handle { l with id := ν l.id }
  | w => w

def Wrap.rename (ν : Nat → Nat) : Wrap → Wrap
  | .scope w => .scope (w.rename ν)
  | .combined id head inner => .combined id (head.rename ν) (inner.rename ν)

/-- The same computation, under handlers that are known by something else. -/
def Comp.rename {σ : Type} (ν : Nat → Nat) (p : Comp σ) : Comp σ :=
  ⟨p.wraps.map (Wrap.rename ν), p.made, p.body⟩

theorem Comp.scopes_rename {σ : Type} (ν : Nat → Nat) (p : Comp σ) :
    (p.rename ν).scopes = p.scopes.map (Scope.rename ν) := by
  have wraps (f : Wrap) : (f.rename ν).scopes = f.scopes.map (Scope.rename ν) := by
    induction f with
    | scope w => rfl
    | combined id head inner first second => simp [Wrap.rename, Wrap.scopes, first, second]
  simp [Comp.scopes, Comp.rename, List.map_flatMap, List.flatMap_map, wraps]

/-- The same programs, where handlers are known by something else. -/
abbrev renamed (c : Code) (ν : Nat → Nat) : Translation c (c.rewrap (Comp.rename ν)) :=
  rewrapping (Comp.rename ν) ν id fun _ => False

theorem rewraps_rename (ν : Nat → Nat) :
    Rewraps (c := c) (Comp.rename ν) ν id fun _ => False where
  body _ := rfl
  begins d p := by
    rw [Comp.scopes_rename]
    induction p.scopes with
    | nil => exact .nil
    | cons w ws ih =>
        refine ih.append ?_
        cases w with
        | handle l => exact .part (.layer l) .nil
        | state i => exact .part (.state i (c.init i d).1 (c.init i d).2) .nil
        | await n b => exact .part (.await n b) .nil
        | reset n => exact .part (.prompt n) .nil
        | nothing => exact .nil
  extra _ none_more := none_more.elim

theorem follows_renamed (ν : Nat → Nat) : Follows async async
    (fun J J' => (renamed c ν).Relates J J' ∧ True) (renamed c ν).same :=
  Translation.follows ((rewraps_rename ν).lawful fun _ => rfl) (fun _ _ => trivial)
    fun related _ s a control => by
      obtain ⟨same, acts⟩ := step_rewrap related.memory s a
      exact ⟨same, acts, fun o s' _ above f below _ more => more.elim, fun t s' _ => rfl⟩

/--
Handlers without return handlers that own no effect which comes to them let everything
through: with more of them, anywhere around any computations, a run ends alike, after the
same code was run, the same operations were performed and the same clauses were called in
the same order.  Nothing depends on what handlers are known by.
-/
theorem layers_transparent :
    (∀ (c : Code) (U : Layer → Prop) (ρ : Comp c.State → Comp c.State) (async : Bool)
      (p : Comp c.State) (d : c.Memory) (settings settings' : Settings), Layering U ρ →
      (begin (c := c.rewrap ρ) (ρ p) d).Spares async U →
      Alike (start async p d settings) (start (c := c.rewrap ρ) async (ρ p) d settings')
        fun M M' => M.data = M'.data ∧ M.log = M'.log) ∧
    ∀ (c : Code) (ν : Nat → Nat) (async : Bool) (p : Comp c.State) (d : c.Memory)
      (settings settings' : Settings), Alike (start async p d settings)
        (start (c := c.rewrap (Comp.rename ν)) async (p.rename ν) d settings')
        fun M M' => M.data = M'.data ∧ M.log = M'.log := by
  refine ⟨fun c U ρ async p d settings settings' layering spares => ?_,
    fun c ν async p d settings settings' => ?_⟩
  · exact (follows_layered layering).alike ⟨layering.rewraps.begin p d, spares⟩ settings settings'
  · exact (follows_renamed ν).alike ⟨(rewraps_rename ν).begin p d, trivial⟩ settings settings'

/-- Code that performs an effect, which a clause resumes it for. -/
def asking : Code where
  Memory := Unit
  State := Bool
  Task := Empty
  step _ answered _ := ((), if answered then .done (.value (.str "answered") (Val.generator?_str _))
    else .perform (.ask 0 []) true)
  exit _ _ := ()
  task _ t := nomatch t
  onReturn _ _ _ := ((), .result (.value .none Val.generator?_none))
  clause _ _ k _ := ((), .request (.resume k (.value .none)))
  init _ _ := (0, .none)

/-- A computation under one more layer, which owns another effect. -/
def Comp.guarded {σ : Type} (p : Comp σ) : Comp σ :=
  ⟨p.wraps ++ [.scope (.handle ⟨1, none, [(1, 0)]⟩)], p.made, p.body⟩

theorem layering_guarded : Layering (c := asking) (fun u => u = ⟨1, none, [(1, 0)]⟩) Comp.guarded where
  plain _ same := same ▸ rfl
  body _ := rfl
  inserts p := by
    have scopes : p.guarded.scopes = p.scopes ++ [.handle ⟨1, none, [(1, 0)]⟩] := by
      simp [Comp.scopes, Comp.guarded, Wrap.scopes]
    rw [scopes]
    induction p.scopes with
    | nil => exact .layer rfl .nil
    | cons w ws ih => exact .scope w ih

theorem layers_transparent_guarded : ∃ fuel w,
    Config.run fuel (start (c := asking.rewrap Comp.guarded) false
      (Comp.guarded ⟨[.scope (.handle ⟨0, none, [(0, 0)]⟩)], false, false⟩) () default) =
      some (w, .value (.str "answered")) := by
  have spares (J : Program (asking.rewrap Comp.guarded)) :
      J.Spares false fun u => u = ⟨1, none, [(1, 0)]⟩ := by
    refine spares_of_foreign fun d s a o s' performs u same => ?_
    cases s with
    | false => cases performs; cases same; rfl
    | true => contradiction
  have ended : ((begin (c := asking) ⟨[.scope (.handle ⟨0, none, [(0, 0)]⟩)], false, false⟩ ()).run false
      10).map Prod.snd = some (.result (.value (.str "answered") rfl)) := rfl
  exact (layers_transparent.1 asking _ _ false _ () default default layering_guarded (spares _)).value ended

end OneShot.Joined
