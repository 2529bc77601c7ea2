import OneShot.Proofs.Joined.Translating

/-!
# States that commute

Two states may be run around a computation in either order.  Each of them answers its
own operations only, in place, so that neither order can be told from the other: every
operation gets the same value, and the same code is run.  Where something else captures
a slice, both states are captured or neither is.
-/

namespace OneShot.Joined

open Deep (Result)

variable {c : Code} {async : Bool} {J J' : Program c}

/-! ## Stacks -/

/-- Stacks that are the same up to the order of neighbouring states, which are different ones. -/
inductive Swapped {σ : Type} : List (Part σ) → List (Part σ) → Prop
  | nil : Swapped [] []
  | part (f : Part σ) {fs fs' : List (Part σ)} (rest : Swapped fs fs') : Swapped (f :: fs) (f :: fs')
  | states {i j n m : Nat} {v w : Val} (apart : n ≠ m) {fs fs' : List (Part σ)}
      (rest : Swapped fs fs') :
      Swapped (.state i n v :: .state j m w :: fs) (.state j m w :: .state i n v :: fs')

section

variable {σ τ : Type} {fs fs' gs gs' : List (Part σ)}

theorem Swapped.refl (fs : List (Part σ)) : Swapped fs fs := by
  induction fs with
  | nil => exact .nil
  | cons f fs ih => exact .part f ih

theorem Swapped.append (first : Swapped fs fs') (second : Swapped gs gs') :
    Swapped (fs ++ gs) (fs' ++ gs') := by
  induction first with
  | nil => exact second
  | part f rest ih => exact .part f ih
  | states apart rest ih => exact .states apart ih

/-- Two stacks at a part that answers an operation in the same way. -/
inductive Answering (way : Way σ τ) : List (Part σ) → List (Part σ) → List (Part σ) →
    List (Part σ) → Prop
  | apart {above above' below below' : List (Part σ)} (first : Swapped above above')
      (second : Swapped below below') : Answering way above below above' below'
  /-- Only a value is the same wherever the part that answers is. -/
  | within {above above' below below' : List (Part σ)} {v : Val} {left : Part σ}
      (value : way = .value v left)
      (left : Swapped (above ++ left :: below) (above' ++ left :: below')) :
      Answering way above below above' below'

theorem Answering.cons {way : Way σ τ} {above above' below below' : List (Part σ)} (f : Part σ)
    (h : Answering way above below above' below') :
    Answering way (f :: above) below (f :: above') below' := by
  cases h with
  | apart first second => exact .apart (.part f first) second
  | within value left => exact .within value (.part f left)

theorem Answering.left {way : Way σ τ} {above above' below below' : List (Part σ)} {v : Val}
    {left : Part σ} (h : Answering way above below above' below') (value : way = .value v left) :
    Swapped (above ++ left :: below) (above' ++ left :: below') := by
  cases h with
  | apart first second => exact first.append (.part left second)
  | within value' swapped =>
      rw [value] at value'
      cases value'
      exact swapped

/-- A state answers with a value, and stays the state that it is. -/
theorem Part.way?_state {i n : Nat} {v : Val} {o : Operation τ} {way : Way σ τ}
    (answers : (Part.state i n v : Part σ).way? o = some way) :
    (∃ u v', way = .value u (.state i n v')) ∧ ∀ j m w, n ≠ m →
      (Part.state j m w : Part σ).way? o = none := by
  cases o <;> simp [Part.way?] at answers
  all_goals
    obtain ⟨rfl, rfl⟩ := answers
    exact ⟨⟨_, _, rfl⟩, fun j m w apart => by simp [Part.way?, Ne.symm apart]⟩

/-- The innermost part that answers an operation is the same in either order. -/
theorem Swapped.owner? (swapped : Swapped fs fs') (o : Operation τ) :
    (Joined.owner? o fs = none ∧ Joined.owner? o fs' = none) ∨
      ∃ above f way below above' below', Joined.owner? o fs = some ⟨above, f, way, below⟩ ∧
        Joined.owner? o fs' = some ⟨above', f, way, below'⟩ ∧
        Answering way above below above' below' := by
  induction swapped with
  | nil => exact .inl ⟨rfl, rfl⟩
  | @part f fs fs' rest ih =>
      cases answers : f.way? o with
      | some way =>
          exact .inr ⟨[], f, way, fs, [], fs', by simp [Joined.owner?, answers],
            by simp [Joined.owner?, answers], .apart .nil rest⟩
      | none =>
          rcases ih with ⟨left, right⟩ | ⟨above, g, way, below, above', below', left, right, found⟩
          · exact .inl ⟨by simp [Joined.owner?, answers, left], by simp [Joined.owner?, answers, right]⟩
          · exact .inr ⟨f :: above, g, way, below, f :: above', below',
              by simp [Joined.owner?, answers, left], by simp [Joined.owner?, answers, right],
              found.cons f⟩
  | @states i j n m v w apart fs fs' rest ih =>
      cases first : (Part.state i n v : Part σ).way? o with
      | some way =>
          obtain ⟨⟨u, v', rfl⟩, others⟩ := Part.way?_state first
          have second := others j m w apart
          exact .inr ⟨[], .state i n v, .value u (.state i n v'), .state j m w :: fs, [.state j m w], fs',
            by simp [Joined.owner?, first], by simp [Joined.owner?, first, second],
            .within rfl (.states apart rest)⟩
      | none =>
          cases second : (Part.state j m w : Part σ).way? o with
          | some way =>
              obtain ⟨⟨u, w', rfl⟩, -⟩ := Part.way?_state second
              exact .inr ⟨[.state i n v], .state j m w, .value u (.state j m w'), fs, [], .state i n v :: fs',
                by simp [Joined.owner?, first, second], by simp [Joined.owner?, second],
                .within rfl (.states apart rest)⟩
          | none =>
              rcases ih with ⟨left, right⟩ | ⟨above, g, way, below, above', below', left, right, found⟩
              · exact .inl ⟨by simp [Joined.owner?, first, second, left],
                  by simp [Joined.owner?, first, second, right]⟩
              · refine .inr ⟨.state i n v :: .state j m w :: above, g, way, below,
                  .state j m w :: .state i n v :: above', below',
                  by simp [Joined.owner?, first, second, left],
                  by simp [Joined.owner?, first, second, right], ?_⟩
                cases found with
                | apart above below => exact .apart (.states apart above) below
                | within value left => exact .within value (.states apart left)

end

/-- States do nothing when they are closed. -/
theorem Swapped.closing {fs fs' : List (Part c.State)} (swapped : Swapped fs fs') (M : Memory c) :
    M.closing fs = M.closing fs' := by
  induction swapped generalizing M with
  | nil => rfl
  | part f rest ih => cases f <;> exact ih _
  | states apart rest ih => exact ih M

/-! ## Programs -/

inductive SwappedSlice {σ : Type} : Option (Slice σ) → Option (Slice σ) → Prop
  | taken : SwappedSlice none none
  | pending (s : σ) {fs fs' : List (Part σ)} (swapped : Swapped fs fs') :
      SwappedSlice (some (s, fs)) (some (s, fs'))

/-- A result has passed one of two states, and a different one in either order. -/
inductive Passing {σ τ : Type} : Control σ τ → List (Part σ) → List (Part σ) → Prop
  | state (r : Result) {i j n m : Nat} {v w : Val} {fs fs' : List (Part σ)} (rest : Swapped fs fs') :
      Passing (.result r) (.state j m w :: fs) (.state i n v :: fs')

/-- Programs that are the same up to the order of states. -/
structure Commutes (J J' : Program c) : Prop where
  memory : J.memory = J'.memory
  slices : List.Forall₂ SwappedSlice J.slices J'.slices
  control : J.control = J'.control
  stack : Swapped J.stack J'.stack ∨ Passing J.control J.stack J'.stack

namespace Commutes

section

variable {slices slices' : List (Option (Slice c.State))}

theorem getElem? (related : List.Forall₂ SwappedSlice slices slices') (k : Nat) :
    (slices[k]? = none ∧ slices'[k]? = none) ∨ (slices[k]? = some none ∧ slices'[k]? = some none) ∨
      ∃ s fs fs', slices[k]? = some (some (s, fs)) ∧ slices'[k]? = some (some (s, fs')) ∧
        Swapped fs fs' := by
  induction related generalizing k with
  | nil => exact .inl ⟨rfl, rfl⟩
  | cons first rest ih =>
      cases k with
      | succ k => exact ih k
      | zero =>
          cases first with
          | taken => exact .inr (.inl ⟨rfl, rfl⟩)
          | pending s swapped => exact .inr (.inr ⟨s, _, _, rfl, rfl, swapped⟩)

theorem set (related : List.Forall₂ SwappedSlice slices slices') (k : Nat) :
    List.Forall₂ SwappedSlice (slices.set k none) (slices'.set k none) := by
  induction related generalizing k with
  | nil => exact .nil
  | cons first rest ih =>
      cases k with
      | zero => exact .cons .taken rest
      | succ k => exact .cons first (ih k)

end

/-- Programs of which only stack and slices are not the same. -/
theorem of_stack {M : Memory c} {slices slices' : List (Option (Slice c.State))}
    {fs fs' : List (Part c.State)} {control : Control c.State c.Task}
    (related : List.Forall₂ SwappedSlice slices slices') (swapped : Swapped fs fs') :
    Commutes (c := c) ⟨M, slices, fs, control⟩ ⟨M, slices', fs', control⟩ :=
  ⟨rfl, related, rfl, .inl swapped⟩

section

variable {M : Memory c} {slices slices' : List (Option (Slice c.State))}
  {fs fs' gs gs' : List (Part c.State)} {control : Control c.State c.Task}

theorem requested (related : List.Forall₂ SwappedSlice slices slices') (swapped : Swapped fs fs')
    (q : Request c.State) :
    Commutes ((⟨M, slices, fs, control⟩ : Program c).requested q)
      ((⟨M, slices', fs', control⟩ : Program c).requested q) := by
  cases q with
  | run p => exact of_stack related ((Swapped.refl _).append swapped)
  | resume k b =>
      rcases getElem? related k with ⟨left, right⟩ | ⟨left, right⟩ | ⟨s, gs, gs', left, right, slice⟩
      · simp only [Program.requested, left, right]
        exact of_stack related swapped
      · simp only [Program.requested, left, right]
        exact of_stack related swapped
      · simp only [Program.requested, left, right]
        exact of_stack (set related k) (slice.append swapped)

theorem opened (related : List.Forall₂ SwappedSlice slices slices') (swapped : Swapped fs fs')
    (o : Opening c.State) :
    Commutes ((⟨M, slices, fs, control⟩ : Program c).opened o)
      ((⟨M, slices', fs', control⟩ : Program c).opened o) := by
  cases o with
  | result r => exact of_stack related swapped
  | request q => exact requested related swapped q

theorem answered (related : List.Forall₂ SwappedSlice slices slices') (j : Nat) (args : List Val)
    (s : c.State) (slice : Swapped gs gs') (below : Swapped fs fs') (hs hs' : List (Part c.State)) :
    Commutes ((⟨M, slices, hs, control⟩ : Program c).answered j args (s, gs) fs)
      ((⟨M, slices', hs', control⟩ : Program c).answered j args (s, gs') fs') := by
  simp only [Program.answered, related.length_eq]
  exact opened (List.rel_append related (.cons (.pending s slice) .nil)) below _

theorem performed (related : List.Forall₂ SwappedSlice slices slices') (swapped : Swapped fs fs')
    (o : Operation c.Task) (s : c.State) :
    Agrees Commutes (· = ·) (((⟨M, slices, fs, control⟩ : Program c).performed o s).under async)
      (((⟨M, slices', fs', control⟩ : Program c).performed o s).under async) := by
  rcases swapped.owner? o with ⟨left, right⟩ | ⟨above, f, way, below, above', below', left, right, found⟩
  · simp only [Program.performed, left, right, Next.under]
    exact .stops _ ((Swapped.part (.code s) swapped).closing M)
  · simp only [Program.performed, left, right]
    cases way with
    | value v part => exact .goes (of_stack related (found.left rfl))
    | clause j args =>
        cases found with
        | apart first second =>
            exact .goes (answered related j args s (first.append (.part f .nil)) second fs fs')
        | within value left => cases value
    | task t blocking =>
        cases found with
        | within value left => cases value
        | apart first second =>
            cases blocking with
            | true => exact .goes (of_stack related swapped)
            | false =>
                cases async with
                | true => exact .goes (of_stack related swapped)
                | false => exact .stops .escaped (second.closing M)

theorem acted (related : List.Forall₂ SwappedSlice slices slices') (swapped : Swapped fs fs')
    (act : Act c.State c.Task) :
    Agrees Commutes (· = ·) (((⟨M, slices, fs, control⟩ : Program c).acted act).under async)
      (((⟨M, slices', fs', control⟩ : Program c).acted act).under async) := by
  cases act with
  | done r => exact .goes (of_stack related swapped)
  | again b s => exact .goes (of_stack related swapped)
  | perform o s => exact performed related swapped o s
  | call q s => exact .goes (requested related (.part (.code s) swapped) q)
  | escape t s =>
      cases async with
      | true => exact .goes (of_stack related swapped)
      | false => exact .stops .escaped ((Swapped.part (.code s) swapped).closing M)

theorem delivered (related : List.Forall₂ SwappedSlice slices slices') (swapped : Swapped fs fs')
    (r : Result) :
    Agrees Commutes (· = ·) (((⟨M, slices, fs, control⟩ : Program c).delivered r).under async)
      (((⟨M, slices', fs', control⟩ : Program c).delivered r).under async) := by
  cases swapped with
  | nil => exact .stops _ rfl
  | states apart rest => exact .goes ⟨rfl, related, rfl, .inr (.state r rest)⟩
  | @part f fs fs' rest =>
      have handed : Commutes (c := c) ⟨M, slices, fs, .result r⟩ ⟨M, slices', fs', .result r⟩ :=
        of_stack related rest
      cases f with
      | code s => exact .goes (of_stack related rest)
      | layer l =>
          cases r with
          | failed x => exact .goes handed
          | value v plain =>
              simp only [Program.delivered]
              cases l.onReturn with
              | none => exact .goes handed
              | some i => exact .goes (opened related rest _)
      | state i n v => exact .goes handed
      | await n blocking => exact .goes handed
      | prompt n => exact .goes handed

end

theorem next (related : Commutes J J') :
    Agrees Commutes (· = ·) (J.next async) (J'.next async) := by
  obtain ⟨M, slices, fs, control⟩ := J
  obtain ⟨M', slices', fs', control'⟩ := J'
  obtain ⟨memory, slices, control, stack⟩ := related
  cases memory
  cases control
  rw [Program.next_eq, Program.next_eq, Program.step, Program.step]
  rcases stack with swapped | passing
  · cases control with
    | code s a => exact acted slices swapped _
    | result r => exact delivered slices swapped r
    | task t s => exact .goes (of_stack slices swapped)
  · cases passing with
    | state r rest => exact .goes (of_stack slices rest)

theorem follows : Follows async async (c := c) Commutes (· = ·) :=
  .of_agrees fun {_ J'} related => ⟨0, J', .zero J', related.next⟩

end Commutes

/-! ## Two orders -/

/--
Two different states may be run around a computation in either order: the computation
ends with the same result or the same error, after the same code was run with the same
answers, and the same operations were performed.  This is so under any driver, under
whatever both states are run, and with whatever is put around the computation inside of them.
-/
theorem states_commute (c : Code) (i j : Nat) (async : Bool) (outer inner : List Wrap) (made : Bool)
    (body : c.State) (d : c.Memory) (settings settings' : Settings)
    (apart : (c.init i d).1 ≠ (c.init j d).1) :
    Alike (start async ⟨outer ++ .scope (.state i) :: .scope (.state j) :: inner, made, body⟩ d settings)
      (start async ⟨outer ++ .scope (.state j) :: .scope (.state i) :: inner, made, body⟩ d settings')
      (· = ·) := by
  have swapped : Commutes
      (begin ⟨outer ++ .scope (.state i) :: .scope (.state j) :: inner, made, body⟩ d)
      (begin ⟨outer ++ .scope (.state j) :: .scope (.state i) :: inner, made, body⟩ d) := by
    refine ⟨rfl, .nil, rfl, .inl ?_⟩
    have both (i j : Nat) : parts d
        (⟨outer ++ .scope (.state i) :: .scope (.state j) :: inner, made, body⟩ : Comp c.State).scopes =
        parts d (inner.flatMap Wrap.scopes) ++ (.state j (c.init j d).1 (c.init j d).2 ::
          .state i (c.init i d).1 (c.init i d).2 :: parts d (outer.flatMap Wrap.scopes)) := by
      simp [Comp.scopes, Wrap.scopes, parts_append, parts, Scope.parts]
    rw [begin, begin, both, both]
    exact (Swapped.refl _).append (.states apart.symm (Swapped.refl _))
  exact Commutes.follows.alike swapped settings settings'

/-- Code that puts into one state what it gets from another one, and gives what it then gets there. -/
def exchanging : Code where
  Memory := Unit
  State := Nat
  Task := Empty
  step _ s a := ((), match s, a with
    | 0, _ => .perform (.get 1) 1
    | 1, .value v => .perform (.put 0 v) 2
    | 2, _ => .perform (.get 0) 3
    | _, .value (.str text) => .done (.value (.str text) (Val.generator?_str text))
    | _, _ => .done (.value .none Val.generator?_none))
  exit _ _ := ()
  task _ t := nomatch t
  onReturn _ _ _ := ((), .result (.value .none Val.generator?_none))
  clause _ _ _ _ := ((), .result (.value .none Val.generator?_none))
  init i _ := (i, .str (if i = 0 then "zero" else "one"))

/-- The value goes from one state to the other in either order. -/
theorem states_commute_exchanging : ∃ fuel w,
    Config.run fuel (start (c := exchanging) false ⟨[.scope (.state 1), .scope (.state 0)], false, (0 : Nat)⟩
      () default) = some (w, .value (.str "one")) := by
  have apart : (exchanging.init 0 ()).1 ≠ (exchanging.init 1 ()).1 := by decide
  have ended : ((begin (c := exchanging) ⟨[.scope (.state 0), .scope (.state 1)], false, (0 : Nat)⟩
      ()).run false 10).map Prod.snd = some (.result (.value (.str "one") rfl)) := rfl
  exact (states_commute exchanging 0 1 false [] [] false (0 : Nat) () default default apart).value ended

end OneShot.Joined
