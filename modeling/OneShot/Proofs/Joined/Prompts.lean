import Mathlib.Logic.Relation
import OneShot.Proofs.Joined.Translating

/-!
# Prompts

Programs of returns, sequencing, resets and shifts over any number of prompts are run as
their reduction semantics says.  There a body gets the function that a captured context is;
these functions are kept in a list, and bodies know them by their numbers.
-/

namespace OneShot.Joined.Delimited

/-! ## Terms -/

/-- A value that is no generator object. -/
abbrev Plain := { v : Val // v.generator? = none }

/-- A program.  What is reset may be a generator that was made before. -/
inductive Term where
  | ret (v : Plain)
  | bind (t : Term) (f : Plain → Term)
  | reset (p : Nat) (made : Bool) (t : Term)
  /-- With a body, which gets a continuation. -/
  | shift0 (p : Nat) (f : Nat → Term)
  | resume (k : Nat) (v : Plain)

inductive Frame where
  | bind (f : Plain → Term)
  | reset (p : Nat) (made : Bool)

def Frame.fill : Frame → Term → Term
  | .bind f, t => .bind t f
  | .reset p made, t => .reset p made t

def Frame.resets (p : Nat) : Frame → Bool
  | .bind _ => false
  | .reset q _ => q == p

/-- An evaluation context, innermost first. -/
abbrev Context := List Frame

def plug : Context → Term → Term
  | [], t => t
  | F :: E, t => plug E (F.fill t)

theorem plug_append (E E' : Context) (t : Term) : plug (E ++ E') t = plug E' (plug E t) := by
  induction E generalizing t with
  | nil => rfl
  | cons F E ih => exact ih (F.fill t)

/-! ## Reduction -/

/-- A program on its way: what the continuations are, and which of them were resumed. -/
structure Running where
  conts : List (Plain → Term)
  resumed : List Nat
  term : Term

inductive Reduces : Running → Running → Prop
  | bind {ks : List (Plain → Term)} {ns : List Nat} (E : Context) (v : Plain) (f : Plain → Term) :
      Reduces ⟨ks, ns, plug E (.bind (.ret v) f)⟩ ⟨ks, ns, plug E (f v)⟩
  | reset {ks : List (Plain → Term)} {ns : List Nat} (E : Context) (p : Nat) (made : Bool) (v : Plain) :
      Reduces ⟨ks, ns, plug E (.reset p made (.ret v))⟩ ⟨ks, ns, plug E (.ret v)⟩
  /-- The body is run outside the reset; its continuation puts it back. -/
  | shift0 {ks : List (Plain → Term)} {ns : List Nat} (E : Context) {E' : Context} {p : Nat} (made : Bool)
      (f : Nat → Term) (inner : ∀ F ∈ E', F.resets p = false) :
      Reduces ⟨ks, ns, plug E (.reset p made (plug E' (.shift0 p f)))⟩
        ⟨ks ++ [fun v => .reset p made (plug E' (.ret v))], ns, plug E (f ks.length)⟩
  | resume {ks : List (Plain → Term)} {ns : List Nat} (E : Context) {k : Nat} {g : Plain → Term}
      (v : Plain) (known : ks[k]? = some g) :
      Reduces ⟨ks, ns, plug E (.resume k v)⟩ ⟨ks, ns ++ [k], plug E (g v)⟩

/-- What a program that is reduced no more has come to. -/
inductive Outcome : Term → Ending → Prop
  | value (v : Plain) : Outcome (.ret v) (.result (.value v.1 v.2))
  | uncaught {E : Context} {p : Nat} (f : Nat → Term) (bare : ∀ F ∈ E, F.resets p = false) :
      Outcome (plug E (.shift0 p f)) (.uncaught (shiftEffect p))

abbrev Reaches (t : Term) (r : Running) : Prop := Relation.ReflTransGen Reduces ⟨[], [], t⟩ r

def Term.Comes (t : Term) (e : Ending) : Prop := ∃ r, Reaches t r ∧ Outcome r.term e

/-- What is to be resumed next was captured, and was not resumed before. -/
def Running.Fresh (r : Running) : Prop :=
  ∀ E k v, r.term = plug E (.resume k v) → k < r.conts.length ∧ k ∉ r.resumed

/-- Bodies resume what they get, each at most once. -/
def Term.Linear (t : Term) : Prop := ∀ r, Reaches t r → r.Fresh

/-! ## One way to go on -/

/-- The innermost part of a term, and what is around it. -/
def Term.focus : Term → Context × Term
  | .bind t f => (t.focus.1 ++ [.bind f], t.focus.2)
  | .reset p made t => (t.focus.1 ++ [.reset p made], t.focus.2)
  | t => ([], t)

theorem focus_plug (E : Context) (t : Term) : (plug E t).focus = (t.focus.1 ++ E, t.focus.2) := by
  induction E generalizing t with
  | nil => simp [plug]
  | cons F E ih => cases F <;> simp [plug, ih, Frame.fill, Term.focus]

/-- What a program is reduced to. -/
def Running.next? (r : Running) : Option Running :=
  match r.term.focus with
  | (.bind f :: E, .ret v) => some { r with term := plug E (f v) }
  | (.reset _ _ :: E, .ret v) => some { r with term := plug E (.ret v) }
  | (E, .shift0 p f) =>
      match E.dropWhile fun F => !F.resets p with
      | .reset _ made :: E₁ =>
          some { r with
            conts := r.conts ++ [fun v => .reset p made (plug (E.takeWhile fun F => !F.resets p) (.ret v))]
            term := plug E₁ (f r.conts.length) }
      | _ => none
  | (E, .resume k v) =>
      r.conts[k]?.map fun g => { r with resumed := r.resumed ++ [k], term := plug E (g v) }
  | _ => none

theorem while_inner {E E' : Context} {p : Nat} (inner : ∀ F ∈ E', F.resets p = false) :
    (E' ++ E).takeWhile (fun F => !F.resets p) = E' ++ E.takeWhile (fun F => !F.resets p) ∧
      (E' ++ E).dropWhile (fun F => !F.resets p) = E.dropWhile fun F => !F.resets p := by
  have others : ∀ F ∈ E', (!F.resets p) = true := fun F here => by rw [inner F here]; rfl
  exact ⟨List.takeWhile_append_of_pos others, List.dropWhile_append_of_pos others⟩

theorem Reduces.next? {r r' : Running} (h : Reduces r r') : r.next? = some r' := by
  cases h with
  | bind E v f => simp only [Running.next?, focus_plug, Term.focus, List.nil_append, List.singleton_append]
  | reset E p made v => simp only [Running.next?, focus_plug, Term.focus, List.nil_append, List.singleton_append]
  | @shift0 ks ns E E' p made f inner =>
      have focus : (plug E (.reset p made (plug E' (.shift0 p f)))).focus =
          (E' ++ .reset p made :: E, .shift0 p f) := by
        simp [focus_plug, Term.focus]
      obtain ⟨before, after⟩ := while_inner (E := .reset p made :: E) inner
      have here : (Frame.reset p made).resets p = true := beq_self_eq_true p
      simp only [Running.next?, focus, before, after, List.dropWhile_cons, List.takeWhile_cons, here,
        Bool.not_true, Bool.false_eq_true, if_false, List.append_nil]
  | resume E v known => simp only [Running.next?, focus_plug, Term.focus, List.nil_append, known, Option.map_some]

theorem Outcome.next? {r : Running} {e : Ending} (h : Outcome r.term e) : r.next? = none := by
  obtain ⟨ks, ns, t⟩ := r
  cases h with
  | value v => rfl
  | @uncaught E p f bare =>
      obtain ⟨-, after⟩ := while_inner (E := []) bare
      rw [List.append_nil] at after
      simp only [Running.next?, focus_plug, Term.focus, List.nil_append, after, List.dropWhile_nil]

theorem Outcome.unique {t : Term} {e e' : Ending} (h : Outcome t e) (h' : Outcome t e') : e = e' := by
  have focus : ∀ {e}, Outcome t e → e = match t.focus.2 with
      | .ret v => .result (.value v.1 v.2)
      | .shift0 p _ => .uncaught (shiftEffect p)
      | _ => .escaped := by
    rintro e (v | ⟨f, bare⟩)
    · rfl
    · rw [focus_plug]
      rfl
  exact (focus h).trans (focus h').symm

/-! ## The code of a program -/

/-- What a computation of a program does: it starts, or waits for the value of what it has called. -/
inductive Stage where
  | enter (t : Term)
  | bound (f : Plain → Term)
  /-- What it has called gives the result. -/
  | back

/-- Goes on with a value; an exception is left to travel. -/
def onValue {τ : Type} (a : Deep.Answer) (f : Plain → Act Stage τ) : Act Stage τ :=
  match a with
  | .failed x => .done (.failed x)
  | .value v => if plain : v.generator? = none then f ⟨v, plain⟩
      else .done (.value .none Val.generator?_none)

/-- Computations that do what terms say.  The body of a shift is noted for the call of it. -/
@[reducible]
def programs : Code where
  Memory := Nat → Term
  State := Stage
  Task := Empty
  step body s a :=
    match s with
    | .enter (.ret v) => (body, .done (.value v.1 v.2))
    | .enter (.bind t f) => (body, .call (.run ⟨[], false, .enter t⟩) (.bound f))
    | .enter (.reset p made t) => (body, .call (.run ⟨[.scope (.reset p)], made, .enter t⟩) .back)
    | .enter (.shift0 p f) => (f, .perform (.shift p 0) .back)
    | .enter (.resume k v) => (body, .call (.resume k (.value v.1)) .back)
    | .bound f => (body, onValue a fun v => .again (.value .none) (.enter (f v)))
    | .back => (body, onValue a fun v => .done (.value v.1 v.2))
  exit body _ := body
  task _ t := nomatch t
  onReturn _ body _ := (body, .result (.value .none Val.generator?_none))
  clause _ body k _ := (body, .request (.run ⟨[], false, .enter (body k)⟩))
  init _ _ := (0, .none)

/-! ## Stacks and contexts -/

/-- A stack on which contexts wait; what only hands on a result is part of none. -/
inductive Stands : List (Part Stage) → Context → Prop
  | nil : Stands [] []
  | bound (f : Plain → Term) {fs : List (Part Stage)} {E : Context} (rest : Stands fs E) :
      Stands (.code (.bound f) :: fs) (.bind f :: E)
  | back {fs : List (Part Stage)} {E : Context} (rest : Stands fs E) : Stands (.code .back :: fs) E
  | reset (p : Nat) (made : Bool) {fs : List (Part Stage)} {E : Context} (rest : Stands fs E) :
      Stands (.prompt p :: fs) (.reset p made :: E)

variable {fs fs' : List (Part Stage)} {E E' : Context} {p : Nat}

theorem Stands.append (h : Stands fs E) (h' : Stands fs' E') : Stands (fs ++ fs') (E ++ E') := by
  induction h with
  | nil => exact h'
  | bound f _ ih => exact .bound f ih
  | back _ ih => exact .back ih
  | reset p made _ ih => exact .reset p made ih

/-- What a shift captures is what the reduction rule does. -/
theorem Stands.owner? (h : Stands fs E) (p j : Nat) :
    (owner? (τ := Empty) (.shift p j) fs = none ∧ ∀ F ∈ E, F.resets p = false) ∨
      ∃ above below E₁ made E₂, owner? (τ := Empty) (.shift p j) fs =
          some ⟨above, .prompt p, .clause j [], below⟩ ∧
        Stands above E₁ ∧ Stands below E₂ ∧ E = E₁ ++ .reset p made :: E₂ ∧
        ∀ F ∈ E₁, F.resets p = false := by
  induction h with
  | nil => exact .inl ⟨rfl, nofun⟩
  | @bound f fs E _ ih =>
      rcases ih with ⟨none_owns, bare⟩ | ⟨above, below, E₁, made, E₂, owns, first, second, rfl, inner⟩
      · exact .inl ⟨by simp [Joined.owner?, Part.way?, none_owns], List.forall_mem_cons.2 ⟨rfl, bare⟩⟩
      · exact .inr ⟨_, below, .bind f :: E₁, made, E₂, by simp [Joined.owner?, Part.way?, owns],
          .bound f first, second, rfl, List.forall_mem_cons.2 ⟨rfl, inner⟩⟩
  | @back fs E _ ih =>
      rcases ih with ⟨none_owns, bare⟩ | ⟨above, below, E₁, made, E₂, owns, first, second, rfl, inner⟩
      · exact .inl ⟨by simp [Joined.owner?, Part.way?, none_owns], bare⟩
      · exact .inr ⟨_, below, E₁, made, E₂, by simp [Joined.owner?, Part.way?, owns], .back first, second,
          rfl, inner⟩
  | @reset q made fs E rest ih =>
      by_cases same : q = p
      · subst same
        exact .inr ⟨[], fs, [], made, E, by simp [Joined.owner?, Part.way?], .nil, rest, rfl, nofun⟩
      · have other : (Frame.reset q made).resets p = false := beq_false_of_ne same
        rcases ih with ⟨none_owns, bare⟩ | ⟨above, below, E₁, made', E₂, owns, first, second, rfl, inner⟩
        · exact .inl ⟨by simp [Joined.owner?, Part.way?, same, none_owns],
            List.forall_mem_cons.2 ⟨other, bare⟩⟩
        · exact .inr ⟨_, below, .reset q made :: E₁, made', E₂, by simp [Joined.owner?, Part.way?, same, owns],
            .reset q made first, second, rfl, List.forall_mem_cons.2 ⟨other, inner⟩⟩

/-! ## Programs on their way -/

/-- The term that is in control. -/
inductive Focus : Control Stage Empty → Term → Prop
  | enter (t : Term) (a : Deep.Answer) : Focus (.code (.enter t) a) t
  | bound (f : Plain → Term) (v : Plain) : Focus (.code (.bound f) (.value v.1)) (.bind (.ret v) f)
  | back (v : Plain) : Focus (.code .back (.value v.1)) (.ret v)
  | result (v : Plain) : Focus (.result (.value v.1 v.2)) (.ret v)

/-- Slices are what continuations say, unless these were resumed. -/
structure Stored (slices : List (Option (Slice Stage))) (ks : List (Plain → Term)) (ns : List Nat) : Prop where
  length : slices.length = ks.length
  pending : ∀ (k : Nat) (s : Stage) (fs : List (Part Stage)), slices[k]? = some (some (s, fs)) →
    s = .back ∧ ∃ E, Stands fs E ∧ ks[k]? = some fun v => plug E (.ret v)
  taken : ∀ k : Nat, slices[k]? = some none → k ∈ ns

/-- The stack of a program, and the term that it stands for. -/
structure Shows (J : Program programs) (r : Running) : Prop where
  stored : Stored J.slices r.conts r.resumed
  term : ∃ E t, Stands J.stack E ∧ Focus J.control t ∧ r.term = plug E t

def Term.depth : Term → Nat
  | .bind t _ | .reset _ _ t => t.depth + 1
  | _ => 0

/-- What becomes less with every step that is no reduction. -/
def weight (J : Program programs) : Nat :=
  3 * J.stack.length + match J.control with
    | .code (.enter t) _ => 7 * t.depth + 2
    | .code _ _ => 1
    | _ => 0

/-- What a step of a program is for the term that it stands for. -/
inductive Progress (heavy : Nat) (r : Running) :
    Except (Memory programs × Ending) (Program programs) → Prop
  | stops {M : Memory programs} {e : Ending} (comes : Outcome r.term e) : Progress heavy r (.error (M, e))
  | stays {J : Program programs} (still : Shows J r) (less : weight J < heavy) : Progress heavy r (.ok J)
  | reduces {J : Program programs} {r' : Running} (reduces : Reduces r r') (goes : Shows J r') :
      Progress heavy r (.ok J)

variable {J : Program programs} {r : Running} {async : Bool} {heavy : Nat}

section

variable {slices : List (Option (Slice Stage))} {ks : List (Plain → Term)} {ns : List Nat}

theorem Stored.capture (h : Stored slices ks ns) (stands : Stands fs E) :
    Stored (slices ++ [some (.back, fs)]) (ks ++ [fun v => plug E (.ret v)]) ns where
  length := by simp [h.length]
  pending k s fs' here := by
    rcases Nat.lt_or_ge k slices.length with old | new
    · rw [List.getElem?_append_left old] at here
      obtain ⟨rfl, E', stands', known⟩ := h.pending k s fs' here
      exact ⟨rfl, E', stands', by rw [List.getElem?_append_left (h.length ▸ old), known]⟩
    · rw [List.getElem?_append_right new, List.getElem?_singleton] at here
      split at here
      · rename_i last
        cases here
        have last' : k - ks.length = 0 := h.length ▸ last
        exact ⟨rfl, E, stands, by
          rw [List.getElem?_append_right (h.length ▸ new), List.getElem?_singleton, if_pos last']⟩
      · contradiction
  taken k here := by
    rcases Nat.lt_or_ge k slices.length with old | new
    · rw [List.getElem?_append_left old] at here
      exact h.taken k here
    · rw [List.getElem?_append_right new, List.getElem?_singleton] at here
      split at here <;> cases here

theorem Stored.resume (h : Stored slices ks ns) (k : Nat) : Stored (slices.set k none) ks (ns ++ [k]) where
  length := by simp [h.length]
  pending k' s fs' here := by
    rw [List.getElem?_set] at here
    split at here
    · split at here <;> cases here
    · exact h.pending k' s fs' here
  taken k' here := by
    rw [List.getElem?_set] at here
    split at here
    · rename_i same
      simp [same]
    · exact List.mem_append_left _ (h.taken k' here)

/-- What a continuation is that was not resumed. -/
theorem Stored.fresh (h : Stored slices ks ns) {k : Nat} (known : k < ks.length) (once : k ∉ ns) :
    ∃ fs E, slices[k]? = some (some (.back, fs)) ∧ Stands fs E ∧ ks[k]? = some fun v => plug E (.ret v) := by
  have here : k < slices.length := h.length ▸ known
  rcases slice : slices[k] with _ | ⟨s, fs⟩
  · exact absurd (h.taken k (by rw [List.getElem?_eq_getElem here, slice])) once
  · have at_k : slices[k]? = some (some (s, fs)) := by rw [List.getElem?_eq_getElem here, slice]
    obtain ⟨rfl, E, stands, is⟩ := h.pending k s fs at_k
    exact ⟨fs, E, at_k, stands, is⟩

end

theorem Shows.shift0 {f : Nat → Term} (stored : Stored J.slices r.conts r.resumed) (stands : Stands J.stack E)
    (term : r.term = plug E (.shift0 p f)) (body : J.memory.data = f) :
    Progress heavy r ((J.performed (.shift p 0) .back).under async) := by
  obtain ⟨ks, ns, t⟩ := r
  cases term
  simp only [Program.performed]
  rcases stands.owner? p 0 with ⟨none_owns, bare⟩ | ⟨above, below, E₁, made, E₂, owns, first, second, rfl, inner⟩
  · simp only [none_owns]
    exact .stops (.uncaught f bare)
  · simp only [owns]
    have captured := stored.capture (first.append (.reset p made .nil))
    have cont (v : Plain) : plug (E₁ ++ [.reset p made]) (.ret v) = .reset p made (plug E₁ (.ret v)) :=
      plug_append ..
    simp only [cont] at captured
    have reduces : Reduces ⟨ks, ns, plug (E₁ ++ .reset p made :: E₂) (.shift0 p f)⟩
        ⟨ks ++ [fun v => .reset p made (plug E₁ (.ret v))], ns, plug E₂ (f ks.length)⟩ := by
      rw [plug_append]
      exact .shift0 E₂ made f inner
    refine .reduces reduces ⟨captured, E₂, f ks.length, second, ?_, rfl⟩
    rw [← body, ← stored.length]
    exact .enter _ _

theorem Shows.resume {k : Nat} {v : Plain} (stored : Stored J.slices r.conts r.resumed)
    (stands : Stands J.stack E) (term : r.term = plug E (.resume k v))
    (fresh : k < r.conts.length ∧ k ∉ r.resumed) :
    Progress heavy r (.ok ({ J with stack := .code .back :: J.stack }.requested (.resume k (.value v.1)))) := by
  obtain ⟨ks, ns, t⟩ := r
  cases term
  obtain ⟨fs, E', here, inner, known⟩ := stored.fresh fresh.1 fresh.2
  simp only [Program.requested, here]
  refine .reduces (.resume E v known) ⟨stored.resume k, E' ++ E, .ret v, inner.append (.back stands),
    .back v, ?_⟩
  exact (plug_append ..).symm

theorem Shows.delivered {v : Plain} (stored : Stored J.slices r.conts r.resumed)
    (stands : Stands J.stack E) (control : J.control = .result (.value v.1 v.2))
    (term : r.term = plug E (.ret v)) : Progress (weight J) r ((J.delivered (.value v.1 v.2)).under async) := by
  obtain ⟨ks, ns, t⟩ := r
  cases term
  have weighs : weight J = 3 * J.stack.length := by simp only [weight, control, Nat.add_zero]
  rw [weighs]
  unfold Program.delivered
  generalize shape : J.stack = fs at stands
  cases stands with
  | nil => exact .stops (.value v)
  | bound f rest => exact .stays ⟨stored, _, _, rest, .bound f v, rfl⟩ (by simp [weight]; omega)
  | back rest => exact .stays ⟨stored, _, _, rest, .back v, rfl⟩ (by simp [weight]; omega)
  | reset p made rest => exact .reduces (.reset _ p made v) ⟨stored, _, _, rest, .result v, rfl⟩

theorem onValue_plain {τ : Type} (v : Plain) (f : Plain → Act Stage τ) : onValue (.value v.1) f = f v :=
  dif_pos v.2

theorem Shows.next (async : Bool) (h : Shows J r) (fresh : r.Fresh) :
    Progress (weight J) r (J.next async) := by
  obtain ⟨stored, E, t, stands, focus, term⟩ := h
  rw [Program.next_eq, Program.step]
  generalize control : J.control = k at focus
  cases focus with
  | enter t a =>
      cases t with
      | ret v =>
          exact .stays ⟨stored, E, .ret v, stands, .result v, term⟩ (by simp [weight, control])
      | bind t f =>
          refine .stays ⟨stored, .bind f :: E, t, .bound f stands, .enter t _, term⟩ ?_
          simp [weight, control, Term.depth, Program.requested, Comp.scopes, parts]
          omega
      | reset p made t =>
          refine .stays ⟨stored, .reset p made :: E, t, .reset p made (.back stands), .enter t _, term⟩ ?_
          simp [weight, control, Term.depth, Program.requested, Comp.scopes, Wrap.scopes, parts, Scope.parts]
          omega
      | shift0 p f =>
          exact Shows.shift0 (J := ⟨⟨f, _⟩, J.slices, J.stack, _⟩) stored stands term rfl
      | resume k v =>
          exact Shows.resume (J := ⟨_, J.slices, J.stack, _⟩) stored stands term (fresh E k v term)
  | bound f v =>
      obtain ⟨ks, ns, t⟩ := r
      cases term
      have acts : (J.memory.step (.bound f) (.value v.1)).2 = .again (.value .none) (.enter (f v)) :=
        onValue_plain v fun v => .again (.value .none) (.enter (f v))
      simp only [acts]
      exact .reduces (.bind E v f) ⟨stored, E, f v, stands, .enter _ _, rfl⟩
  | back v =>
      have acts : (J.memory.step .back (.value v.1)).2 = .done (.value v.1 v.2) :=
        onValue_plain v fun v => .done (.value v.1 v.2)
      simp only [acts]
      exact .stays ⟨stored, E, .ret v, stands, .result v, term⟩ (by simp [weight, control])
  | result v => exact Shows.delivered stored stands control term

/-! ## Runs -/

theorem Shows.comes {M : Memory programs} {e : Ending} (shows : Shows J r)
    (linear : ∀ r', Relation.ReflTransGen Reduces r r' → r'.Fresh) (ends : J.Ends async M e) :
    ∃ r', Relation.ReflTransGen Reduces r r' ∧ Outcome r'.term e := by
  induction ends generalizing r with
  | stops last =>
      have progress := shows.next async (linear r .refl)
      rw [last] at progress
      cases progress with
      | stops comes => exact ⟨r, .refl, comes⟩
  | step first _ ih =>
      have progress := shows.next async (linear r .refl)
      rw [first] at progress
      cases progress with
      | stays still less => exact ih still linear
      | reduces reduces goes =>
          obtain ⟨r', reaches, comes⟩ := ih goes fun r' rest => linear r' (.head reduces rest)
          exact ⟨r', .head reduces reaches, comes⟩

theorem Shows.ends (async : Bool) {r' : Running} {e : Ending} (shows : Shows J r)
    (linear : ∀ r', Relation.ReflTransGen Reduces r r' → r'.Fresh)
    (reaches : Relation.ReflTransGen Reduces r r') (comes : Outcome r'.term e) :
    ∃ M, J.Ends async M e := by
  -- A program that is reduced no further has few steps left before the next reduction.
  induction reaches using Relation.ReflTransGen.head_induction_on generalizing J with
  | refl =>
      induction weighs : weight J using Nat.strong_induction_on generalizing J with
      | _ n ih =>
          have progress := shows.next async (linear r' .refl)
          generalize next : J.next async = out at progress
          cases progress with
          | stops comes' =>
              cases comes.unique comes'
              exact ⟨_, .stops next⟩
          | stays still less =>
              obtain ⟨M, ends⟩ := ih _ (weighs ▸ less) still rfl
              exact ⟨M, .step next ends⟩
          | reduces reduces goes => cases comes.next?.symm.trans reduces.next?
  | head first rest ih =>
      rename_i r₀ r₁
      induction weighs : weight J using Nat.strong_induction_on generalizing J with
      | _ n ih' =>
          have progress := shows.next async (linear r₀ .refl)
          generalize next : J.next async = out at progress
          cases progress with
          | stops comes' => cases comes'.next?.symm.trans first.next?
          | stays still less =>
              obtain ⟨M, ends⟩ := ih' _ (weighs ▸ less) still rfl
              exact ⟨M, .step next ends⟩
          | reduces reduces goes =>
              cases reduces.next?.symm.trans first.next?
              obtain ⟨M, ends⟩ := ih goes fun r' more => linear r' (.head reduces more)
              exact ⟨M, .step next ends⟩

/-- A program under resets of prompts, outermost first. -/
def Term.under (ps : List Nat) (t : Term) : Term := ps.foldr (.reset · false ·) t

theorem Shows.begin (ps : List Nat) (made : Bool) (t : Term) (d : Nat → Term) :
    Shows (begin (c := programs) ⟨ps.map fun p => .scope (.reset p), made, .enter t⟩ d)
      ⟨[], [], t.under ps⟩ := by
  have stacked : ∃ E, Stands (parts (c := programs) d (ps.map Scope.reset)) E ∧ t.under ps = plug E t := by
    induction ps with
    | nil => exact ⟨[], .nil, rfl⟩
    | cons p ps ih =>
        obtain ⟨E, stands, term⟩ := ih
        have outermost : Stands (Scope.parts (c := programs) d (.reset p)) [.reset p false] :=
          .reset p false .nil
        refine ⟨E ++ [.reset p false], stands.append outermost, ?_⟩
        rw [plug_append, ← term]
        rfl
  have scopes : (⟨ps.map fun p => .scope (.reset p), made, .enter t⟩ : Comp Stage).scopes =
      ps.map Scope.reset := by
    simp only [Comp.scopes, List.flatMap_map, Wrap.scopes]
    exact List.map_eq_flatMap.symm
  obtain ⟨E, stands, term⟩ := stacked
  refine ⟨⟨rfl, nofun, nofun⟩, E, t, ?_, .enter t _, term⟩
  rw [Joined.begin, scopes]
  exact stands

/--
A program with resets and shifts over any number of prompts, whose bodies resume their
continuations at most once, gives just what it is reduced to: a value, or the error for a
shift that no reset of its prompt is around.
-/
theorem prompts_reduce (ps : List Nat) (t : Term) (made async : Bool) (d : Nat → Term)
    (settings : Settings) (linear : (t.under ps).Linear) :
    (∀ e, (t.under ps).Comes e → ∃ fuel w r, Config.run fuel (start (c := programs) async
        ⟨ps.map fun p => .scope (.reset p), made, .enter t⟩ d settings) = some (w, r) ∧ e.Replies r) ∧
    ∀ fuel w r, Config.run fuel (start (c := programs) async
        ⟨ps.map fun p => .scope (.reset p), made, .enter t⟩ d settings) = some (w, r) →
      ∃ e, (t.under ps).Comes e ∧ e.Replies r := by
  have shows := Shows.begin ps made t d
  obtain ⟨runs, ends⟩ := adequate (c := programs) async
    ⟨ps.map fun p => .scope (.reset p), made, .enter t⟩ d settings
  refine ⟨fun e comes => ?_, fun fuel w r ended => ?_⟩
  · obtain ⟨r', reaches, outcome⟩ := comes
    obtain ⟨M, program⟩ := shows.ends async linear reaches outcome
    obtain ⟨fuel, w, r, ended, -, replies⟩ := runs M e program
    exact ⟨fuel, w, r, ended, replies⟩
  · obtain ⟨e, program, replies⟩ := ends fuel w r ended
    obtain ⟨r', reaches, outcome⟩ := shows.comes linear program
    exact ⟨e, ⟨r', reaches, outcome⟩, replies⟩

/-- A program that captures a context with a reset of another prompt, and resumes it. -/
def crossing : Term :=
  .reset 1 false (.shift0 0 fun k => .resume k ⟨.str "crossed", rfl⟩)

/-- What is captured under the reset of the first prompt. -/
def crossing.cont (v : Plain) : Term := .reset 0 false (.reset 1 false (.ret v))

theorem crossing_reaches {r : Running} (h : Reaches (crossing.under [0]) r) :
    r = ⟨[], [], crossing.under [0]⟩ ∨ r = ⟨[crossing.cont], [], .resume 0 ⟨.str "crossed", rfl⟩⟩ ∨
      ∃ E ∈ [[.reset 1 false, .reset 0 false], [.reset 0 false], []],
        r = ⟨[crossing.cont], [0], plug E (.ret ⟨.str "crossed", rfl⟩)⟩ := by
  induction h with
  | refl => exact .inl rfl
  | tail _ reduces ih =>
      have next := reduces.next?
      obtain rfl | rfl | ⟨E, at_E, rfl⟩ := ih
      · cases next
        exact .inr (.inl rfl)
      · cases next
        exact .inr (.inr ⟨_, .head _, rfl⟩)
      · simp only [List.mem_cons, List.not_mem_nil, or_false] at at_E
        obtain rfl | rfl | rfl := at_E
        · cases next
          exact .inr (.inr ⟨_, .tail _ (.head _), rfl⟩)
        · cases next
          exact .inr (.inr ⟨_, .tail _ (.tail _ (.head _)), rfl⟩)
        · contradiction

theorem crossing_linear : (crossing.under [0]).Linear := by
  intro r reaches E k v term
  have focus := congrArg Term.focus term
  rw [focus_plug] at focus
  obtain rfl | rfl | ⟨E', -, rfl⟩ := crossing_reaches reaches
  · cases focus
  · cases focus
    exact ⟨Nat.zero_lt_one, nofun⟩
  · rw [focus_plug] at focus
    cases congrArg Prod.snd focus

theorem prompts_reduce_crossing : ∃ fuel w r, Config.run fuel (start (c := programs) false
    ⟨[.scope (.reset 0)], false, .enter crossing⟩ (fun _ => .ret ⟨.none, rfl⟩) default) =
      some (w, r) ∧ (Ending.result (.value (.str "crossed") rfl)).Replies r := by
  have comes : (crossing.under [0]).Comes (.result (.value (.str "crossed") rfl)) := by
    let v : Plain := ⟨.str "crossed", rfl⟩
    have inner : ∀ F ∈ [Frame.reset 1 false], F.resets 0 = false := by simp [Frame.resets]
    have captures : Reduces ⟨[], [], crossing.under [0]⟩ ⟨[crossing.cont], [], .resume 0 v⟩ :=
      @Reduces.shift0 [] [] [] [.reset 1 false] 0 false (.resume · v) inner
    have resumes : Reduces ⟨[crossing.cont], [], .resume 0 v⟩ ⟨[crossing.cont], [0], crossing.cont v⟩ :=
      @Reduces.resume [crossing.cont] [] [] 0 crossing.cont v rfl
    have leaves : Reduces ⟨[crossing.cont], [0], crossing.cont v⟩ ⟨[crossing.cont], [0], .reset 0 false (.ret v)⟩ :=
      .reset [.reset 0 false] 1 false v
    exact ⟨⟨[crossing.cont], [0], .ret v⟩,
      .tail (.tail (.tail (.single captures) resumes) leaves) (.reset [] 0 false v), .value v⟩
  exact (prompts_reduce [0] crossing false false _ default crossing_linear).1 _ comes

end OneShot.Joined.Delimited
