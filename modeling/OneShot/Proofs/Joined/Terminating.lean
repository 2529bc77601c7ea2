import OneShot.Proofs.Joined.Translating
import Mathlib.Logic.Hydra
import Mathlib.Tactic.Abel

/-!
# Termination

A computation under handlers comes to an end if its code does, and that of the handlers,
whatever it is answered; if clauses resume no continuations but their own; and if nothing
is put under handlers on the way.

What has to be done weighs less after each step.  Code weighs by the number of handlers
below it, and then by what it has left to do.  Captured code keeps its weight, because a
clause runs where its handler was, and puts the slice back there.  So performing an effect
replaces a state of code by a later one, and by code of a clause that has fewer handlers
below it.
-/

namespace OneShot.Joined

open Relation (CutExpand)

variable {c : Code} {own : Option Nat}

/-! ## Code that comes to an end -/

/-- The states in which code goes on, or has other code run. -/
def Act.states {σ τ : Type} : Act σ τ → List σ
  | .done _ => []
  | .again _ s | .perform _ s | .escape _ s | .call (.resume ..) s => [s]
  | .call (.run p) s => [p.body, s]

/-- Nothing is put under scopes, and no continuation is resumed but the own one. -/
def Request.Tame {σ : Type} (own : Option Nat) : Request σ → Prop
  | .resume k _ => own = some k
  | .run p => p.scopes = []

def Act.Tame {σ τ : Type} (own : Option Nat) : Act σ τ → Prop
  | .call q _ => q.Tame own
  | _ => True

/--
Code that comes to an end after finitely many turns, whatever it is answered and whatever
becomes of the memory meanwhile.  It applies no handlers, and resumes its own continuation
at most.
-/
inductive Finishes (c : Code) (own : Option Nat) : c.State → Prop
  | intro {s : c.State} (tame : ∀ d a, (c.step d s a).2.Tame own)
      (next : ∀ d a, ∀ s' ∈ (c.step d s a).2.states, Finishes c own s') : Finishes c own s

def Opening.Finishes (own : Option Nat) : Opening c.State → Prop
  | .result _ => True
  | .request (.resume k _) => own = some k
  | .request (.run p) => p.scopes = [] ∧ Joined.Finishes c own p.body

/-- The functions of a handler come to an end; a clause resumes no continuation but its own. -/
structure Layer.Finishes (c : Code) (l : Layer) : Prop where
  clause : ∀ e j, l.clause? e = some j → ∀ d k args, (c.clause j d k args).2.Finishes (some k)
  onReturn : ∀ i, l.onReturn = some i → ∀ d v, (c.onReturn i d v).2.Finishes none

/-! ## Weights -/

/-- Code that comes to an end gets from `s` to `s'`. -/
def Later (c : Code) (s' s : c.State) : Prop :=
  (∃ own, Finishes c own s) ∧ ∃ d a, s' ∈ (c.step d s a).2.states

theorem later_wellFounded (c : Code) : WellFounded (Later c) := by
  have finite {own : Option Nat} {s : c.State} (h : Finishes c own s) : Acc (Later c) s := by
    induction h with
    | intro _ _ ih =>
        refine ⟨_, fun s' later => ?_⟩
        obtain ⟨-, d, a, mem⟩ := later
        exact ih d a s' mem
  refine ⟨fun s => ⟨s, fun s' later => ?_⟩⟩
  obtain ⟨⟨own, finishes⟩, d, a, mem⟩ := later
  cases finishes with
  | intro tame next => exact finite (next d a s' mem)

/-- Code or, without a state, a handler, at a height. -/
abbrev Item (c : Code) := Nat × Option c.State

inductive Lighter : Item c → Item c → Prop
  | lower {m n : Nat} (less : m < n) (x y : Option c.State) : Lighter (m, x) (n, y)
  | later {s' s : c.State} (n : Nat) (later : Later c s' s) : Lighter (n, some s') (n, some s)

theorem lighter_wellFounded (c : Code) : WellFounded (Lighter (c := c)) := by
  refine ⟨fun ⟨n, x⟩ => ?_⟩
  induction n using Nat.strong_induction_on generalizing x with
  | _ n lower =>
      have code (s : c.State) : Acc Lighter (n, some s) := by
        induction s using (later_wellFounded c).induction with
        | _ s ih =>
            refine ⟨_, fun y lighter => ?_⟩
            cases lighter with
            | lower less x => exact lower _ less x
            | later _ later => exact ih _ later
      cases x with
      | some s => exact code s
      | none =>
          refine ⟨_, fun y lighter => ?_⟩
          cases lighter with
          | lower less x => exact lower _ less x

def Part.isLayer {σ : Type} : Part σ → Bool
  | .layer _ => true
  | _ => false

/-- How many handlers there are among the parts of a stack. -/
def height {σ : Type} (fs : List (Part σ)) : Nat := fs.countP Part.isLayer

/--
What is left to do on a stack above `b` handlers.  A handler weighs more than what is below
it, and less than the code above it.
-/
def items (b : Nat) : List (Part c.State) → Multiset (Item c)
  | [] => 0
  | .code s :: fs => {(2 * (b + height fs) + 1, some s)} + items b fs
  | .layer _ :: fs => {(2 * (b + height fs) + 2, none)} + items b fs
  | _ :: fs => items b fs

@[simp] theorem height_append {σ : Type} (fs gs : List (Part σ)) :
    height (fs ++ gs) = height fs + height gs := List.countP_append

theorem items_append (b : Nat) (fs gs : List (Part c.State)) :
    items b (fs ++ gs) = items (b + height gs) fs + items b gs := by
  induction fs with
  | nil => simp [items]
  | cons f fs ih =>
      have shift : b + (height fs + height gs) = b + height gs + height fs := by omega
      cases f <;> simp only [List.cons_append, items, ih, height_append, shift, add_assoc]

/-- What is in the slices that were captured above numbers of handlers. -/
def pending : List Nat → List (Option (Slice c.State)) → Multiset (Item c)
  | b :: bs, some (s, fs) :: slices => items b (.code s :: fs) + pending bs slices
  | _ :: bs, none :: slices => pending bs slices
  | _, _ => 0

theorem pending_append {bs : List Nat} {slices : List (Option (Slice c.State))}
    (same : bs.length = slices.length) (b : Nat) (s : c.State) (fs : List (Part c.State)) :
    pending (bs ++ [b]) (slices ++ [some (s, fs)]) =
      pending bs slices + items b (.code s :: fs) := by
  induction bs generalizing slices with
  | nil =>
      cases List.eq_nil_of_length_eq_zero same.symm
      simp [pending]
  | cons b' bs ih =>
      obtain _ | ⟨slice, slices⟩ := slices
      · contradiction
      · have same' : bs.length = slices.length := by simpa using same
        cases slice <;> simp only [List.cons_append, pending, ih same', add_assoc]

theorem pending_set {bs : List Nat} {slices : List (Option (Slice c.State))} {k b : Nat}
    {s : c.State} {fs : List (Part c.State)} (base : bs[k]? = some b)
    (slice : slices[k]? = some (some (s, fs))) :
    pending bs slices = items b (.code s :: fs) + pending bs (slices.set k none) := by
  induction bs generalizing slices k with
  | nil => simp at base
  | cons b' bs ih =>
      obtain _ | ⟨slice', slices⟩ := slices
      · simp at slice
      · cases k with
        | zero =>
            cases Option.some.inj base
            cases Option.some.inj slice
            simp only [List.set_cons_zero, pending]
        | succ k =>
            have rest := ih (by simpa using base) (by simpa using slice)
            cases slice' <;> simp only [List.set_cons_succ, pending, rest, add_left_comm]

/-! ## Programs whose code comes to an end -/

/--
On a stack above some handlers there is nothing but handlers and code that come to an end.
The slices of the continuations that code owns were captured where the code is.
-/
inductive Sound (bs : List Nat) (b : Nat) : List (Part c.State) → Prop
  | nil : Sound bs b []
  | code {s : c.State} {fs : List (Part c.State)} (own : Option Nat) (finishes : Finishes c own s)
      (base : ∀ k, own = some k → bs[k]? = some (b + height fs)) (rest : Sound bs b fs) :
      Sound bs b (.code s :: fs)
  | layer {l : Layer} {fs : List (Part c.State)} (finishes : l.Finishes c) (rest : Sound bs b fs) :
      Sound bs b (.layer l :: fs)

variable {bs bs' : List Nat} {b : Nat} {fs gs : List (Part c.State)}

theorem Sound.append (above : Sound bs (b + height gs) fs) (below : Sound bs b gs) :
    Sound bs b (fs ++ gs) := by
  induction above with
  | nil => exact below
  | @code s fs own finishes base rest ih =>
      refine .code own finishes (fun k mine => (base k mine).trans ?_) ih
      simp only [List.append_eq, height_append, Option.some.injEq]
      omega
  | layer finishes rest ih => exact .layer finishes ih

theorem Sound.of_append (h : Sound bs b (fs ++ gs)) :
    Sound bs (b + height gs) fs ∧ Sound bs b gs := by
  induction fs with
  | nil => exact ⟨.nil, h⟩
  | cons f fs ih =>
      cases h with
      | code own finishes base rest =>
          obtain ⟨above, below⟩ := ih rest
          refine ⟨.code own finishes (fun k mine => (base k mine).trans ?_) above, below⟩
          simp only [List.append_eq, height_append, Option.some.injEq]
          omega
      | layer finishes rest =>
          obtain ⟨above, below⟩ := ih rest
          exact ⟨.layer finishes above, below⟩

theorem Sound.mono (h : Sound bs b fs) (grown : bs <+: bs') : Sound bs' b fs := by
  induction h with
  | nil => exact .nil
  | code own finishes base rest ih =>
      refine .code own finishes (fun k mine => ?_) ih
      obtain ⟨more, rfl⟩ := grown
      have here := base k mine
      rw [List.getElem?_append_left (List.getElem?_eq_some_iff.1 here).1]
      exact here
  | layer finishes rest ih => exact .layer finishes ih

/-- What runs comes to an end. -/
inductive Runs (bs : List Nat) (h : Nat) : Control c.State c.Task → Prop
  | code {s : c.State} (own : Option Nat) (finishes : Finishes c own s)
      (base : ∀ k, own = some k → bs[k]? = some h) (a : Deep.Answer) : Runs bs h (.code s a)
  | result (r : Deep.Result) : Runs bs h (.result r)

def Control.items (h : Nat) : Control c.State c.Task → Multiset (Item c)
  | .code s _ => {(2 * h + 1, some s)}
  | _ => 0

namespace Program

/-- A program on whose stack, and in whose slices, is only code that comes to an end. -/
structure Grounded (bs : List Nat) (J : Program c) : Prop where
  length : bs.length = J.slices.length
  stack : Joined.Sound bs 0 J.stack
  slices : ∀ (k : Nat) (s : c.State) (fs : List (Part c.State)), J.slices[k]? = some (some (s, fs)) →
    ∃ b : Nat, bs[k]? = some b ∧ Joined.Sound bs b (.code s :: fs)

structure Sound (bs : List Nat) (J : Program c) : Prop extends J.Grounded bs where
  control : Runs bs (height J.stack) J.control

/-- What waits on the stack and in the slices. -/
def waiting (bs : List Nat) (J : Program c) : Multiset (Item c) := items 0 J.stack + pending bs J.slices

/-- All that a program has left to do. -/
def load (bs : List Nat) (J : Program c) : Multiset (Item c) :=
  J.control.items (height J.stack) + J.waiting bs

variable {J J' : Program c}

/-- A request puts a slice back where it was taken from, or has more code run on top. -/
theorem Grounded.requested {q : Request c.State} (grounded : J.Grounded bs)
    (finishes : (Opening.request q).Finishes own) (base : ∀ k, own = some k → bs[k]? = some (height J.stack)) :
    (J.requested q).Sound bs ∧ ∃ t, (J.requested q).load bs = t + J.waiting bs ∧
      ∀ x ∈ t, ∃ p, q = .run p ∧ x = (2 * height J.stack + 1, some p.body) := by
  cases q with
  | run p =>
      obtain ⟨bare, body⟩ := finishes
      have same : J.requested (.run p) = { J with control := .code p.body (.value .none) } := by
        simp only [Program.requested, bare, parts, List.nil_append]
      rw [same]
      refine ⟨⟨⟨grounded.length, grounded.stack, grounded.slices⟩, .code own body base _⟩, _, rfl, ?_⟩
      intro x mem
      exact ⟨p, rfl, Multiset.mem_singleton.1 mem⟩
  | resume k a =>
      have mine : own = some k := finishes
      cases slot : J.slices[k]? with
      | none =>
          have same : J.requested (.resume k a) = { J with control := .result (.failed resumedTwice) } := by
            simp only [Program.requested, slot]
          rw [same]
          exact ⟨⟨⟨grounded.length, grounded.stack, grounded.slices⟩, .result _⟩, 0, rfl, by simp⟩
      | some slice =>
          obtain _ | ⟨s, fs⟩ := slice
          · have same : J.requested (.resume k a) = { J with control := .result (.failed resumedTwice) } := by
              simp only [Program.requested, slot]
            rw [same]
            exact ⟨⟨⟨grounded.length, grounded.stack, grounded.slices⟩, .result _⟩, 0, rfl, by simp⟩
          · have same : J.requested (.resume k a) =
                { J with slices := J.slices.set k none, stack := fs ++ J.stack, control := .code s a } := by
              simp only [Program.requested, slot]
            obtain ⟨b, here, sound⟩ := grounded.slices k s fs slot
            -- the slice was captured above as many handlers as there are on the stack
            cases here.symm.trans (base k mine)
            rw [same]
            have base' : 0 + height J.stack = height J.stack := Nat.zero_add _
            cases sound with
            | code own' finishes' base'' rest =>
                refine ⟨⟨⟨by simpa using grounded.length, (base'.symm ▸ rest).append grounded.stack, ?_⟩,
                  .code own' finishes' (fun k' mine' => (base'' k' mine').trans ?_) a⟩, 0, ?_, by simp⟩
                · intro k' s' fs' slot'
                  rw [List.getElem?_set] at slot'
                  split at slot'
                  · split at slot' <;> simp at slot'
                  · exact grounded.slices k' s' fs' slot'
                · simp [Nat.add_comm]
                · simp only [load, waiting, Control.items, pending_set here slot, items_append, items,
                    height_append, base', Nat.add_comm (height fs), zero_add, add_assoc, add_left_comm]

/-- What the call of a clause or of a return handler comes to. -/
theorem Grounded.opened {o : Opening c.State} (grounded : J.Grounded bs) (finishes : o.Finishes own)
    (base : ∀ k, own = some k → bs[k]? = some (height J.stack)) :
    (J.opened o).Sound bs ∧ ∃ t, (J.opened o).load bs = t + J.waiting bs ∧
      ∀ x ∈ t, ∃ s, x = (2 * height J.stack + 1, some s) := by
  cases o with
  | result r =>
      exact ⟨⟨⟨grounded.length, grounded.stack, grounded.slices⟩, .result r⟩, 0, rfl, by simp⟩
  | request q =>
      obtain ⟨sound, t, load, light⟩ := grounded.requested finishes base
      refine ⟨sound, t, load, fun x mem => ?_⟩
      obtain ⟨p, -, same⟩ := light x mem
      exact ⟨p.body, same⟩

/-- One of the things that are left to do has been replaced by lighter ones. -/
def Cuts (m' m : Multiset (Item c)) : Prop := CutExpand Lighter m' m

theorem cuts {t R : Multiset (Item c)} {x : Item c} (lighter : ∀ y ∈ t, Lighter y x) :
    Cuts (t + R) ({x} + R) :=
  (Relation.cutExpand_add_right R).2 (Relation.cutExpand_singleton lighter)

/-- The slice of a clause is captured above the handlers that are left below. -/
theorem Grounded.captured {s : c.State} {above below : List (Part c.State)} (grounded : J.Grounded bs)
    (shape : J.stack = above ++ below) (finishes : Finishes c own s)
    (base : ∀ k, own = some k → bs[k]? = some (height J.stack)) (m : Memory c) :
    let J' : Program c := { J with memory := m, slices := J.slices ++ [some (s, above)], stack := below }
    J'.Grounded (bs ++ [height below]) ∧
      J'.waiting (bs ++ [height below]) = {(2 * height J.stack + 1, some s)} + J.waiting bs := by
  have grown : bs <+: bs ++ [height below] := List.prefix_append _ _
  have sound := shape ▸ grounded.stack
  obtain ⟨up, down⟩ := sound.of_append
  have tall : height J.stack = height below + height above := by
    rw [shape, height_append, Nat.add_comm]
  refine ⟨⟨by simp [grounded.length], down.mono grown, fun k s' fs slot => ?_⟩, ?_⟩
  · rcases Nat.lt_trichotomy k J.slices.length with less | rfl | more
    · rw [List.getElem?_append_left less] at slot
      obtain ⟨b, here, sound⟩ := grounded.slices k s' fs slot
      refine ⟨b, ?_, sound.mono grown⟩
      rw [List.getElem?_append_left (List.getElem?_eq_some_iff.1 here).1]
      exact here
    · rw [List.getElem?_concat_length] at slot
      cases slot
      refine ⟨height below, ?_, (Joined.Sound.code own finishes (fun k mine => ?_) (by simpa using up)).mono grown⟩
      · rw [← grounded.length, List.getElem?_concat_length]
      · rw [base k mine, tall]
    · rw [List.getElem?_eq_none (by simp; omega)] at slot
      contradiction
  · simp only [waiting, pending_append grounded.length, items, shape, items_append, height_append, zero_add,
      Nat.add_comm (height above)]
    abel

/-- What is left to do after a step weighs less, or it is the same and the stack is shorter. -/
def Lessens (bs : List Nat) (J : Program c) (bs' : List Nat) (J' : Program c) : Prop :=
  Cuts (J'.load bs') (J.load bs) ∨ J'.load bs' = J.load bs ∧ J'.stack.length < J.stack.length

/-- A part of a sound stack that answers is a handler, and its clause comes to an end. -/
theorem clause_of_way {f : Part c.State} {o : Operation c.Task} {way : Way c.State c.Task}
    {fs : List (Part c.State)} (sound : Joined.Sound bs b (f :: fs)) (found : f.way? o = some way) :
    f.isLayer = true ∧ ∃ j args, way = .clause j args ∧
      ∀ d k, (c.clause j d k args).2.Finishes (some k) := by
  cases sound with
  | code => cases o <;> simp [Part.way?] at found
  | @layer l _ finishes _ =>
      cases o with
      | ask e args =>
          obtain ⟨j, owner, same⟩ := Option.map_eq_some_iff.1 found
          exact ⟨rfl, j, args, same.symm, fun d k => finishes.clause e j owner d k args⟩
      | _ => simp [Part.way?] at found

/-- Code that performs an operation is replaced by later code, and by code of a clause lower down. -/
theorem Grounded.performed {s s' : c.State} {o : Operation c.Task} (grounded : J.Grounded bs)
    (later : Later c s' s) (finishes : Finishes c own s')
    (base : ∀ k, own = some k → bs[k]? = some (height J.stack)) (next : J.performed o s' = .more J') :
    ∃ bs', J'.Sound bs' ∧ Cuts (J'.load bs') ({(2 * height J.stack + 1, some s)} + J.waiting bs) := by
  cases owner : owner? o J.stack with
  | none => simp [Program.performed, owner] at next
  | some w =>
      obtain ⟨above, f, way, below⟩ := w
      obtain ⟨shape, found⟩ := owner?_way owner
      obtain ⟨isLayer, j, args, rfl, opens⟩ := clause_of_way (shape ▸ grounded.stack).of_append.2 found
      simp only [Program.performed, owner, Next.more.injEq] at next
      subst next
      have shape' : J.stack = (above ++ [f]) ++ below := by simpa using shape
      have lower : height below < height J.stack := by
        have single : height [f] = 1 := by simp [height, isLayer]
        rw [shape', height_append, height_append, single]
        omega
      obtain ⟨captured, waiting⟩ := grounded.captured shape' finishes base
        (J.memory.clause j J.slices.length args).1
      have mine (k : Nat) (same : some J.slices.length = some k) :
          (bs ++ [height below])[k]? = some (height below) := by
        cases same
        rw [← grounded.length, List.getElem?_concat_length]
      obtain ⟨sound, t, load, light⟩ := captured.opened (opens _ _) mine
      refine ⟨bs ++ [height below], sound, ?_⟩
      change (J.answered j args (s', above ++ [f]) below).load _ = _ at load
      rw [load, waiting, ← add_assoc]
      refine cuts fun x mem => ?_
      rcases Multiset.mem_add.1 mem with fresh | here
      · obtain ⟨s'', rfl⟩ := light x fresh
        exact .lower (show 2 * height below + 1 < 2 * height J.stack + 1 by omega) _ _
      · rw [Multiset.mem_singleton.1 here]
        exact .later _ later

/-- A turn of code replaces its state by later ones. -/
theorem Grounded.acted {s : c.State} {m : Memory c} {act : Act c.State c.Task}
    (grounded : J.Grounded bs) (finishes : Finishes c own s)
    (base : ∀ k, own = some k → bs[k]? = some (height J.stack))
    (turn : ∃ d a, (c.step d s a).2 = act) (next : { J with memory := m : Program c }.acted act = .more J') :
    ∃ bs', J'.Sound bs' ∧ Cuts (J'.load bs') ({(2 * height J.stack + 1, some s)} + J.waiting bs) := by
  obtain ⟨d, a, rfl⟩ := turn
  have later (s' : c.State) (mem : s' ∈ (c.step d s a).2.states) : Later c s' s := ⟨⟨own, finishes⟩, d, a, mem⟩
  cases finishes with
  | intro tame rest =>
      have rest := rest d a
      have tame := tame d a
      have grounded' : { J with memory := m : Program c }.Grounded bs :=
        ⟨grounded.length, grounded.stack, grounded.slices⟩
      generalize (c.step d s a).2 = act at *
      cases act with
      | done r =>
          cases next
          exact ⟨bs, ⟨⟨grounded.length, grounded.stack, grounded.slices⟩, .result r⟩,
            cuts (t := 0) fun y mem => absurd mem (Multiset.notMem_zero y)⟩
      | again b s' =>
          cases next
          refine ⟨bs, ⟨⟨grounded.length, grounded.stack, grounded.slices⟩,
            .code own (rest s' (by simp [Act.states])) base b⟩, cuts fun y mem => ?_⟩
          rw [Multiset.mem_singleton.1 mem]
          exact .later _ (later s' (by simp [Act.states]))
      | perform o s' =>
          exact grounded'.performed (later s' (by simp [Act.states])) (rest s' (by simp [Act.states])) base next
      | escape t s' => contradiction
      | call q s' =>
          have mem : s' ∈ (Act.call q s' : Act c.State c.Task).states := by cases q <;> simp [Act.states]
          have waits : { J with memory := m, stack := .code s' :: J.stack : Program c }.Grounded bs :=
            ⟨grounded.length, .code own (rest s' mem) (fun k mine => (base k mine).trans (by simp)) grounded.stack,
              grounded.slices⟩
          have opens : (Opening.request q).Finishes own := by
            cases q with
            | resume k b => exact tame
            | run p => exact ⟨tame, rest p.body (by simp [Act.states])⟩
          obtain ⟨sound, t, load, light⟩ := waits.requested opens base
          cases next
          refine ⟨bs, sound, ?_⟩
          have whole : { J with memory := m, stack := .code s' :: J.stack : Program c }.waiting bs =
              {(2 * height J.stack + 1, some s')} + J.waiting bs := by
            simp only [waiting, items, zero_add, add_assoc]
          rw [load, whole, ← add_assoc]
          refine cuts fun x there => ?_
          rcases Multiset.mem_add.1 there with fresh | here
          · obtain ⟨p, rfl, rfl⟩ := light x fresh
            exact .later _ (later p.body (by simp [Act.states]))
          · rw [Multiset.mem_singleton.1 here]
            exact .later _ (later s' mem)

/-- A result goes on down the stack, or takes a handler off, whose return handler runs below. -/
theorem Grounded.delivered {r : Deep.Result} (grounded : J.Grounded bs) (next : J.delivered r = .more J') :
    J'.Sound bs ∧ (Cuts (J'.load bs) (J.waiting bs) ∨ J'.load bs = J.waiting bs ∧ J'.stack.length < J.stack.length) := by
  obtain ⟨m, slices, stack, control⟩ := J
  cases grounded.stack with
  | nil => cases r <;> contradiction
  | @code s fs own finishes base rest =>
      cases next
      refine ⟨⟨⟨grounded.length, rest, grounded.slices⟩, .code own finishes (by simpa using base) _⟩, .inr ⟨?_, by simp⟩⟩
      simp only [load, waiting, Control.items, items, zero_add, add_assoc]
  | @layer l fs finishes rest =>
      have left : Program.Grounded bs ⟨m, slices, fs, control⟩ := ⟨grounded.length, rest, grounded.slices⟩
      have passes (r : Deep.Result) : Program.Sound bs ⟨m, slices, fs, .result r⟩ ∧
          Cuts (Program.load bs ⟨m, slices, fs, .result r⟩)
            (Program.waiting bs ⟨m, slices, .layer l :: fs, control⟩) := by
        refine ⟨⟨⟨grounded.length, rest, grounded.slices⟩, .result r⟩, ?_⟩
        simp only [load, waiting, Control.items, items, add_assoc]
        exact cuts (t := 0) fun y mem => absurd mem (Multiset.notMem_zero y)
      cases r with
      | failed x =>
          cases next
          exact ⟨(passes _).1, .inl (passes _).2⟩
      | value v plain =>
          cases returns : l.onReturn with
          | none =>
              simp only [Program.delivered, returns, Next.more.injEq] at next
              subst next
              exact ⟨(passes _).1, .inl (passes _).2⟩
          | some i =>
              simp only [Program.delivered, returns, Next.more.injEq] at next
              subst next
              have left' : Program.Grounded bs ⟨(m.onReturn i v).1, slices, fs, control⟩ :=
                ⟨grounded.length, rest, grounded.slices⟩
              have opens : (m.onReturn i v).2.Finishes none := finishes.onReturn i returns m.data v
              obtain ⟨sound, t, load, light⟩ := left'.opened opens (by simp)
              refine ⟨sound, .inl ?_⟩
              have whole : Program.waiting bs ⟨m, slices, .layer l :: fs, control⟩ =
                  {(2 * height fs + 2, none)} + Program.waiting bs ⟨(m.onReturn i v).1, slices, fs, control⟩ := by
                simp only [waiting, items, zero_add, add_assoc]
              rw [whole, load]
              refine cuts fun x mem => ?_
              obtain ⟨s, rfl⟩ := light x mem
              exact .lower (by simp) _ _

/-- Each step of a program lessens what is left to do. -/
theorem Sound.next (sound : J.Sound bs) (next : J.next false = .ok J') :
    ∃ bs', J'.Sound bs' ∧ J.Lessens bs bs' J' := by
  have stepped : J.step = .more J' := by
    unfold Program.next at next
    split at next <;> simp_all
  obtain ⟨m, slices, stack, control⟩ := J
  cases sound.control with
  | code own finishes base a =>
      obtain ⟨bs', sound', less⟩ := sound.toGrounded.acted finishes base ⟨m.data, a, rfl⟩ stepped
      exact ⟨bs', sound', .inl less⟩
  | result r =>
      obtain ⟨sound', less⟩ := sound.toGrounded.delivered stepped
      refine ⟨bs, sound', ?_⟩
      simpa only [Lessens, load, Control.items, zero_add] using less

/-- A program of code that comes to an end does so itself. -/
theorem Sound.ends (sound : J.Sound bs) : ∃ M e, J.Ends false M e := by
  -- The load is lessened at each step, or it stays and the stack becomes shorter.
  have cutting : WellFounded (Cuts (c := c)) := (lighter_wellFounded c).cutExpand
  generalize load : J.load bs = m
  induction m using cutting.induction generalizing J bs with
  | _ m ih =>
      induction short : J.stack.length using Nat.strong_induction_on generalizing J bs with
      | _ n ih' =>
          cases next : J.next false with
          | error out => exact ⟨out.1, out.2, .stops next⟩
          | ok J' =>
              have rest : ∃ M e, J'.Ends false M e := by
                obtain ⟨bs', sound', less | ⟨same, shorter⟩⟩ := sound.next next
                · exact ih _ (load ▸ less) sound' rfl
                · exact ih' _ (short ▸ shorter) sound' (same.trans load) rfl
              obtain ⟨M, e, ends⟩ := rest
              exact ⟨M, e, .step next ends⟩

end Program

inductive Consulting where
  | asking (n : Nat)
  | consulting (k : Nat)
  | resuming (k : Nat)
  | over

/--
Code that asks several times.  The clause of the inner handler consults the outer handler
before it resumes; that of the outer one passes the resumption on.
-/
def consulting : Code where
  Memory := Unit
  State := Consulting
  Task := Empty
  step _ s _ := ((), match s with
    | .asking 0 | .over => .done (.value (.int 7) rfl)
    | .asking (n + 1) => .perform (.ask 0 []) (.asking n)
    | .consulting k => .perform (.ask 1 []) (.resuming k)
    | .resuming k => .call (.resume k (.value .none)) .over)
  exit _ _ := ()
  task _ t := nomatch t
  onReturn _ _ _ := ((), .result (.value .none Val.generator?_none))
  clause j _ k _ := ((), .request (if j = 0 then .run ⟨[], false, .consulting k⟩ else .resume k (.value .none)))
  init _ _ := (0, .none)

end OneShot.Joined
