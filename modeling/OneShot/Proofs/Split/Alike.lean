import Mathlib.Data.List.Forall2
import Mathlib.Order.Basic
import OneShot.Proofs.Split.Code

/-!
# Values of two runs

Two runs of one code number the generators and continuations that they make in ways of
their own.  Values are alike if they are the same up to these numbers, to those of
records, and to the texts that the engine composes.  A pairing of generators and of
continuations grows along the runs, and what is alike stays so.

A generator that only relays may be in a stack or slice of the first run at one place
where nothing is in the second one.
-/

namespace OneShot.Split

open List (Forall₂)

/-- Which generators and continuations of two runs correspond. -/
structure Names where
  gens : Gen → Gen → Prop
  conts : Cont → Cont → Prop

instance : Preorder Names := .lift fun N => (N.gens, N.conts)

theorem Names.gens_mono {N M : Names} (le : N ≤ M) {g h : Gen} (pair : N.gens g h) : M.gens g h := le.1 g h pair

theorem Names.conts_mono {N M : Names} (le : N ≤ M) {k l : Cont} (pair : N.conts k l) : M.conts k l := le.2 k l pair

variable {N M : Names}

/-! ## Values -/

inductive Alike (N : Names) : Val → Val → Prop
  | none : Alike N .none .none
  | bool (b : Bool) : Alike N (.bool b) (.bool b)
  | int (i : Int) : Alike N (.int i) (.int i)
  | str (s : String) : Alike N (.str s) (.str s)
  | function (j : Nat) : Alike N (function j) (function j)
  | identity : Alike N (.native .identity) (.native .identity)
  | effect (e : Nat) : Alike N (.effect (effect e)) (.effect (effect e))
  | handler (l : Layer) : Alike N (.handler l.handler) (.handler l.handler)
  | gen {g h : Gen} (pair : N.gens g h) : Alike N (.gen g) (.gen h)
  | cont {k l : Cont} (pair : N.conts k l) : Alike N (.cont k) (.cont l)
  | error {x y : Exc} (kind : x.kind = y.kind) (plain : x.detail = .plain) (plain' : y.detail = .plain)
      (length : x.args.length = y.args.length) (args : ∀ p ∈ x.args.zip y.args, Alike N p.1 p.2) : Alike N (.exc x) (.exc y)
  /-- Errors about types with texts that may name the classes of continuations. -/
  | worded {x y : Exc} (plain : x.detail = .plain) (plain' : y.detail = .plain) (text : worded x = true)
      (text' : worded y = true) : Alike N (.exc x) (.exc y)
  /-- Errors of the engine, which has composed a text for them. -/
  | failure {x y : Exc} {v w : Val} (kind : x.kind = y.kind) (other : x.kind ≠ .stopIteration)
      (caused : about x.detail = some v) (caused' : about y.detail = some w) (object : Alike N v w) :
      Alike N (.exc x) (.exc y)
  | escape (i j : Nat) {v w : Val} (action : Alike N v w) : Alike N (.escape i v) (.escape j w)
  | invocation (i j e : Nat) {a b : Arguments} {v w : Val} (length : a.values.length = b.values.length)
      (args : ∀ p ∈ a.values.zip b.values, Alike N p.1 p.2) (place : Memo.placeOf v = Memo.placeOf w) :
      Alike N (.invocation i ⟨.effect (effect e), a, v⟩) (.invocation j ⟨.effect (effect e), b, w⟩)

theorem Alike.mono {v w : Val} (h : Alike N v w) (le : N ≤ M) : Alike M v w := by
  induction h with
  | gen pair => exact .gen (Names.gens_mono le pair)
  | cont pair => exact .cont (Names.conts_mono le pair)
  | error kind plain plain' length args ih => exact .error kind plain plain' length ih
  | worded plain plain' text text' => exact .worded plain plain' text text'
  | failure kind other caused caused' object ih => exact .failure kind other caused caused' ih
  | escape i j action ih => exact .escape i j ih
  | invocation i j e length args place ih => exact .invocation i j e length ih place
  | none => exact .none
  | bool b => exact .bool b
  | int i => exact .int i
  | str s => exact .str s
  | function j => exact .function j
  | identity => exact .identity
  | effect e => exact .effect e
  | handler l => exact .handler l

theorem alike_mono {vs ws : List Val} (h : Forall₂ (Alike N) vs ws) (le : N ≤ M) : Forall₂ (Alike M) vs ws :=
  h.imp fun _ _ h => h.mono le

theorem forall₂_of_zip {vs ws : List Val} (length : vs.length = ws.length)
    (each : ∀ p ∈ vs.zip ws, Alike N p.1 p.2) : Forall₂ (Alike N) vs ws :=
  List.forall₂_iff_zip.2 ⟨length, fun mem => each _ mem⟩

theorem zip_of_forall₂ {vs ws : List Val} (h : Forall₂ (Alike N) vs ws) :
    vs.length = ws.length ∧ ∀ p ∈ vs.zip ws, Alike N p.1 p.2 :=
  ⟨h.length_eq, fun _ mem => (List.forall₂_iff_zip.1 h).2 mem⟩

theorem kind_of_worded {x : Exc} (text : worded x = true) : x.kind = .type := by
  unfold worded at text
  simp only [Bool.and_eq_true, decide_eq_true_eq] at text
  exact text.1

theorem worded_fault {f : Fault} (s : Store) (type : f.kind = .type) : worded (s.fault f).2 = true := by
  simp [worded, Store.fault, Store.newException, type]

namespace Alike

theorem ofArgs {kind : Kind} {vs ws : List Val} (i j : Nat) (args : Forall₂ (Alike N) vs ws) :
    Alike N (.exc ⟨i, kind, vs, .plain⟩) (.exc ⟨j, kind, ws, .plain⟩) :=
  .error rfl rfl rfl args.length_eq (zip_of_forall₂ args).2

theorem kind {x y : Exc} (h : Alike N (.exc x) (.exc y)) : x.kind = y.kind := by
  cases h with
  | error kind => exact kind
  | worded plain plain' text text' => rw [kind_of_worded text, kind_of_worded text']
  | failure kind => exact kind

theorem isException {x y : Exc} (h : Alike N (.exc x) (.exc y)) : x.isException = y.isException := by
  rw [Exc.isException, Exc.isException, h.kind]

/-- What alike stops end with. -/
theorem stopValue {x y : Exc} (h : Alike N (.exc x) (.exc y)) (stop : x.kind = .stopIteration) :
    Alike N x.stopValue y.stopValue := by
  cases h with
  | error kind plain plain' length args =>
      have args := forall₂_of_zip length args
      unfold Exc.stopValue
      generalize x.args = vs at args
      generalize y.args = ws at args
      cases args with
      | nil => exact .none
      | cons head tail => exact head
  | worded plain plain' text => exact absurd (stop.symm.trans (kind_of_worded text)) nofun
  | failure kind other => exact absurd stop other

theorem generator? {v w : Val} (h : Alike N v w) :
    (v.generator? = Option.none ∧ w.generator? = Option.none) ∨ ∃ g g', v = .gen g ∧ w = .gen g' ∧ N.gens g g' := by
  cases h with
  | gen pair => exact .inr ⟨_, _, rfl, rfl, pair⟩
  | _ => exact .inl ⟨rfl, rfl⟩

/-- The exceptions for faults that do not name what they are about. -/
theorem fault {f f' : Fault} (s s' : Store) (kind : f.kind = f'.kind) (plain : f.detail = .plain)
    (plain' : f'.detail = .plain) (message : f.kind ≠ .type → f.message = f'.message) :
    Alike N (.exc (s.fault f).2) (.exc (s'.fault f').2) := by
  by_cases type : f.kind = .type
  · exact .worded plain plain' (worded_fault s type) (worded_fault s' (kind.symm.trans type))
  · refine .error kind plain plain' rfl fun p mem => ?_
    obtain ⟨rfl⟩ : p = (.str f.message, .str f'.message) := by simpa [Store.fault, Store.newException] using mem
    rw [message type]
    exact .str _

end Alike

/-- Alike errors have nothing but a text, or have more than that. -/
theorem worded_alike {x y : Exc} (kind : x.kind = y.kind) (args : Forall₂ (Alike N) x.args y.args) : worded x = worded y := by
  unfold worded
  rw [kind]
  congr 1
  generalize x.args = vs at args
  generalize y.args = ws at args
  cases args with
  | nil => rfl
  | cons head tail =>
      cases tail with
      | nil => cases head <;> rfl
      | cons => cases head <;> rfl

/-! ## Frames -/

abbrev genFrame (g : Gen) (t : Tag) : Val := .frame (.generator (.gen g) t)

abbrev layerFrame (l : Layer) (t : Tag) : Val := .frame (.handler (.handler l.handler) t)

inductive FrameAlike (N : Names) : Val → Val → Prop
  | layer (l : Layer) (t u : Tag) : FrameAlike N (layerFrame l t) (layerFrame l u)
  | gen {g h : Gen} (t u : Tag) (pair : N.gens g h) : FrameAlike N (genFrame g t) (genFrame h u)

theorem FrameAlike.mono {f g : Val} (h : FrameAlike N f g) (le : N ≤ M) : FrameAlike M f g := by
  cases h with
  | layer l t u => exact .layer l t u
  | gen t u pair => exact .gen t u (Names.gens_mono le pair)

/-- Frames of two runs; the first ones may have the relay `n` among them if it may be here. -/
inductive Spread (N : Names) (n : Gen) (here : Prop) : List Val → List Val → Prop
  | nil : Spread N n here [] []
  | cons {f g : Val} {fs gs : List Val} (head : FrameAlike N f g) (tail : Spread N n here fs gs) :
      Spread N n here (f :: fs) (g :: gs)
  | relay {fs gs : List Val} (t : Tag) (allowed : here) (below : Forall₂ (FrameAlike N) fs gs) :
      Spread N n here (genFrame n t :: fs) gs

/-- Likewise, with a generator on top. -/
inductive Topped (N : Names) (n : Gen) (here : Prop) : List Val → List Val → Prop
  | intro {g h : Gen} {fs gs : List Val} (t u : Tag) (pair : N.gens g h) (rest : Spread N n here fs gs) :
      Topped N n here (genFrame g t :: fs) (genFrame h u :: gs)

/-- What is to be closed in two runs. -/
inductive Contents (N : Names) (n : Gen) (here : Prop) : List Val → List Val → Prop
  | nil : Contents N n here [] []
  | cons {g h : Gen} {vs ws : List Val} (pair : N.gens g h) (rest : Contents N n here vs ws) :
      Contents N n here (.gen g :: vs) (.gen h :: ws)
  | relay {vs ws : List Val} (allowed : here) (rest : Contents N n here vs ws) : Contents N n here (.gen n :: vs) ws

namespace Spread

variable {n : Gen} {here there : Prop} {fs gs fs' gs' : List Val}

theorem mono (h : Spread N n here fs gs) (le : N ≤ M) (allowed : here → there) : Spread M n there fs gs := by
  induction h with
  | nil => exact .nil
  | cons head tail ih => exact .cons (head.mono le) ih
  | relay t here below => exact .relay t (allowed here) (below.imp fun _ _ h => h.mono le)

theorem of_frames (h : Forall₂ (FrameAlike N) fs gs) : Spread N n here fs gs := by
  induction h with
  | nil => exact .nil
  | cons head tail ih => exact .cons head ih

theorem append (h : Forall₂ (FrameAlike N) fs gs) (below : Spread N n here fs' gs') :
    Spread N n here (fs ++ fs') (gs ++ gs') := by
  induction h with
  | nil => exact below
  | cons head tail ih => exact .cons head ih

theorem append_frames (h : Spread N n here fs gs) (below : Forall₂ (FrameAlike N) fs' gs') :
    Spread N n here (fs ++ fs') (gs ++ gs') := by
  induction h with
  | nil => exact of_frames below
  | cons head tail ih => exact .cons head ih
  | relay t here above => exact .relay t here (List.rel_append above below)

/-- Where the relay is not, there is nothing but what is alike. -/
theorem frames (h : Spread N n here fs gs) (nowhere : ¬here) : Forall₂ (FrameAlike N) fs gs := by
  induction h with
  | nil => exact .nil
  | cons head tail ih => exact .cons head ih
  | relay t here below => exact absurd here nowhere

theorem contents (h : Spread N n here fs gs) :
    Contents N n here (fs.filterMap Val.framed?) (gs.filterMap Val.framed?) := by
  have alike {fs gs : List Val} (h : Forall₂ (FrameAlike N) fs gs) :
      Contents N n here (fs.filterMap Val.framed?) (gs.filterMap Val.framed?) := by
    induction h with
    | nil => exact .nil
    | cons head tail ih =>
        cases head with
        | layer l t u => exact ih
        | gen t u pair => exact .cons pair ih
  induction h with
  | nil => exact .nil
  | cons head tail ih =>
      cases head with
      | layer l t u => exact ih
      | gen t u pair => exact .cons pair ih
  | relay t here below => exact .relay here (alike below)

end Spread

namespace Topped

variable {n : Gen} {here there : Prop} {fs gs fs' gs' : List Val}

theorem mono (h : Topped N n here fs gs) (le : N ≤ M) (allowed : here → there) : Topped M n there fs gs := by
  cases h with
  | intro t u pair rest => exact .intro t u (Names.gens_mono le pair) (rest.mono le allowed)

theorem spread (h : Topped N n here fs gs) : Spread N n here fs gs := by
  cases h with
  | intro t u pair rest => exact .cons (.gen t u pair) rest

end Topped

theorem Contents.mono {n : Gen} {here there : Prop} {vs ws : List Val} (h : Contents N n here vs ws) (le : N ≤ M)
    (allowed : here → there) : Contents M n there vs ws := by
  induction h with
  | nil => exact .nil
  | cons pair rest ih => exact .cons (Names.gens_mono le pair) ih
  | relay here rest ih => exact .relay (allowed here) ih

end OneShot.Split
