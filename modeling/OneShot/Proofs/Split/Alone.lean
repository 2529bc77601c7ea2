import OneShot.Proofs.Frames.Runs
import OneShot.Proofs.Split.Seeing

/-!
# A run beside itself

A run in which nothing is split corresponds to itself, step by step.  So what code knows
at some point of a run is alike in two runs that part there, and the stack of a machine
that is made there may be split.
-/

namespace OneShot.Split

open List (Forall₂)
open Machine (Phase)

variable {c : Code} {J K : Joint} {N : Names} {n n' : Gen} {here there : Prop} {fs gs : List Val} {C C' : Config (guest c)}
  {w w' : World (guest c)} {S T : List (Activation (guest c))}

/-! ## Runs of code -/

/-- Code is called where nothing has been made yet. -/
structure Begins (C : Config (guest c)) : Prop extends C.Fresh where
  unknowing : C.world.memory.known = []
  called : ∃ j caller, C.signal = .call (function j) [] caller

/-- The start of a run of code. -/
def begun (c : Code) (data : c.Memory) : Config (guest c) :=
  ⟨⟨.initial default, #[], ⟨data, [], []⟩⟩, [], .call (function 0) [] .program⟩

theorem begins_begun (c : Code) (data : c.Memory) : Begins (begun c data) := ⟨⟨rfl, rfl, rfl, rfl⟩, rfl, 0, .program, rfl⟩

/-- The rule for runs of code: nothing misbehaves. -/
def Ruly (trace : Trace (guest c)) (C : Config (guest c)) : Prop := (trace = [] → Begins C) ∧ misbehaves C = false

/-- Where nothing has been made, nothing corresponds to anything. -/
def Joint.idle (s : Store) : Joint :=
  ⟨True, ⟨⟨0, .generator, ""⟩, 0, ⟨0, .generator, ""⟩, 0, ⟨0, .generator, ""⟩, 0⟩, .absent, ⟨fun _ _ => False, fun _ _ => False⟩,
    fun _ => none, fun _ => none, s, s⟩

theorem Begins.worlds (begins : Begins C) : Worlds (.idle C.world.store) C.world C.world where
  store := rfl
  store' := rfl
  lone _ := rfl
  own m r there := by simp [begins.machines] at there
  own' m r there := by simp [begins.machines] at there
  settings := rfl
  memory := ⟨rfl, begins.unknowing ▸ .nil, rfl⟩
  fits := ⟨⟨fun pair => pair.elim, fun pair => pair.elim⟩, fun pair => pair.elim, fun pair => pair.elim⟩
  runs _ _ := nofun
  runs' _ _ := nofun
  gens _ _ pair := pair.elim
  conts _ _ pair := pair.elim
  relay there := absurd rfl there
  holds held := held.elim
  lost gone := absurd gone nofun

theorem Begins.corresponds (begins : Begins C) : Corresponds True C C := by
  have W := begins.worlds
  obtain ⟨j, caller, called⟩ := begins.called
  have stack := begins.stack
  obtain ⟨w, S, signal⟩ := C
  cases stack
  cases called
  exact .joint (.idle w.store) W .nil (.call caller (.function j) .nil)

/-- A run corresponds to itself, wherever it is. -/
theorem corresponds_self {trace : Trace (guest c)} (run : RunOf Ruly trace C) (start : trace = [] → Begins C) :
    Corresponds True C C ∧ C.Active := by
  induction run with
  | start fresh => exact ⟨(start rfl).corresponds, .of_fresh fresh⟩
  | @step trace C D before rule stepped ih =>
      obtain ⟨corresponds, active⟩ := ih rule.1
      refine ⟨?_, active.step (Config.moves_step stepped)⟩
      rcases corresponds.progress active active rule.2 with ended | ⟨E, E', first, first', i, j, F, F', there, there', same, steps⟩
      · cases ended
        cases stepped
      · cases first.symm.trans stepped
        cases first'.symm.trans stepped
        obtain ⟨rfl, rfl⟩ := steps trivial
        cases there
        cases there'
        exact same

/-- Where somebody is told of a value, nothing is split. -/
theorem joint_self {trace : Trace (guest c)} {a : Activation (guest c)} {v : Val}
    (run : RunOf Ruly trace ⟨w, a :: S, .reply (.value v)⟩) :
    ∃ J, J.place = .absent ∧ Worlds J w w ∧ Stacks J (a :: S) (a :: S) ∧ Running w.gens (active (a :: S)) := by
  have start : trace = [] → Begins ⟨w, a :: S, .reply (.value v)⟩ := by
    rintro rfl
    cases run with
    | start fresh => exact absurd fresh.stack (List.cons_ne_nil _ _)
  obtain ⟨corresponds, running⟩ := corresponds_self run start
  generalize alone : True = lone at corresponds
  cases corresponds with
  | joint J W layout signals => exact ⟨J, W.lone (alone ▸ trivial), W, layout, running⟩

theorem run_of_comes {trace : Trace (guest c)} {n : Nat} (run : RunOf Ruly trace C) (start : trace = [] → Begins C)
    (h : comes n C = some C') : ∃ trace, RunOf Ruly trace C' := by
  induction n generalizing trace C with
  | zero =>
      cases h
      exact ⟨trace, run⟩
  | succ n ih =>
      obtain ⟨ruly, D, first, rest⟩ := comes_succ h
      exact ih (.step run ⟨start, ruly⟩ first) nofun rest

/-! ## Joints where nothing is split -/

theorem Spread.elsewhere (h : Spread N n here fs gs) (nowhere : ¬here) : Spread N n' there fs gs := .of_frames (h.frames nowhere)

theorem Topped.elsewhere (h : Topped N n here fs gs) (nowhere : ¬here) : Topped N n' there fs gs := by
  cases h with
  | intro t u pair rest => exact .intro t u pair (rest.elsewhere nowhere)

theorem Contents.elsewhere {vs ws : List Val} (h : Contents N n here vs ws) (nowhere : ¬here) : Contents N n' there vs ws := by
  induction h with
  | nil => exact .nil
  | cons pair rest ih => exact .cons pair ih
  | relay allowed => exact absurd allowed nowhere

/-- Where nothing is split, something may come to be split anywhere. -/
def Joint.at (J : Joint) (Z : Seam) : Joint := { J with lone := False, seam := Z }

section Elsewhere

variable (absent : J.place = .absent) (Z : Seam)

include absent

theorem Joint.Slices.at {k l : Cont} {p : Place} (h : J.Slices (J.place = p) k l) (other : p ≠ .absent) :
    (J.at Z).Slices (J.place = p) k l :=
  Topped.elsewhere h fun here => other (here.symm.trans absent)

theorem Joint.Stands.at {m m' : Nat} {tail : List Val} (h : J.Stands m m' tail) : (J.at Z).Stands m m' tail := by
  obtain ⟨fs, same, spread⟩ := h
  exact ⟨fs, same, spread.elsewhere (by simp [absent])⟩

theorem Joint.Tops.at {m m' : Nat} {tail : List Val} (h : J.Tops m m' tail) : (J.at Z).Tops m m' tail := by
  obtain ⟨fs, same, topped⟩ := h
  exact ⟨fs, same, topped.elsewhere (by simp [absent])⟩

theorem PlainAlike.at {p q : Routine (guest c)} (h : PlainAlike J p q) : PlainAlike (J.at Z) p q := by
  cases h with
  | code s => exact .code s
  | looking s v => exact .looking s v
  | discarding s pair slices => exact .discarding s pair (slices.at absent Z nofun)
  | calling alike => exact .calling alike
  | converting => exact .converting
  | applying l t u alike => exact .applying l t u alike
  | applied l t u => exact .applied l t u
  | passing => exact .passing
  | closing contents => exact .closing (contents.elsewhere (by simp [absent]))

theorem Resident.at {m m' : Nat} {tail : List Val} {p q : Phase} (h : Resident J m m' tail p q) :
    Resident (J.at Z) m m' tail p q := by
  cases h with
  | start stands => exact .start (stands.at absent Z)
  | calling stands => exact .calling (stands.at absent Z)
  | advancing pair tops => exact .advancing pair (tops.at absent Z)
  | escaped tops => exact .escaped (tops.at absent Z)
  | discarding op stands => exact .discarding op (stands.at absent Z)

theorem RoutineAlike.at {i i' : Nat} {p q : Routine (guest c)} (h : RoutineAlike J i i' p q) : RoutineAlike (J.at Z) i i' p q := by
  cases h with
  | plain alike => exact .plain (alike.at absent Z)
  | asking a b pair value error slices => exact .asking a b pair value error (slices.at absent Z nofun)
  | machine runs runs' resident => exact .machine runs runs' (resident.at absent Z)
  | resent runs runs' empty empty' => exact .resent runs runs' empty empty'
  | closing runs runs' contents error => exact .closing runs runs' (contents.elsewhere (by simp [absent])) error

theorem ActivationAlike.at {a b : Activation (guest c)} (h : ActivationAlike J a b) : ActivationAlike (J.at Z) a b := by
  cases h with
  | calling alike => exact .calling (alike.at absent Z)
  | running pair alike => exact .running pair (alike.at absent Z)
  | relaying s pair below => exact .relaying s pair below
  | closing pair => exact .closing pair
  | exiting s pair error => exact .exiting s pair error

theorem Stacks.at (h : Stacks J S T) : Stacks (J.at Z) S T := by
  induction h with
  | nil => exact .nil
  | cons top heard rest ih => exact .cons (top.at absent Z) heard ih
  | split spans =>
      obtain ⟨tail, splits, -⟩ := spans
      exact absurd (splits.live.symm.trans absent) nofun
  | swept pair sweeps => exact absurd (sweeps.live.symm.trans absent) nofun

theorem StatusAlike.at {relay relay' s t : Status (guest c)} {g h : Gen} (alike : StatusAlike J relay g h s t) :
    StatusAlike (J.at Z) relay' g h s t := by
  cases alike with
  | fresh alike => exact .fresh (alike.at absent Z)
  | suspended how alike => exact .suspended how (alike.at absent Z)
  | delegating s pair => exact .delegating s pair
  | running => exact .running
  | finished => exact .finished
  | splitFresh nested flat spans | splitEscaped nested flat spans =>
      obtain ⟨tail, splits, -⟩ := spans
      exact absurd (splits.live.symm.trans absent) nofun

theorem Worlds.at (W : Worlds J w w') : Worlds (J.at Z) w w' :=
  { W with
    lone := False.elim
    gens := fun g h pair => (W.gens g h pair).at absent Z
    conts := fun k l pair => ⟨(W.conts k l pair).1, fun pending => ((W.conts k l pair).2 pending).at absent Z nofun⟩
    relay := fun there => absurd absent there
    holds := fun held => (absent ▸ held : Place.absent.Holds).elim
    lost := fun gone => absurd (absent.symm.trans gone) nofun }

end Elsewhere

end OneShot.Split
