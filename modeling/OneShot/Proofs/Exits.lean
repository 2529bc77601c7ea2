import OneShot.Proofs.Steps

/-!
# Exits

Which generators end because they are closed, in which order, while the kernel takes its
steps; and which generators are at rest in what a stack holds, topmost first.
-/

namespace OneShot

open Config (Leads)

variable {G : Guest} {A B : List (Activation G)} {signal signal' : Signal} {m m' : G.Memory} {F E R : Facts G}
  {c d e : Config G} {g : Gen} {gs gs' : List Gen} {p : Routine G} {x : Exc} {P Q : Config G → Prop}

/-! ## The generators that end -/

namespace Config

/-- The generator whose body ends with an exit in the next step. -/
def exits? (c : Config G) : Option Gen :=
  match c.signal, c.stack with
  | .reply r, .running g p :: _ =>
      match (p.step c.world r).2 with
      | .raise x => if x.kind = .generatorExit then some g else none
      | _ => none
  | _, _ => none

/-- From `c` the kernel comes to `d`, and the bodies of generators end with exits on the way. -/
inductive Exits : List Gen → Config G → Config G → Prop
  | refl (c : Config G) : Exits [] c c
  | step {gs : List Gen} {c d e : Config G} (first : c.step = .ok d) (rest : Exits gs d e) :
      Exits (c.exits?.toList ++ gs) c e

theorem Exits.trans (first : Exits gs c d) (rest : Exits gs' d e) : Exits (gs ++ gs') c e := by
  induction first with
  | refl => exact rest
  | step stepped _ ih =>
      rw [List.append_assoc]
      exact .step stepped (ih rest)

theorem Exits.reaches (h : Exits gs c d) : ∃ n, Reaches n c d := by
  induction h with
  | refl c => exact ⟨0, .refl c⟩
  | step first _ ih =>
      obtain ⟨n, rest⟩ := ih
      exact ⟨n + 1, .step first rest⟩

/-- The kernel comes to a configuration with a property, and bodies end with exits on the way. -/
def Shuts (gs : List Gen) (c : Config G) (P : Config G → Prop) : Prop := ∃ d, Exits gs c d ∧ P d

namespace Shuts

theorem here (h : P c) : Shuts [] c P := ⟨c, .refl c, h⟩

theorem mono (h : Shuts gs c P) (imp : ∀ d, P d → Q d) : Shuts gs c Q := by
  obtain ⟨d, exits, holds⟩ := h
  exact ⟨d, exits, imp d holds⟩

theorem bind (h : Shuts gs c P) (next : ∀ d, P d → Shuts gs' d Q) : Shuts (gs ++ gs') c Q := by
  obtain ⟨d, exits, holds⟩ := h
  obtain ⟨e, later, there⟩ := next d holds
  exact ⟨e, exits.trans later, there⟩

/-- No body ends before. -/
theorem before (h : Shuts [] c P) (next : ∀ d, P d → Shuts gs d Q) : Shuts gs c Q := h.bind next

/-- No body ends after. -/
theorem then_quiet (h : Shuts gs c P) (next : ∀ d, P d → Shuts [] d Q) : Shuts gs c Q := by
  simpa using h.bind next

theorem step (first : c.step = .ok d) (quiet : c.exits? = none) (rest : Shuts gs d P) : Shuts gs c P := by
  obtain ⟨e, exits, holds⟩ := rest
  have whole := Exits.step first exits
  rw [quiet] at whole
  exact ⟨e, whole, holds⟩

theorem leads (h : Shuts gs c P) : Leads 0 c P := by
  obtain ⟨d, exits, holds⟩ := h
  obtain ⟨n, reached⟩ := exits.reaches
  exact ⟨n, d, Nat.zero_le _, reached, holds⟩

end Shuts

end Config

open Config (Shuts)

/-- One step in which no body ends. -/
theorem At.passes (h : At A signal m F c) (quiet : ∀ w : World G, Config.exits? ⟨w, A, signal⟩ = none)
    (next : ∀ w : World G, w.memory = m → w.Bears F → ∃ w', Config.step ⟨w, A, signal⟩ =
      .ok ⟨w', B, signal'⟩ ∧ w'.memory = m' ∧ w'.Bears E) :
    Shuts [] c (At B signal' m' E) := by
  obtain ⟨w, rfl, memory, bears⟩ := h
  obtain ⟨w', stepped, memory', bears'⟩ := next w memory bears
  exact .step stepped (quiet w) (.here ⟨w', rfl, memory', bears'⟩)

/-- The facts of generators that have ended. -/
def shut (gs : List Gen) : Facts G := ↑(gs.map fun g => Fact.gen g.id .finished : List (Fact G))

@[simp] theorem shut_nil : (shut [] : Facts G) = 0 := rfl

@[simp] theorem shut_append (gs gs' : List Gen) : (shut (gs ++ gs') : Facts G) = shut gs + shut gs' := by
  simp [shut]

/-- Each has ended once. -/
theorem World.Bears.shut_nodup {w : World G} (h : w.Bears (shut gs + F)) : gs.Nodup := by
  have apart := h.left.apart
  simp only [shut, Multiset.map_coe, Multiset.coe_nodup, List.map_map] at apart
  exact List.Nodup.of_map _ apart

theorem World.Bears.shut_finished {w : World G} (h : w.Bears (shut gs + F)) :
    ∀ g ∈ gs, w.status g = .finished := by
  intro g mem
  have here : Fact.gen g.id .finished ∈ (shut gs : Facts G) :=
    Multiset.mem_coe.2 (List.mem_map_of_mem mem)
  exact World.status_of (h.left.holds _ here)

/-- A body that ends with an exit. -/
theorem At.exits {r : Reply} (h : At (.running g p :: A) (.reply r) m ({.gen g.id .running} + R) c)
    (exit : x.kind = .generatorExit)
    (turn : ∀ w : World G, w.memory = m → ∃ w', p.step w r = (w', .raise x) ∧ w'.memory = m' ∧
      ∀ F, w.Bears F → w'.Bears F) :
    Shuts [g] c (At A (.reply (.raised x)) m' (shut [g] + R)) := by
  obtain ⟨w, rfl, memory, bears⟩ := h
  obtain ⟨w', turned, memory', keeps⟩ := turn w memory
  have ends : Config.exits? ⟨w, .running g p :: A, .reply r⟩ = some g := by
    simp only [Config.exits?, turned, if_pos exit]
  have other : x.kind ≠ .stopIteration := by
    rw [exit]
    exact nofun
  have stepped : Config.step ⟨w, .running g p :: A, .reply r⟩ =
      .ok ⟨w'.setStatus g .finished, A, .reply (.raised x)⟩ := by
    refine (Config.step_body w A (some g) p r).trans (congrArg Except.ok ?_)
    rw [turned]
    exact if_neg other
  have whole := Config.Exits.step stepped (.refl _)
  rw [ends] at whole
  exact ⟨_, whole, _, rfl, memory', (keeps _ bears).setStatus .finished⟩

/-! ## What is on a joined stack -/

/-- What the frames of a stack hold. -/
def World.held (w : World G) (m : Nat) : List Val := (w.store.stack m).filterMap Val.framed?

/--
The generators on a joined stack, topmost first: those that some values are, with what they
delegate to, and with what is on the stacks of their machines.
-/
inductive World.Hangs (w : World G) : List Val → List Gen → Prop
  | nil : Hangs w [] []
  | suspended {g : Gen} {p : Routine G} {how : Suspension} {vs : List Val} {gs : List Gen}
      (status : w.status g = .suspended p how) (plain : ∀ m q, p ≠ .library (.machine m q))
      (rest : Hangs w vs gs) : Hangs w (.gen g :: vs) (g :: gs)
  | delegating {g d : Gen} {p : Routine G} {vs : List Val} {ds gs : List Gen}
      (status : w.status g = .delegating p d) (above : Hangs w [.gen d] ds) (rest : Hangs w vs gs) :
      Hangs w (.gen g :: vs) (ds ++ g :: gs)
  | machine {g : Gen} {m : Nat} {q : Machine.Phase} {how : Suspension} {vs : List Val} {ds gs : List Gen}
      (status : w.status g = .suspended (.library (.machine m q)) how)
      (above : Hangs w (w.held m) ds) (rest : Hangs w vs gs) : Hangs w (.gen g :: vs) (ds ++ g :: gs)

theorem World.Hangs.append {w : World G} {vs vs' : List Val} (h : w.Hangs vs gs) (h' : w.Hangs vs' gs') :
    w.Hangs (vs ++ vs') (gs ++ gs') := by
  induction h with
  | nil => exact h'
  | suspended status plain _ ih => exact .suspended status plain ih
  | delegating status above _ _ ih =>
      rw [List.append_assoc]
      exact .delegating status above ih
  | machine status above _ _ ih =>
      rw [List.append_assoc]
      exact .machine status above ih

/-- What a resend carries. -/
def World.carried (w : World G) : Val → List Val
  | .resend _ ⟨_, _, .cont k, _⟩ => (w.store.frames k).filterMap Val.framed?
  | _ => []

end OneShot
