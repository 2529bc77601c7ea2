import OneShot.Proofs.Frames.Seats

/-!
# Activity

The generators that are running are those whose bodies are on the stack of the
kernel, each once: a running generator can neither be advanced nor closed.
-/

namespace OneShot

variable {G : Guest}

namespace Activation

/-- The generator whose body is in an activation. -/
def active? : Activation G → Option Gen
  | .running g _ | .relaying g _ _ | .exiting g _ _ => some g
  | .calling _ | .closing _ => none

@[simp] theorem active?_running (g : Gen) (p : Routine G) : (running g p).active? = some g := rfl

@[simp] theorem active?_relaying (g d : Gen) (p : Routine G) :
    (relaying g p d).active? = some g := rfl

@[simp] theorem active?_exiting (g : Gen) (p : Routine G) (x : Exc) :
    (exiting g p x).active? = some g := rfl

@[simp] theorem active?_calling (p : Routine G) : (calling p).active? = none := rfl

@[simp] theorem active?_closing (g : Gen) : (closing g : Activation G).active? = none := rfl

end Activation

/-- The generators with bodies on a stack, by their numbers. -/
def active (stack : List (Activation G)) : List Nat :=
  stack.filterMap fun a => a.active?.map (·.id)

/-- The generators that are running are the given ones, each once. -/
structure Running (gens : Array (Status G)) (ids : List Nat) : Prop where
  once : ids.Nodup
  running : ∀ i, gens[i]? = some .running ↔ i ∈ ids

theorem active_cons_of_some {a : Activation G} {stack : List (Activation G)} {g : Gen}
    (h : a.active? = some g) : active (a :: stack) = g.id :: active stack := by
  simp [active, h]

theorem active_cons_of_none {a : Activation G} {stack : List (Activation G)}
    (h : a.active? = none) : active (a :: stack) = active stack := by
  simp [active, h]

theorem active_of (seat : Option Gen) (p p' : Routine G) (stack : List (Activation G)) :
    active (.of seat p :: stack) = active (.of seat p' :: stack) := by
  cases seat <;> rfl

namespace Running

variable {w : World G} {ids : List Nat} {g : Gen}

theorem push (h : Running w.gens ids) {t : Status G} (status : w.status g = t)
    (idle : t ≠ .running) (there : t ≠ .finished) :
    Running (w.setStatus g .running).gens (g.id :: ids) := by
  have found := World.getElem?_of_status status there
  refine ⟨List.nodup_cons.2 ⟨fun mem => ?_, h.once⟩, fun i => ?_⟩
  · rw [(h.running g.id).2 mem] at found
    exact idle (Option.some.inj found).symm
  · simp only [World.setStatus, Array.getElem?_modify, List.mem_cons]
    by_cases same : g.id = i
    · subst same
      simp [found]
    · simp [same, Ne.symm same, h.running i]

/-- A generator that has no body on the stack is set to a status that is not running. -/
theorem set (h : Running w.gens ids) {t : Status G} (idle : g.id ∉ ids) (still : t ≠ .running) :
    Running (w.setStatus g t).gens ids := by
  refine ⟨h.once, fun i => ?_⟩
  simp only [World.setStatus, Array.getElem?_modify]
  split
  · rename_i same
    subst same
    simp only [idle, iff_false]
    cases w.gens[g.id]? <;> simp [still]
  · exact h.running i

theorem not_mem (h : Running w.gens ids) {t : Status G} (status : w.status g = t)
    (idle : t ≠ .running) : g.id ∉ ids := by
  intro mem
  have found := World.status_of ((h.running g.id).2 mem)
  exact idle (status.symm.trans found)

theorem pop (h : Running w.gens (g.id :: ids)) {t : Status G} (still : t ≠ .running) :
    Running (w.setStatus g t).gens ids := by
  have once := List.nodup_cons.1 h.once
  refine ⟨once.2, fun i => ?_⟩
  simp only [World.setStatus, Array.getElem?_modify]
  split
  · rename_i same
    subst same
    simp only [once.1, iff_false]
    cases w.gens[g.id]? <;> simp [still]
  · rename_i other
    rw [h.running i]
    simp [Ne.symm other]

theorem spawn (h : Running w.gens ids) (kind : GenKind) (name : String) (p : Routine G) :
    Running (w.spawn kind name p).1.gens ids := by
  refine ⟨h.once, fun i => ?_⟩
  rw [← h.running i]
  simp only [World.spawn, Array.getElem?_push]
  split
  · rename_i last
    subst last
    simp
  · rfl

end Running

namespace Config

/-- The running generators of a configuration are those on its stack. -/
def Active (c : Config G) : Prop := Running c.world.gens (active c.stack)

theorem Active.of_fresh {c : Config G} (fresh : c.Fresh) : c.Active := by
  refine ⟨?_, fun i => ?_⟩
  · simp [active, fresh.stack]
  · simp [active, fresh.stack, fresh.gens]

theorem Active.step {c d : Config G} (h : c.Active) (moves : Moves c d) : d.Active := by
  cases moves with
  | answers calls => exact h
  | enters calls entered => exact h
  | @spawns w stack f args caller store memory p kind name calls spawned =>
      have kept : Running w.gens (active stack) := h
      exact kept.spawn kind name p
  | forwards calls => exact h
  | stays quiet unmoved => exact h
  | breaks x quiet status =>
      refine Running.set h ?_ (by simp)
      rcases status with ⟨p, status⟩ | status
      · exact h.not_mem status (by simp)
      · exact h.not_mem status (by simp)
  | begins status => exact Running.push h status (by simp) (by simp)
  | resumes quiet status => exact Running.push h status (by simp) (by simp)
  | relays status => exact Running.push h status (by simp) (by simp)
  | exits x status => exact Running.push h status (by simp) (by simp)
  | spares quiet final => exact h
  | discards status => exact Running.set h (h.not_mem status (by simp)) (by simp)
  | interrupts x quiet status => exact Running.push h status (by simp) (by simp)
  | pursues x quiet status => exact Running.push h status (by simp) (by simp)
  | @goes w v seat p p' r turn store signal stack stepped answer =>
      have kept : Running v.gens (active (.of seat p :: stack)) :=
        (Routine.step_gens stepped).symm ▸ h
      rw [active_of seat p p'] at kept
      exact kept
  | @delegates w v stack g d p p' r a stepped passes =>
      have kept : Running v.gens (g.id :: active stack) := (Routine.step_gens stepped).symm ▸ h
      exact kept
  | @suspends w v stack g p p' r u how stepped =>
      have kept : Running v.gens (g.id :: active stack) := (Routine.step_gens stepped).symm ▸ h
      exact kept.pop (by simp)
  | @ends w v stack g p r r' turn store stepped ending quiet final =>
      have kept : Running v.gens (g.id :: active stack) := (Routine.step_gens stepped).symm ▸ h
      exact kept.pop (by simp)
  | @returns w v stack p r r' turn store stepped ending quiet final =>
      have kept : Running v.gens (active stack) := (Routine.step_gens stepped).symm ▸ h
      exact kept
  | hands v => exact Running.pop h (by simp)
  | regains => exact h
  | closes quiet final => exact h
  | leaves y => exact h

end Config
end OneShot
