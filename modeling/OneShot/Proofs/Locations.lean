import OneShot.Kernel
import OneShot.Proofs.Quiet

/-!
# Locations

The places of a world that hold something suspended: generators, machines and
continuations.  What is known of some places stays true when others change, and
when new ones are added.
-/

namespace OneShot

variable {G : Guest}

inductive Loc where
  | gen (id : Nat)
  | machine (id : Nat)
  | cont (id : Nat)
  /-- The settings of the run, which never change. -/
  | settings
  deriving DecidableEq, Repr

namespace World

/-- The two worlds have the same at a place. -/
def SameAt (w w' : World G) : Loc → Prop
  | .gen i => w'.gens[i]? = w.gens[i]?
  | .machine i => w'.store.machines[i]? = w.store.machines[i]?
  | .cont i => w'.store.conts[i]? = w.store.conts[i]?
  | .settings => w'.store.settings = w.store.settings

/-- There is something at a place. -/
def Has (w : World G) : Loc → Prop
  | .gen i => i < w.gens.size
  | .machine i => i < w.store.machines.size
  | .cont i => i < w.store.conts.size
  | .settings => True

/-- Only the given places change, as far as there was something at them. -/
def Changes (w w' : World G) (places : List Loc) : Prop :=
  ∀ l, w.Has l → l ∉ places → w.SameAt w' l ∧ w'.Has l

variable {w w' w'' : World G} {places more : List Loc}

theorem has_gen {g : Nat} {t : Status G} (h : w.gens[g]? = some t) : w.Has (.gen g) :=
  (Array.getElem?_eq_some_iff.1 h).1

theorem has_machine {m : Nat} {r : MachineRecord} (h : w.store.machines[m]? = some r) :
    w.Has (.machine m) :=
  (Array.getElem?_eq_some_iff.1 h).1

theorem has_cont {k : Nat} {r : ContRecord} (h : w.store.conts[k]? = some r) :
    w.Has (.cont k) :=
  (Array.getElem?_eq_some_iff.1 h).1

theorem status_of {g : Gen} {t : Status G} (h : w.gens[g.id]? = some t) : w.status g = t := by
  simp [status, Array.getD_eq_getD_getElem?, h]

/-- What occurs no more often than in a list without repetition is not repeated. -/
theorem nodup_of_count {l l' : List Loc} (h : l.Nodup) (less : ∀ x, l'.count x ≤ l.count x) :
    l'.Nodup := by
  rw [List.nodup_iff_count] at h ⊢
  exact fun x => Nat.le_trans (less x) (h x)

namespace Changes

theorem refl (w : World G) : w.Changes w [] := by
  intro l has _
  refine ⟨?_, has⟩
  cases l <;> exact Eq.refl _

theorem mono (h : w.Changes w' places) (sub : places ⊆ more) : w.Changes w' more :=
  fun l has out => h l has fun mem => out (sub mem)

theorem trans (first : w.Changes w' places) (second : w'.Changes w'' more) :
    w.Changes w'' (places ++ more) := by
  intro l has out
  obtain ⟨same, has'⟩ := first l has fun mem => out (List.mem_append_left _ mem)
  obtain ⟨same', has''⟩ := second l has' fun mem => out (List.mem_append_right _ mem)
  refine ⟨?_, has''⟩
  cases l <;> exact Eq.trans same' same

theorem of_store (store : Store) (same : store.engine = w.store.engine) : w.Changes { w with store } [] := by
  have machines := Store.machines_of_engine same
  have conts := Store.conts_of_engine same
  intro l has _
  cases l with
  | gen i => exact ⟨rfl, has⟩
  | machine i => exact ⟨congrArg (·[i]?) machines, Nat.lt_of_lt_of_eq has (by rw [machines])⟩
  | cont i => exact ⟨congrArg (·[i]?) conts, Nat.lt_of_lt_of_eq has (by rw [conts])⟩
  | settings => exact ⟨Store.settings_of_engine same, has⟩

theorem setStatus (w : World G) (g : Gen) (t : Status G) :
    w.Changes (w.setStatus g t) [.gen g.id] := by
  intro l has out
  cases l with
  | gen i =>
      have other : g.id ≠ i := fun same => out (by simp [same])
      refine ⟨?_, by simpa [Has, World.setStatus] using has⟩
      simp [SameAt, World.setStatus, Array.getElem?_modify, other]
  | _ => exact ⟨rfl, has⟩

theorem spawn (w : World G) (kind : GenKind) (name : String) (r : Routine G) :
    w.Changes (w.spawn kind name r).1 [] := by
  intro l has _
  cases l with
  | gen i =>
      have inside : i < w.gens.size := has
      refine ⟨?_, ?_⟩
      · simp [SameAt, World.spawn, Array.getElem?_push, Nat.ne_of_lt inside]
      · simp only [Has, World.spawn, Array.size_push]
        omega
  | _ => exact ⟨rfl, has⟩

theorem newCont (w : World G) (frames : List Val) (inner : Option Val) :
    w.Changes { w with store := (w.store.newCont frames inner).1 } [] := by
  intro l has _
  cases l with
  | cont i =>
      have inside : i < w.store.conts.size := has
      refine ⟨?_, ?_⟩
      · simp [SameAt, Store.newCont, Array.getElem?_push, Nat.ne_of_lt inside]
      · simp only [Has, Store.newCont, Array.size_push]
        omega
  | _ => exact ⟨rfl, has⟩

theorem newMachine (w : World G) (stack : Stack) (owner : Val) :
    w.Changes { w with store := (w.store.newMachine stack owner).1 } [] := by
  intro l has _
  cases l with
  | machine i =>
      have inside : i < w.store.machines.size := has
      refine ⟨?_, ?_⟩
      · simp [SameAt, Store.newMachine, Array.getElem?_push, Nat.ne_of_lt inside]
      · simp only [Has, Store.newMachine, Array.size_push]
        omega
  | _ => exact ⟨rfl, has⟩

theorem take (w : World G) (k : Cont) :
    w.Changes { w with store := (w.store.take k).1 } [.cont k.index] := by
  unfold Store.take
  split
  · exact (refl w).mono (List.nil_subset _)
  · intro l has out
    cases l with
    | cont i =>
        have other : k.index ≠ i := fun same => out (by simp [same])
        refine ⟨?_, by simpa [Has] using has⟩
        simp [SameAt, Array.getElem?_modify, other]
    | _ => exact ⟨rfl, has⟩

/-- The stack of a machine of its own is set. -/
theorem setStack {m : Nat} {old : List Val} {owner : Val}
    (h : w.store.machines[m]? = some ⟨.own old, owner⟩) (frames : List Val) :
    w.Changes { w with store := w.store.setStack m frames } [.machine m] := by
  intro l has out
  simp only [Store.setStack, h]
  cases l with
  | machine i =>
      have other : m ≠ i := fun same => out (by simp [same])
      refine ⟨?_, by simpa [Has] using has⟩
      simp [SameAt, Array.getElem?_modify, other]
  | _ => exact ⟨rfl, has⟩

end Changes

/-! ## What is there after a change -/

theorem getElem?_setStatus {g : Gen} (has : w.Has (.gen g.id)) (t : Status G) :
    (w.setStatus g t).gens[g.id]? = some t := by
  have inside : g.id < w.gens.size := has
  simp [World.setStatus, Array.getElem_modify, inside]

theorem getElem?_spawn (w : World G) (kind : GenKind) (name : String) (r : Routine G) :
    (w.spawn kind name r).1.gens[(w.spawn kind name r).2.id]? = some (.fresh r) := by
  simp [World.spawn]

end World

namespace Store

variable {s : Store}

theorem machines_setStack {m : Nat} {old : List Val} {owner : Val}
    (h : s.machines[m]? = some ⟨.own old, owner⟩) (frames : List Val) :
    (s.setStack m frames).machines[m]? = some ⟨.own frames, owner⟩ := by
  simp [setStack, h, Array.getElem?_modify]

theorem setStack_setStack {m : Nat} {old : List Val} {owner : Val}
    (h : s.machines[m]? = some ⟨.own old, owner⟩) (frames frames' : List Val) :
    (s.setStack m frames).setStack m frames' = s.setStack m frames' := by
  have once := machines_setStack h frames
  unfold setStack at once ⊢
  simp only [h] at once ⊢
  simp only [once, Store.mk.injEq, true_and, and_true]
  refine Array.ext_getElem? fun i => ?_
  simp only [Array.getElem?_modify]
  split
  · simp [Function.comp_def]
  · rfl

/-- The stack that is there already is set. -/
theorem setStack_self {m : Nat} {frames : List Val} {owner : Val}
    (h : s.machines[m]? = some ⟨.own frames, owner⟩) : s.setStack m frames = s := by
  have same : (s.machines.modify m fun r => { r with stack := .own frames }) = s.machines := by
    refine Array.ext_getElem? fun i => ?_
    simp only [Array.getElem?_modify]
    split
    · rename_i here
      rw [← here, h]
      rfl
    · rfl
  unfold setStack
  simp only [h, same]

theorem stack_of_own {m : Nat} {frames : List Val} {owner : Val}
    (h : s.machines[m]? = some ⟨.own frames, owner⟩) : s.stack m = frames := by
  simp [stack, h]

theorem conts_take {k : Cont} {frames : List Val} {inner : Option Val}
    (h : s.conts[k.index]? = some ⟨frames, inner, false⟩) :
    (s.take k).2 = true ∧ (s.take k).1.conts[k.index]? = some ⟨frames, inner, true⟩ := by
  simp [take, isTaken, h, Array.getElem?_modify]

end Store
end OneShot
