import OneShot.Proofs.Deep.Calls

/-!
# Effects

An effect that a computation performs travels outward, machine by machine, to
the innermost handler that owns it: each machine on the way captures its stack
and resends the effect, and becomes a relay.  What nobody owns reaches the
driver.
-/

namespace OneShot.Deep

open Config (Leads Reaches)

variable {c : Code} {layers : List Layer} {s₀ : c.Plain}

/-! ## The search on one stack -/

/-- None of the scopes answers an effect. -/
def Unowned (e : Effect) (fs : List (Scope c)) : Prop :=
  ∀ l, .handle l ∈ fs → l.clause? e = none

theorem Unowned.append {e : Effect} {fs gs : List (Scope c)} (first : Unowned e fs)
    (second : Unowned e gs) : Unowned e (fs ++ gs) := by
  intro l mem
  rcases List.mem_append.1 mem with inner | outer
  · exact first l inner
  · exact second l outer

/-- A stack cut at the innermost owner of an effect. -/
inductive Owned (w : World (guest c layers s₀)) (e : Effect) :
    List Val → List (Scope c) → List Loc → Prop
  | mk {above rest : List Val} {fs gs : List (Scope c)} {foot foot' : List Loc} {l : Layer}
      {t : Tag} {j : Nat} (frames : Frames w above fs foot) (below : Frames w rest gs foot')
      (unowned : Unowned e fs) (clause : l.clause? e = some j)
      (slice : cut e (above ++ layerFrame l t :: rest) =
        some ⟨above ++ [layerFrame l t], l.handler, .closure (3 * j + 2) "clause", rest⟩) :
      Owned w e (above ++ layerFrame l t :: rest) (fs ++ .handle l :: gs) (foot ++ foot')

theorem cut_layer (e : Effect) (l : Layer) (t : Tag) (vals : List Val) :
    cut e (layerFrame l t :: vals) =
      match l.clause? e with
      | some j => some ⟨[layerFrame l t], l.handler, .closure (3 * j + 2) "clause", vals⟩
      | none => (cut e vals).map fun s => { s with frames := layerFrame l t :: s.frames } := by
  simp only [layerFrame, cut, l.clause?_handler e]
  cases l.clause? e <;> rfl

theorem cut_gen (e : Effect) (g : Gen) (t : Tag) (vals : List Val) :
    cut e (genFrame g t :: vals) =
      (cut e vals).map fun s => { s with frames := genFrame g t :: s.frames } := rfl

theorem Owned.cons {w : World (guest c layers s₀)} {e : Effect} {v : Val} {vals : List Val}
    {fs : List (Scope c)} {foot : List Loc} (h : Owned w e vals fs foot)
    (fs' : List (Scope c)) (spot : List Loc)
    (skip : ∀ vals, cut e (v :: vals) = (cut e vals).map fun s => { s with frames := v :: s.frames })
    (extend : ∀ {vals gs foot}, Frames w vals gs foot →
      Frames w (v :: vals) (fs' ++ gs) (spot ++ foot))
    (unowned : Unowned e fs') : Owned w e (v :: vals) (fs' ++ fs) (spot ++ foot) := by
  cases h with
  | mk frames below none_owns clause slice =>
      rw [← List.append_assoc, ← List.append_assoc, ← List.cons_append]
      refine .mk (extend frames) below (unowned.append none_owns) clause ?_
      rw [List.cons_append, skip, slice]
      rfl

/-- On a stack of frames either nobody owns an effect, or it is cut at the innermost owner. -/
theorem Frames.search {w : World (guest c layers s₀)} {vals : List Val} {fs : List (Scope c)}
    {foot : List Loc} (h : Frames w vals fs foot) (e : Effect) :
    searchFault? (.effect e) vals = none ∧
      ((Unowned e fs ∧ cut e vals = none) ∨ Owned w e vals fs foot) := by
  induction h with
  | nil => exact ⟨rfl, .inl ⟨by simp [Unowned], rfl⟩⟩
  | @handle l t vals fs foot rest ih =>
      obtain ⟨faultless, found⟩ := ih
      have fault : searchFault? (.effect e) (layerFrame l t :: vals) =
          if l.handler.owns e then none else searchFault? (.effect e) vals := rfl
      rw [l.owns_handler e] at fault
      cases owner : l.clause? e with
      | some j =>
          refine ⟨by rw [fault, owner]; rfl, .inr ?_⟩
          have owned : Owned w e ([] ++ layerFrame l t :: vals) ([] ++ .handle l :: fs)
              ([] ++ foot) := by
            refine .mk .nil rest (by simp [Unowned]) owner ?_
            rw [List.nil_append, cut_layer, owner]
            rfl
          exact owned
      | none =>
          have skip (vals : List Val) : cut e (layerFrame l t :: vals) =
              (cut e vals).map fun s => { s with frames := layerFrame l t :: s.frames } := by
            rw [cut_layer, owner]
          have alone : Unowned e [(.handle l : Scope c)] := by
            intro l' mem
            cases List.mem_singleton.1 mem
            exact owner
          refine ⟨by rw [fault, owner]; exact faultless, ?_⟩
          rcases found with ⟨unowned, uncut⟩ | owned
          · exact .inl ⟨alone.append unowned, by rw [skip, uncut]; rfl⟩
          · exact .inr (owned.cons [.handle l] [] skip .handle alone)
  | @bind g d s t vals fs foot clause request rest ih =>
      obtain ⟨faultless, found⟩ := ih
      have alone : Unowned e [(.bind s : Scope c)] := by simp [Unowned]
      refine ⟨faultless, ?_⟩
      rcases found with ⟨unowned, uncut⟩ | owned
      · exact .inl ⟨alone.append unowned, by rw [cut_gen, uncut]; rfl⟩
      · exact .inr (owned.cons [.bind s] [_, _] (cut_gen e g t) (.bind clause request) alone)
  | @pass g t vals fs foot request rest ih =>
      obtain ⟨faultless, found⟩ := ih
      refine ⟨faultless, ?_⟩
      rcases found with ⟨unowned, uncut⟩ | owned
      · exact .inl ⟨unowned, by rw [cut_gen, uncut]; rfl⟩
      · exact .inr (owned.cons [] [_] (cut_gen e g t) (.pass request)
          (by simp [Unowned]))
  | @relay g m owner t vals fs foot resent spent rest ih =>
      obtain ⟨faultless, found⟩ := ih
      refine ⟨faultless, ?_⟩
      rcases found with ⟨unowned, uncut⟩ | owned
      · exact .inl ⟨unowned, by rw [cut_gen, uncut]; rfl⟩
      · exact .inr (owned.cons [] [_, _] (cut_gen e g t) (.relay resent spent)
          (by simp [Unowned]))

/-! ## One machine -/

/-- The store after a machine has captured frames, and the continuation of them. -/
def capturing (s : Store) (m : Nat) (left frames : List Val) (inner : Option Cont)
    (text : Unit → String) : Store × Cont :=
  let r := Machine.capture (s.setStack m left) frames inner
  (r.1.note .handler text, r.2)

theorem dispatch_of_uncut {s : Store} {m : Nat} {e : Effect}
    (faultless : searchFault? (.effect e) (s.stack m) = none) (uncut : cut e (s.stack m) = none)
    (args : Arguments) (context : Val) (inner : Option Cont) :
    ∃ text id, Machine.dispatch s m (.effect e) args context inner =
      ((capturing s m [] (s.stack m) inner text).1.freshId.1,
        .ask (.yield (.resend id ⟨.effect e, args,
          .cont (capturing s m [] (s.stack m) inner text).2, context⟩) .inner) .resent) := by
  unfold Machine.dispatch
  rw [faultless]
  simp only [uncut]
  exact ⟨_, _, rfl⟩

theorem dispatch_of_cut {s : Store} {m : Nat} {e : Effect} {slice : Slice}
    (faultless : searchFault? (.effect e) (s.stack m) = none)
    (found : cut e (s.stack m) = some slice) (args : Arguments) (context : Val)
    (inner : Option Cont) :
    ∃ text, Machine.dispatch s m (.effect e) args context inner =
      ((capturing s m slice.below slice.frames inner text).1,
        .ask (.call slice.clause
          (.cont (capturing s m slice.below slice.frames inner text).2 :: args.values))
          .calling) := by
  unfold Machine.dispatch
  rw [faultless]
  simp only [found]
  let r := Machine.capture (s.setStack m slice.below) slice.frames inner
  exact ⟨fun _ => r.1.repr (.handler slice.handler) ++
    (if inner.isSome then " handles resent " else " handles ") ++ r.1.str (.effect e), rfl⟩

section Capturing

variable {w : World (guest c layers s₀)} {m : Nat} {old : List Val} {owner : Val}

theorem frames_setStack (s : Store) (m : Nat) (left : List Val) (k : Cont) :
    (s.setStack m left).frames k = s.frames k := by
  simp [Store.frames]

theorem changes_capturing (stack : w.store.machines[m]? = some ⟨.own old, owner⟩)
    (left frames : List Val) (inner : Option Cont) (text : Unit → String) :
    w.Changes { w with store := (capturing w.store m left frames inner text).1 } [.machine m] := by
  have first := World.Changes.setStack stack left
  have second := World.Changes.newCont { w with store := w.store.setStack m left }
    (inner.elim [] (w.store.setStack m left).frames ++ frames) (inner.map .cont)
  have third := World.Changes.of_store
    (w := { w with store := (Machine.capture (w.store.setStack m left) frames inner).1 })
    (capturing w.store m left frames inner text).1
    (Store.engine_note _ _ _)
  exact (first.trans (second.trans third)).mono (by simp)

theorem machines_capturing (stack : w.store.machines[m]? = some ⟨.own old, owner⟩)
    (left frames : List Val) (inner : Option Cont) (text : Unit → String) :
    (capturing w.store m left frames inner text).1.machines[m]? = some ⟨.own left, owner⟩ := by
  have same : (capturing w.store m left frames inner text).1.machines =
      (Machine.capture (w.store.setStack m left) frames inner).1.machines :=
    Store.machines_of_engine (Store.engine_note _ _ _)
  rw [same]
  exact Store.machines_setStack stack left

theorem conts_capturing (left frames : List Val) (inner : Option Cont) (text : Unit → String) :
    (capturing w.store m left frames inner text).1.conts[
        (capturing w.store m left frames inner text).2.index]? =
      some ⟨inner.elim [] w.store.frames ++ frames, inner.map .cont, false⟩ ∧
      ¬ w.Has (.cont (capturing w.store m left frames inner text).2.index) := by
  have same : (capturing w.store m left frames inner text).1.conts =
      (Machine.capture (w.store.setStack m left) frames inner).1.conts :=
    Store.conts_of_engine (Store.engine_note _ _ _)
  have elim : inner.elim [] (w.store.setStack m left).frames = inner.elim [] w.store.frames := by
    cases inner with
    | none => rfl
    | some k => exact frames_setStack _ _ _ _
  have size : (w.store.setStack m left).conts.size = w.store.conts.size := by
    simp
  refine ⟨?_, ?_⟩
  · rw [same]
    simp [capturing, Machine.capture, Store.newCont, elim]
  · simp [World.Has, capturing, Machine.capture, Store.newCont]

end Capturing

end OneShot.Deep
