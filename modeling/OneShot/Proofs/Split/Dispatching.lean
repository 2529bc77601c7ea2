import OneShot.Proofs.Frames.Unwinding
import OneShot.Proofs.Split.Settling

/-!
# Invocations that are dispatched in two runs

Stacks of frames that correspond are cut at the frame of the same handler, or at none.
What is cut off is captured by new continuations that correspond; the relay goes with it,
if it is among it.
-/

namespace OneShot.Split

open Config (Reaches)
open List (Forall₂)
open Machine (Phase dispatch)

variable {c : Code} {J K : Joint} {w w' : World (guest c)} {S T : List (Activation (guest c))} {g h n : Gen} {m m' : Nat}
  {N : Names} {here there : Prop} {fs gs tail : List Val} {inner inner' : Option Cont} {p q : Phase}

/-! ## Stacks that are cut -/

/-- Two stacks that are cut at the same frame; the relay is above it or below. -/
inductive CutAlike (N : Names) (n : Gen) (here : Prop) (A : Prop → List Val → List Val → Prop) :
    Option Slice → Option Slice → Prop
  | none : CutAlike N n here A none none
  | found (l : Layer) (j : Nat) {as as' bs bs' : List Val} (inside beneath : Prop) (allowed : inside ∨ beneath → here)
      (apart : ¬(inside ∧ beneath)) (above : A inside as as') (below : Spread N n beneath bs bs') :
      CutAlike N n here A (some ⟨as, l.handler, function j, bs⟩) (some ⟨as', l.handler, function j, bs'⟩)

/-- The clauses of handlers of code are functions of code. -/
theorem clause?_layer (l : Layer) (e : Nat) : l.handler.clause? (effect e) = none ∨ ∃ j, l.handler.clause? (effect e) = some (function j) := by
  cases found : l.handler.clauses.find? fun p => p.1.uid == (effect e).uid with
  | none => exact .inl (by simp [Handler.clause?, found])
  | some p =>
      obtain ⟨q, -, rfl⟩ := List.mem_map.1 (List.mem_of_find?_eq_some found)
      exact .inr ⟨q.2, by simp [Handler.clause?, found]⟩

/-- Something above that owns no effect. -/
theorem CutAlike.push {A B : Prop → List Val → List Val → Prop} {r r' : Option Slice} (h : CutAlike N n here A r r') (f f' : Val)
    (push : ∀ inside as as', A inside as as' → B inside (f :: as) (f' :: as')) :
    CutAlike N n here B (r.map fun c => { c with frames := f :: c.frames }) (r'.map fun c => { c with frames := f' :: c.frames }) := by
  cases h with
  | none => exact .none
  | found l j inside beneath allowed apart above below => exact .found l j inside beneath allowed apart (push _ _ _ above) below

theorem cut_genFrame (e : Effect) (g : Gen) (t : Tag) (rest : List Val) :
    cut e (genFrame g t :: rest) = (cut e rest).map fun c => { c with frames := genFrame g t :: c.frames } := rfl

theorem cut_layerFrame (e : Effect) (l : Layer) (t : Tag) (rest : List Val) : cut e (layerFrame l t :: rest) =
    match l.handler.clause? e with
    | some f => some ⟨[layerFrame l t], l.handler, f, rest⟩
    | none => (cut e rest).map fun c => { c with frames := layerFrame l t :: c.frames } := rfl

theorem Spread.cut (h : Spread N n here fs gs) (e : Nat) :
    CutAlike N n here (Spread N n) (OneShot.cut (effect e) fs) (OneShot.cut (effect e) gs) := by
  have frames {fs gs : List Val} (h : Forall₂ (FrameAlike N) fs gs) :
      CutAlike N n False (Spread N n) (OneShot.cut (effect e) fs) (OneShot.cut (effect e) gs) := by
    induction h with
    | nil => exact .none
    | @cons f g fs gs head rest ih =>
        cases head with
        | gen t u pair => exact ih.push _ _ fun _ _ _ above => .cons (.gen t u pair) above
        | layer l t u =>
            rw [cut_layerFrame, cut_layerFrame]
            rcases clause?_layer l e with free | ⟨j, owned⟩
            · rw [free]
              exact ih.push _ _ fun _ _ _ above => .cons (.layer l t u) above
            · rw [owned]
              exact .found l j False False (by simp) (by simp) (.cons (.layer l t u) .nil) (.of_frames rest)
  induction h with
  | nil => exact .none
  | @cons f g fs gs head rest ih =>
      cases head with
      | gen t u pair => exact ih.push _ _ fun _ _ _ above => .cons (.gen t u pair) above
      | layer l t u =>
          rw [cut_layerFrame, cut_layerFrame]
          rcases clause?_layer l e with free | ⟨j, owned⟩
          · rw [free]
            exact ih.push _ _ fun _ _ _ above => .cons (.layer l t u) above
          · rw [owned]
            exact .found l j False here (by simp) (by simp) (.cons (.layer l t u) .nil) rest
  | @relay fs gs t allowed below =>
      rw [cut_genFrame]
      have alike := frames below
      generalize OneShot.cut (effect e) fs = r at alike ⊢
      generalize OneShot.cut (effect e) gs = r' at alike ⊢
      cases alike with
      | none => exact .none
      | found l j inside beneath never apart above below =>
          have nowhere : ¬inside := fun here => never (.inl here)
          have nothing : ¬beneath := fun here => never (.inr here)
          exact .found l j True False (fun _ => allowed) (by simp) (.relay t trivial (above.frames nowhere))
            (.of_frames (below.frames nothing))

theorem Topped.cut (h : Topped N n here fs gs) (e : Nat) :
    CutAlike N n here (Topped N n) (OneShot.cut (effect e) fs) (OneShot.cut (effect e) gs) := by
  cases h with
  | intro t u pair rest =>
      rw [cut_genFrame, cut_genFrame]
      exact (rest.cut e).push _ _ fun _ _ _ above => .intro t u pair above

/-- A stack is cut above what is below, or else there. -/
theorem cut_append (e : Effect) (fs gs : List Val) : OneShot.cut e (fs ++ gs) =
    match OneShot.cut e fs with
    | some c => some { c with below := c.below ++ gs }
    | none => (OneShot.cut e gs).map fun c => { c with frames := fs ++ c.frames } := by
  fun_induction OneShot.cut e fs with
  | case1 => cases found : OneShot.cut e gs <;> exact found
  | case2 h t rest f owned => simp [OneShot.cut, owned]
  | case3 h t rest free ih =>
      simp only [List.cons_append, OneShot.cut, free, ih]
      cases OneShot.cut e rest <;> cases OneShot.cut e gs <;> rfl
  | case4 f rest other ih =>
      simp only [List.cons_append, OneShot.cut, ih]
      cases OneShot.cut e rest <;> cases OneShot.cut e gs <;> rfl

theorem FrameAlike.proper {f g : Val} (h : FrameAlike N f g) : f.Proper ∧ g.Proper := by
  cases h with
  | layer l t u => exact ⟨.handler _ t, .handler _ u⟩
  | gen t u pair => exact ⟨.generator _ t, .generator _ u⟩

theorem Spread.proper (h : Spread N n here fs gs) : (∀ f ∈ fs, f.Proper) ∧ ∀ f ∈ gs, f.Proper := by
  have frames {fs gs : List Val} (h : Forall₂ (FrameAlike N) fs gs) : (∀ f ∈ fs, f.Proper) ∧ ∀ f ∈ gs, f.Proper := by
    induction h with
    | nil => simp
    | cons head rest ih => simpa using ⟨⟨head.proper.1, ih.1⟩, head.proper.2, ih.2⟩
  induction h with
  | nil => simp
  | cons head rest ih => simpa using ⟨⟨head.proper.1, ih.1⟩, head.proper.2, ih.2⟩
  | relay t allowed below => simpa using ⟨⟨.generator _ t, (frames below).1⟩, (frames below).2⟩

/-! ## Frames that are captured -/

/-- The machine `m` has captured frames, by a continuation that is pending. -/
structure Captures (s t : Store) (m : Nat) (left frames : List Val) : Prop extends Restacks s t m left (some frames) where
  pending : ∀ b, t.isTaken ⟨s.conts.size, b⟩ = false
  size : s.conts.size < t.conts.size

theorem captures_newCont {s t : Store} (own : s.Own) (inside : m < s.machines.size) (left frames : List Val) (k : Option Val)
    (after : Store.Quietly ((s.setStack m left).newCont frames k).1 t) : Captures s t m left frames := by
  have conts := Machine.conts_setStack s m left
  have grown : ((s.setStack m left).newCont frames k).1.conts = s.conts.push ⟨frames, k, false⟩ := by
    rw [Store.newCont, conts]
  have same : t.conts = s.conts.push ⟨frames, k, false⟩ := (Store.conts_of_engine after.engine).trans grown
  refine ⟨⟨?_, ?_, ?_⟩, fun b => ?_, ?_⟩
  · exact ((Store.Sets.setStack own inside left).newCont (by rw [conts]) frames k).after after
  · exact ((Store.Takes.of_conts conts).trans (.newCont _ frames k)).trans (.of_quietly after)
  · exact (Store.settings_of_engine after.engine).trans (settings_setStack s m left)
  · simp [Store.isTaken, same]
  · simp [same]

section Dispatch

variable {s : Store} (own : s.Own) (inside : m < s.machines.size) (proper : ∀ f ∈ s.stack m, f.Proper) (args : Arguments)
  (context : Val) (inner : Option Cont)

include own inside

theorem captures_capturing (left frames : List Val) (text : Unit → String) :
    (Deep.capturing s m left frames inner text).2 = ⟨s.conts.size, inner.isSome⟩ ∧
      ∀ t, Store.Quietly (Deep.capturing s m left frames inner text).1 t →
        Captures s t m left (inner.elim [] s.frames ++ frames) := by
  have elim : inner.elim [] (s.setStack m left).frames = inner.elim [] s.frames := by
    rw [Machine.frames_setStack]
  refine ⟨?_, fun t after => captures_newCont own inside left _ (inner.map .cont) ?_⟩
  · simp only [Deep.capturing, Machine.capture, Store.newCont, Machine.conts_setStack]
    cases inner <;> rfl
  · rw [← elim]
    exact (Store.Quietly.note _ _ _).trans after

include proper

/-- An invocation is answered by the clause of the handler that owns its effect. -/
theorem dispatch_found {e : Effect} {slice : Slice} (found : cut e (s.stack m) = some slice) :
    ∃ t, dispatch s m (.effect e) args context inner =
        (t, .ask (.call slice.clause (.cont ⟨s.conts.size, inner.isSome⟩ :: args.values)) .calling) ∧
      Captures s t m slice.below (inner.elim [] s.frames ++ slice.frames) := by
  obtain ⟨text, same⟩ := Deep.dispatch_of_cut (Machine.searchFault?_eq_none proper e) found args context inner
  obtain ⟨made, captures⟩ := captures_capturing own inside inner slice.below slice.frames text
  rw [made] at same
  exact ⟨_, same, captures _ (.refl _)⟩

/-- An invocation that no handler owns is resent. -/
theorem dispatch_resends {e : Effect} (free : cut e (s.stack m) = none) :
    ∃ t i, dispatch s m (.effect e) args context inner =
        (t, .ask (.yield (.resend i ⟨.effect e, args, .cont ⟨s.conts.size, inner.isSome⟩, context⟩) .inner) .resent) ∧
      Captures s t m [] (inner.elim [] s.frames ++ s.stack m) := by
  obtain ⟨text, i, same⟩ := Deep.dispatch_of_uncut (Machine.searchFault?_eq_none proper e) free args context inner
  obtain ⟨made, captures⟩ := captures_capturing own inside inner [] (s.stack m) text
  rw [made] at same
  exact ⟨_, i, same, captures _ (.freshId _)⟩

end Dispatch

/-- With other stores, in which the continuations that were made last correspond. -/
abbrev Joint.capturing (J : Joint) (P : Place) (t t' : Store) (rehandled rehandled' : Bool) : Joint :=
  J.after P (J.names.withCont ⟨J.store.conts.size, rehandled⟩ ⟨J.store'.conts.size, rehandled'⟩) t t'

theorem Restacks.frames_last {s t : Store} {left frames : List Val} (h : Restacks s t m left (some frames)) (rehandled : Bool) :
    t.frames ⟨s.conts.size, rehandled⟩ = frames := by
  exact (h.sets.frames _).trans (if_pos rfl)

section Capturing

variable {t t' : Store} {left left' frames frames' : List Val} {P : Place} (W : Worlds J w w') (first : Captures w.store t m left frames)
  (second : Captures w'.store t' m' left' frames') (rehandled rehandled' : Bool)
  (slices : Topped J.names J.seam.relay (P = .slice J.store.conts.size) frames frames')

include W first second slices

/-- Continuations of what both machines have captured correspond. -/
theorem Worlds.makes_captured :
    J.Makes P (J.names.withCont ⟨J.store.conts.size, rehandled⟩ ⟨J.store'.conts.size, rehandled'⟩) t t' where
  le := J.names.le_withCont _ _
  gens := rfl
  new k l pair := by
    rcases pair with old | ⟨rfl, rfl⟩
    · exact .inl old
    · have frame := first.frames_last rehandled
      have frame' := second.frames_last rehandled'
      rw [W.store] at frame
      rw [W.store'] at frame'
      refine .inr ⟨rfl, rfl, W.store ▸ first.size, W.store' ▸ second.size, ?_, ?_⟩
      · rw [← W.store, ← W.store', first.pending, second.pending]
      · show Topped _ _ _ (t.frames _) (t'.frames _)
        rw [frame, frame']
        exact slices.mono (J.names.le_withCont _ _) id
  once k l i j pair pair' last _ last' _ := by
    have old {k l : Cont} (pair : J.names.conts k l) (last : k.index = J.store.conts.size) : False :=
      Nat.ne_of_lt (W.made pair).1 last
    rcases pair with pair | ⟨rfl, rfl⟩
    · exact (old pair last).elim
    · rcases pair' with pair | ⟨rfl, rfl⟩
      · exact (old pair last').elim
      · exact ⟨rfl, rfl⟩

/-- Both machines capture frames. -/
theorem Drives.captures (D : Drives J g m S h m' T tail) (busy : Busy w S g) (busy' : Busy w' T h) (moves : J.Moves (J.turns g) t P)
    (rests : J.place = .live → P = .live ∨
      g ≠ J.seam.relay ∧ P.Holds ∧ Relays (J.capturing P t t' rehandled rehandled') (w.status J.seam.relay)) :
    Worlds (J.capturing P t t' rehandled rehandled') { w with store := t } { w' with store := t' } ∧
      Drives (J.capturing P t t' rehandled rehandled') g m S h m' T tail := by
  have makes := W.makes_captured first second rehandled rehandled' slices
  have turns := D.turned W first.toRestacks second.toRestacks moves
  refine ⟨W.turn turns makes (D.busy W busy busy') fun live other => ?_,
    D.kept W busy first.toRestacks second.toRestacks moves makes.le fun live mine => ?_⟩
  · rcases rests live with live | ⟨-, holds, relays⟩
    · exact absurd live other
    · exact .inr (.inl ⟨holds, relays⟩)
  · rcases rests live with live | ⟨other, -⟩
    · exact live
    · exact absurd mine other

end Capturing

/-! ## What is brought -/

/-- The continuation of what is resent, which was taken. -/
inductive Brought (J : Joint) : Option Cont → Option Cont → Prop
  | none : Brought J none none
  | some {k l : Cont} (pair : J.names.conts k l) (slices : J.Slices (J.place = .flight) k l) : Brought J (some k) (some l)

theorem Topped.append (h : Topped N n here fs gs) {bs cs : List Val} (below : Spread N n there bs cs) (once : here → ¬there) :
    Topped N n (here ∨ there) (fs ++ bs) (gs ++ cs) := by
  cases h with
  | intro t u pair rest =>
      by_cases inside : here
      · exact .intro t u pair ((rest.append_frames (below.frames (once inside))).mono (le_refl _) .inl)
      · exact .intro t u pair (Spread.append (rest.frames inside) (below.mono (le_refl _) .inr))

/-- What is brought is captured above what is cut off. -/
theorem Brought.topped (h : Brought J inner inner') {as as' : List Val} (above : Topped J.names J.seam.relay here as as')
    (once : J.place = .flight → ¬here) : Topped J.names J.seam.relay (J.place = .flight ∨ here)
      (inner.elim [] J.store.frames ++ as) (inner'.elim [] J.store'.frames ++ as') := by
  cases h with
  | none => exact above.mono (le_refl _) .inr
  | some pair slices => exact Topped.append slices above.spread once

/-- The relay is found in what is captured if it was on the stack of the machine, or has been brought. -/
theorem Joint.captured {i : Nat} (J : Joint) (own : Nat → Prop) (moved : Prop) (allowed : moved → J.place = .flight ∨ J.place = .stack m)
    (runs : J.runs m = some i) (mine : own i) (t : Store) :
    ∃ P, (moved → P = .slice J.store.conts.size) ∧ (¬moved → P = J.place) ∧ J.Moves own t P := by
  by_cases here : moved
  · refine ⟨_, fun _ => rfl, fun other => absurd here other, .leaves ?_ (.inl trivial) (fun n j ran found => ?_) (fun j found => ?_)
      fun k l _ found => ?_⟩
    all_goals rcases allowed here with same | same
    · simp [same, Place.Holds]
    · simp [same, Place.Holds]
    · exact absurd (same.symm.trans found) (by simp)
    · cases same.symm.trans found
      cases ran.symm.trans runs
      exact mine
    all_goals exact absurd (same.symm.trans found) (by simp)
  · exact ⟨J.place, fun there => absurd there here, fun _ => rfl, .stays rfl⟩

section Dispatched

variable {as as' : Arguments} {v v' : Val} {e : Nat}

/-- Machines call a clause with what they have captured. -/
theorem Drives.calls_clause (D : Drives J g m S h m' T tail) (W : Worlds J w w') (stands : J.Stands m m' tail) (j : Nat) {k l : Cont}
    (pair : J.names.conts k l) (args : Forall₂ (Alike J.names) as.values as'.values) :
    Corresponds J.lone (Machine.turned w g m S (w.store, .ask (.call (function j) (.cont k :: as.values)) .calling))
      (Machine.turned w' h m' T (w'.store, .ask (.call (function j) (.cont l :: as'.values)) .calling)) :=
  .joint J W (D.waits (.calling stands) ⟨nofun, nofun⟩) (.call .machine (.function j) (.cons (.cont pair) args))

/-- Machines each with a generator of its own resend an invocation with all that they had. -/
theorem Drives.resends (D : Drives J g m S h m' T []) (W : Worlds J w w') (pair : J.names.gens g h) (empty : w.store.stack m = [])
    (empty' : w'.store.stack m' = []) {k l : Cont} (conts : J.names.conts k l) (pending : w.store.isTaken k = false)
    (heard : Heard S) (args : Forall₂ (Alike J.names) as.values as'.values) (place : Memo.placeOf v = Memo.placeOf v') (i i' : Nat) :
    Corresponds J.lone
      (Machine.turned w g m S (w.store, .ask (.yield (.resend i ⟨.effect (effect e), as, .cont k, v⟩) .inner) .resent))
      (Machine.turned w' h m' T (w'.store, .ask (.yield (.resend i' ⟨.effect (effect e), as', .cont l, v'⟩) .inner) .resent)) := by
  have suspended := W.setStatus pair (.suspended .inner (.resent D.runs.1 D.runs.2 (W.store ▸ empty) (W.store' ▸ empty')))
  exact .joint J suspended (D.layout W pair) (.reply (.resent i i' e args conts (W.store ▸ pending) place) fun _ _ => heard)

/-- Both machines answer an invocation by the clause of the handler that owns the effect. -/
theorem Drives.dispatches_found (D : Drives J g m S h m' T tail) (W : Worlds J w w') (busy : Busy w S g) (busy' : Busy w' T h)
    (brought : Brought J inner inner') (args : Forall₂ (Alike J.names) as.values as'.values)
    (proper : ∀ f ∈ w.store.stack m, f.Proper) (proper' : ∀ f ∈ w'.store.stack m', f.Proper) {slice slice' : Slice}
    (found : cut (effect e) (w.store.stack m) = some slice)
    (found' : cut (effect e) (w'.store.stack m') = some { slice' with below := slice'.below ++ tail })
    (alike : CutAlike J.names J.seam.relay (J.place = .stack m) (Topped J.names J.seam.relay) (some slice) (some slice')) :
    Corresponds J.lone (Machine.turned w g m S (dispatch w.store m (.effect (effect e)) as v inner))
      (Machine.turned w' h m' T (dispatch w'.store m' (.effect (effect e)) as' v' inner')) := by
  obtain ⟨t, same, first⟩ := dispatch_found W.own (W.runs _ _ D.runs.1) proper as v inner found
  obtain ⟨t', same', second⟩ := dispatch_found W.own' (W.runs' _ _ D.runs.2) proper' as' v' inner' found'
  rw [same, same']
  cases alike with
  | @found l j above above' left left' inside beneath allowed apart captured below =>
      obtain ⟨P, gone, stays, moves⟩ := J.captured (J.turns g) (J.place = .flight ∨ inside)
        (fun moved => moved.imp id fun here => allowed (.inl here)) D.runs.1 (.inl rfl) t
      have nowhere : J.place = .flight → ¬inside := fun flight here =>
        absurd (flight.symm.trans (allowed (.inl here))) nofun
      have slices : Topped J.names J.seam.relay (P = .slice J.store.conts.size) (inner.elim [] w.store.frames ++ above)
          (inner'.elim [] w'.store.frames ++ above') := by
        rw [W.store, W.store']
        exact (brought.topped captured nowhere).mono (le_refl _) gone
      obtain ⟨W', D'⟩ := D.captures W first second inner.isSome inner'.isSome slices busy busy' moves fun live => .inl (by
        refine (stays ?_).trans live
        rintro (flight | here)
        · exact absurd (live.symm.trans flight) nofun
        · exact absurd (live.symm.trans (allowed (.inl here))) nofun)
      have grown := J.names.le_withCont ⟨J.store.conts.size, inner.isSome⟩ ⟨J.store'.conts.size, inner'.isSome⟩
      refine D'.calls_clause W' ⟨_, second.sets.stack_eq, ?_⟩ j (.inr ⟨by rw [W.store], by rw [W.store']⟩) (alike_mono args grown)
      show Spread _ _ _ (t.stack m) _
      rw [first.sets.stack_eq]
      refine below.mono grown fun here => ?_
      have stack := allowed (.inr here)
      refine (stays ?_).trans stack
      rintro (flight | there)
      · exact absurd (flight.symm.trans stack) nofun
      · exact apart ⟨there, here⟩

/-- Both machines resend an invocation that no handler owns. -/
theorem Drives.dispatches_outward (D : Drives J g m S h m' T []) (W : Worlds J w w') (busy : Busy w S g) (busy' : Busy w' T h)
    (pair : J.names.gens g h) (heard : Heard S) (brought : Brought J inner inner')
    (args : Forall₂ (Alike J.names) as.values as'.values) (place : Memo.placeOf v = Memo.placeOf v')
    (proper : ∀ f ∈ w.store.stack m, f.Proper) (proper' : ∀ f ∈ w'.store.stack m', f.Proper)
    (topped : Topped J.names J.seam.relay (J.place = .stack m) (w.store.stack m) (w'.store.stack m'))
    (free : cut (effect e) (w.store.stack m) = none) (free' : cut (effect e) (w'.store.stack m') = none) :
    Corresponds J.lone (Machine.turned w g m S (dispatch w.store m (.effect (effect e)) as v inner))
      (Machine.turned w' h m' T (dispatch w'.store m' (.effect (effect e)) as' v' inner')) := by
  obtain ⟨t, i, same, first⟩ := dispatch_resends W.own (W.runs _ _ D.runs.1) proper as v inner free
  obtain ⟨t', i', same', second⟩ := dispatch_resends W.own' (W.runs' _ _ D.runs.2) proper' as' v' inner' free'
  rw [same, same']
  obtain ⟨P, gone, stays, moves⟩ := J.captured (J.turns g) (J.place = .flight ∨ J.place = .stack m) id D.runs.1 (.inl rfl) t
  have slices : Topped J.names J.seam.relay (P = .slice J.store.conts.size) (inner.elim [] w.store.frames ++ w.store.stack m)
      (inner'.elim [] w'.store.frames ++ w'.store.stack m') := by
    refine Topped.mono ?_ (le_refl _) gone
    have captured := brought.topped topped fun flight stack => absurd (flight.symm.trans stack) nofun
    rwa [← W.store, ← W.store'] at captured
  obtain ⟨W', D'⟩ := D.captures W first second inner.isSome inner'.isSome slices busy busy' moves fun live => .inl (by
    refine (stays ?_).trans live
    rintro (flight | here)
    · exact absurd (live.symm.trans flight) nofun
    · exact absurd (live.symm.trans here) nofun)
  have grown := J.names.le_withCont ⟨J.store.conts.size, inner.isSome⟩ ⟨J.store'.conts.size, inner'.isSome⟩
  exact D'.resends W' pair first.sets.stack_eq second.sets.stack_eq (.inr ⟨by rw [W.store], by rw [W.store']⟩)
    (first.pending _) heard (alike_mono args grown) place i i'

/-! ## What the upper machine resends -/

theorem take_pending {s : Store} {k : Cont} (pending : s.isTaken k = false) : s.take k = ((s.take k).1, true) :=
  Prod.ext rfl (by rw [Store.take_snd, pending]; rfl)

/-- The lower machine takes the continuation of what the upper one resends, and dispatches in its turn. -/
theorem step_resent {t : Store} {k : Cont} (pending : t.isTaken k = false) (i : Nat) :
    Config.step (Machine.turned w g m (.running h (machine m' (.advancing (.gen g))) :: S)
      (t, .ask (.yield (.resend i ⟨.effect (effect e), as, .cont k, v⟩) .inner) .resent)) =
      .ok (Machine.turned (World.setStatus { w with store := (t.take k).1 } g (.suspended (machine m .resent) .inner)) h m' S
        (dispatch (t.take k).1 m' (.effect (effect e)) as v (some k))) := by
  show Config.step ⟨_, Machine.activation h m' (.advancing (.gen g)) :: S, _⟩ = _
  refine (Machine.step_activation _ _ _ _ _ _).trans ?_
  simp only [Machine.step, Machine.receive, World.setStatus]
  rw [take_pending pending]
  rfl

/-- The world in which it was taken, and the upper machine waits for a reply. -/
abbrev Joint.resent (J : Joint) (w : World (guest c)) (u : Store) : World (guest c) :=
  World.setStatus { w with store := u } J.seam.relay (.suspended (machine J.seam.inner .resent) .inner)

section Below

variable {u t t' : Store} {left left' frames frames' fs gs : List Val} {tag : Tag} (W : Worlds J w w') (splits : Splits J tail)
  (heard : Heard S) (layout : Stacks J S T)
  (busy : Busy w (.running J.seam.nested (machine J.seam.outer (.advancing (.gen J.seam.relay))) :: S) J.seam.relay)
  (busy' : Busy w' T J.seam.flat) (taken : Restacks w.store u J.seam.inner [] (some frames))

include W splits heard layout busy busy' taken

/-- The lower machine goes on with the one that has all. -/
theorem Worlds.resent : Worlds (J.on u w'.store) (J.resent w u) w' ∧
    Drives (J.on u w'.store) J.seam.nested J.seam.outer S J.seam.flat J.seam.whole T [] := by
  have D := Drives.split splits heard layout
  obtain ⟨W₁, D₁⟩ := D.sets W busy busy' taken (.refl W.own' _) (.stays rfl) .inl
  obtain ⟨S₀, below, -, -, -, splits₁, heard₁, layout₁⟩ := D₁.above W₁ splits.live rfl
  obtain ⟨-, rfl⟩ := List.cons.inj below
  refine ⟨W₁.setRelay (.suspended (machine J.seam.inner .resent) .inner) ?_ (fun _ => busy.beneath List.mem_cons_self) ?_ ?_,
    .joined splits₁.pair splits₁.outer splits₁.whole heard₁ layout₁⟩
  all_goals simp [Joint.after, splits.live, Place.Holds]

/-- It captures what it has taken together with frames of its own, and the one with all captures both. -/
theorem Worlds.captures_below (rehandled rehandled' : Bool) (slices : Topped J.names J.seam.relay False frames frames')
    (first : Captures u t J.seam.outer left (frames ++ genFrame J.seam.relay tag :: fs))
    (second : Captures w'.store t' J.seam.whole left' (frames' ++ gs)) (alike : Forall₂ (FrameAlike J.names) fs gs) :
    Worlds ((J.on u w'.store).capturing (.slice u.conts.size) t t' rehandled rehandled')
        { J.resent w u with store := t } { w' with store := t' } ∧
      Drives ((J.on u w'.store).capturing (.slice u.conts.size) t t' rehandled rehandled')
        J.seam.nested J.seam.outer S J.seam.flat J.seam.whole T [] := by
  obtain ⟨W₂, D₂⟩ := W.resent splits heard layout busy busy' taken
  have waits : (J.resent w u).status J.seam.relay = .suspended (machine J.seam.inner .resent) .inner :=
    World.status_setStatus (W.relay (by simp [splits.live])).1 _
  have empty : t.stack J.seam.inner = [] := (first.sets.others _ (splits.machines W).symm).trans taken.sets.stack_eq
  have apart := Drives.apart_relay W splits.pair splits.live
  have whole := slices.append (.relay tag trivial alike) False.elim
  exact D₂.captures W₂ first second rehandled rehandled' (whole.mono (le_refl _) fun _ => rfl) (Running.pop busy (by simp)) busy'
    (.settles splits.live (by simp) (.inl rfl))
    fun _ => .inr ⟨apart, trivial, waits, splits.inner, empty⟩

/-- The lower machine dispatches what the upper one had no handler for. -/
theorem Worlds.dispatches_resent (rehandled : Bool) (slices : Topped J.names J.seam.relay False frames
      (inner'.elim [] w'.store.frames ++ frames')) (args : Forall₂ (Alike J.names) as.values as'.values)
    (place : Memo.placeOf v = Memo.placeOf v') (proper : ∀ f ∈ w'.store.stack J.seam.whole, f.Proper)
    (stack : w'.store.stack J.seam.whole = frames' ++ tail) (free : cut (effect e) frames' = none) :
    Corresponds J.lone
      (Machine.turned (J.resent w u) J.seam.nested J.seam.outer S
        (dispatch u J.seam.outer (.effect (effect e)) as v (some ⟨w.store.conts.size, rehandled⟩)))
      (Machine.turned w' J.seam.flat J.seam.whole T (dispatch w'.store J.seam.whole (.effect (effect e)) as' v' inner')) := by
  obtain ⟨tag, lower, below, alike⟩ := splits.below
  have lowers : Spread J.names J.seam.relay False lower tail := .of_frames alike
  have stack₁ : u.stack J.seam.outer = genFrame J.seam.relay tag :: lower := by
    rw [taken.sets.others _ (splits.machines W), W.store, below]
  have proper₁ : ∀ f ∈ u.stack J.seam.outer, f.Proper := by
    rw [stack₁]
    simpa using ⟨.generator _ tag, lowers.proper.1⟩
  have made : J.seam.outer < u.machines.size := taken.sets.size ▸ W.runs _ _ splits.outer
  have cutting : cut (effect e) (u.stack J.seam.outer) =
      (cut (effect e) lower).map fun c => { c with frames := genFrame J.seam.relay tag :: c.frames } := by
    rw [stack₁, cut_genFrame]
  have cutting' : cut (effect e) (w'.store.stack J.seam.whole) =
      (cut (effect e) tail).map fun c => { c with frames := frames' ++ c.frames } := by
    rw [stack, cut_append, free]
  have found := lowers.cut e
  have grown := J.names.le_withCont ⟨u.conts.size, true⟩ ⟨w'.store.conts.size, inner'.isSome⟩
  generalize cut (effect e) lower = r at found cutting
  generalize cut (effect e) tail = r' at found cutting'
  cases found with
  | none =>
      obtain ⟨t, i, same, first⟩ := dispatch_resends taken.sets.own made proper₁ as v (some ⟨w.store.conts.size, rehandled⟩) cutting
      obtain ⟨t', i', same', second⟩ := dispatch_resends W.own' (W.runs' _ _ splits.whole) proper as' v' inner' cutting'
      rw [same, same']
      rw [stack₁, Option.elim_some, taken.frames_last] at first
      rw [stack, ← List.append_assoc] at second
      obtain ⟨W₃, D₃⟩ := W.captures_below splits heard layout busy busy' taken true inner'.isSome slices first second alike
      exact D₃.resends W₃ splits.pair first.sets.stack_eq second.sets.stack_eq (.inr ⟨rfl, rfl⟩) (first.pending _) heard
        (alike_mono args grown) place i i'
  | @found l j above above' left left' inside beneath never apart captured below =>
      obtain ⟨t, same, first⟩ := dispatch_found taken.sets.own made proper₁ as v (some ⟨w.store.conts.size, rehandled⟩) cutting
      obtain ⟨t', same', second⟩ := dispatch_found W.own' (W.runs' _ _ splits.whole) proper as' v' inner' cutting'
      rw [same, same']
      rw [Option.elim_some, taken.frames_last] at first
      rw [← List.append_assoc] at second
      obtain ⟨W₃, D₃⟩ := W.captures_below splits heard layout busy busy' taken true inner'.isSome slices first second
        (captured.frames fun here => never (.inl here))
      refine D₃.calls_clause W₃ ⟨left', ?_, ?_⟩ j (.inr ⟨rfl, rfl⟩) (alike_mono args grown)
      · exact second.sets.stack_eq.trans (List.append_nil _).symm
      · show Spread _ _ _ (t.stack _) _
        rw [first.sets.stack_eq]
        exact below.mono grown fun here => (never (.inr here)).elim

end Below

/-- An invocation that the upper machine has no handler for. -/
theorem Worlds.dispatches_below (W : Worlds J w w') (splits : Splits J tail) (heard : Heard S) (layout : Stacks J S T)
    (busy : Busy w (.running J.seam.nested (machine J.seam.outer (.advancing (.gen J.seam.relay))) :: S) J.seam.relay)
    (busy' : Busy w' T J.seam.flat) (brought : Brought J inner inner') (args : Forall₂ (Alike J.names) as.values as'.values)
    (place : Memo.placeOf v = Memo.placeOf v') (proper : ∀ f ∈ w.store.stack J.seam.inner, f.Proper)
    (proper' : ∀ f ∈ w'.store.stack J.seam.whole, f.Proper) {gs : List Val} (stack' : w'.store.stack J.seam.whole = gs ++ tail)
    (topped : Topped J.names J.seam.relay (J.place = .stack J.seam.inner) (w.store.stack J.seam.inner) gs)
    (free : cut (effect e) (w.store.stack J.seam.inner) = none) (free' : cut (effect e) gs = none) :
    Meets J.lone
      (Machine.turned w J.seam.relay J.seam.inner
        (.running J.seam.nested (machine J.seam.outer (.advancing (.gen J.seam.relay))) :: S)
        (dispatch w.store J.seam.inner (.effect (effect e)) as v inner))
      (Machine.turned w' J.seam.flat J.seam.whole T (dispatch w'.store J.seam.whole (.effect (effect e)) as' v' inner')) := by
  obtain ⟨t, i, same, first⟩ := dispatch_resends W.own (W.runs _ _ splits.inner) proper as v inner free
  have nowhere : ¬(J.place = .flight ∨ J.place = .stack J.seam.inner) := by simp [splits.live]
  have slices : Topped J.names J.seam.relay False (inner.elim [] w.store.frames ++ w.store.stack J.seam.inner)
      (inner'.elim [] w'.store.frames ++ gs) := by
    have captured := brought.topped topped (by simp [splits.live])
    rw [← W.store, ← W.store'] at captured
    exact captured.mono (le_refl _) nowhere
  have taken := first.toRestacks.take (k := ⟨w.store.conts.size, inner.isSome⟩) (Nat.le_refl _)
  rw [same]
  refine Meets.before (fun alone => ?_) (.one (step_resent (first.pending _) i)) (.refl _) (Corresponds.meets ?_)
  · simpa [splits.live] using W.lone alone
  · exact W.dispatches_resent splits heard layout busy busy' taken inner.isSome slices args place proper' stack' free'

/-- What is below the upper machine is made of frames. -/
theorem Drives.proper_tail (D : Drives J g m S h m' T tail) : ∀ f ∈ tail, f.Proper := by
  cases D with
  | joined pair runs runs' heard rest => simp
  | split splits heard rest =>
      obtain ⟨t, fs, stack, below⟩ := splits.below
      exact (Spread.of_frames below : Spread J.names J.seam.relay False fs _).proper.2

/-- An invocation is dispatched by machines that go together. -/
theorem Drives.dispatches (D : Drives J g m S h m' T tail) (W : Worlds J w w') (busy : Busy w S g) (busy' : Busy w' T h)
    (tops : J.Tops m m' tail) (brought : Brought J inner inner') (e : Nat) (args : Forall₂ (Alike J.names) as.values as'.values)
    (place : Memo.placeOf v = Memo.placeOf v') :
    Meets J.lone (Machine.turned w g m S (dispatch w.store m (.effect (effect e)) as v inner))
      (Machine.turned w' h m' T (dispatch w'.store m' (.effect (effect e)) as' v' inner')) := by
  obtain ⟨gs, stack', topped⟩ := tops
  rw [← W.store] at topped
  rw [← W.store'] at stack'
  have proper := topped.spread.proper
  have proper' : ∀ f ∈ w'.store.stack m', f.Proper := by
    rw [stack']
    exact fun f mem => (List.mem_append.1 mem).elim (proper.2 f) (D.proper_tail f)
  have alike := topped.cut e
  have below := cut_append (effect e) gs tail
  generalize found : cut (effect e) (w.store.stack m) = r at alike
  generalize found' : cut (effect e) gs = r' at alike below
  cases alike with
  | none =>
      cases D with
      | joined pair runs runs' heard rest =>
          rw [List.append_nil] at stack'
          exact ((Drives.joined pair runs runs' heard rest).dispatches_outward W busy busy' pair heard brought args place proper.1
            proper' (stack'.symm ▸ topped) found (stack'.symm ▸ found')).meets
      | split splits heard rest =>
          exact W.dispatches_below splits heard rest busy busy' brought args place proper.1 proper' stack' topped found found'
  | found l j inside beneath allowed apart captured left =>
      exact (D.dispatches_found W busy busy' brought args proper.1 proper' found (stack'.symm ▸ below)
        (.found l j inside beneath allowed apart captured left)).meets

end Dispatched

end OneShot.Split
