import Mathlib.Data.List.Forall2
import OneShot.Proofs.Frames.Nesting

/-!
# The way of an effect through nested handlers

The machine of the innermost handler captures its stack when the computation performs an
effect that the handler does not own, and resends it; each machine further out puts its
stack beneath what was captured before, until one finds an owner.  So there is one
continuation for each handler on the way, each around the one before, and only the last
one is left to be resumed.
-/

namespace OneShot

open Config (Reaches)

variable {G : Guest} {g : Gen} {t : Tier} {ts us vs : List Tier} {s u : Store} {e : Effect} {i : Invocation}

/-! ## What is captured on the way -/

/-- The continuations that are made one after the other: all but the first continue a resend. -/
def contAt (base n : Nat) : Cont := ⟨base + n, decide (0 < n)⟩

/-- The continuation that the next one is around. -/
def innerAt (base : Nat) : Nat → Option Cont
  | 0 => none
  | n + 1 => some (contAt base n)

/--
The continuations that were made on the way through some tiers: the stacks of all tiers so
far are in each.  All but the last one are taken.
-/
structure Gathers (s u : Store) (g : Gen) (ts : List Tier) (last : Bool) : Prop where
  size : u.conts.size = s.conts.size + ts.length
  old : ∀ n < s.conts.size, u.conts[n]? = s.conts[n]?
  new : ∀ n < ts.length, u.conts[s.conts.size + n]? =
    some ⟨gathered g (ts.take (n + 1)), (innerAt s.conts.size n).map .cont, decide (n + 1 < ts.length) || last⟩

namespace Gathers

theorem nil (s : Store) (g : Gen) (last : Bool) : Gathers s s g [] last := ⟨rfl, fun _ _ => rfl, by simp⟩

theorem of_conts {u' : Store} {last : Bool} (h : Gathers s u g ts last) (same : u'.conts = u.conts) :
    Gathers s u' g ts last := by
  obtain ⟨size, old, new⟩ := h
  rw [← same] at size old new
  exact ⟨size, old, new⟩

/-- The continuation that was made last. -/
theorem last {h : Gen} {last : Bool} (gathers : Gathers s u h (us ++ [t]) last) :
    u.conts[(contAt s.conts.size us.length).index]? =
      some ⟨gathered h (us ++ [t]), (innerAt s.conts.size us.length).map .cont, last⟩ := by
  have here := gathers.new us.length (by simp)
  have whole : (us ++ [t]).take (us.length + 1) = us ++ [t] := List.take_of_length_le (by simp)
  simpa [contAt, whole] using here

theorem take (gathers : Gathers s u g (us ++ [t]) false) :
    u.take (contAt s.conts.size us.length) = ((u.take (contAt s.conts.size us.length)).1, true) ∧
      Gathers s (u.take (contAt s.conts.size us.length)).1 g (us ++ [t]) true := by
  have here := gathers.last
  refine ⟨Prod.ext rfl (Store.conts_take here).1, (Store.size_take _ _).trans gathers.size, fun n old => ?_, fun n new => ?_⟩
  · have other : (contAt s.conts.size us.length).index ≠ n := by simp only [contAt]; omega
    rw [← gathers.old n old]
    simp [Store.take, Store.isTaken, here, Array.getElem?_modify, other]
  · by_cases final : n = us.length
    · subst final
      have whole : (us ++ [t]).take (us.length + 1) = us ++ [t] := List.take_of_length_le (by simp)
      simpa [contAt, whole] using (Store.conts_take here).2
    · have inner : n + 1 < (us ++ [t]).length := by simp at new ⊢; omega
      have other : (contAt s.conts.size us.length).index ≠ s.conts.size + n := by simp only [contAt]; omega
      have kept := gathers.new n new
      simp only [inner, decide_true, Bool.true_or] at kept ⊢
      rw [← kept]
      simp [Store.take, Store.isTaken, here, Array.getElem?_modify, other]

/-- One more stack is captured, beneath those before. -/
theorem concat (gathers : Gathers s u g us true) (t : Tier) :
    Gathers s (u.newCont (gathered g (us ++ [t])) ((innerAt s.conts.size us.length).map .cont)).1 g (us ++ [t]) false := by
  refine ⟨?_, fun n old => ?_, fun n new => ?_⟩
  · simp [Store.newCont, gathers.size, Nat.add_assoc]
  · have other : n ≠ u.conts.size := by rw [gathers.size]; omega
    rw [← gathers.old n old]
    simp [Store.newCont, Array.getElem?_push, other]
  · by_cases final : n = us.length
    · subst final
      have whole : (us ++ [t]).take (us.length + 1) = us ++ [t] := List.take_of_length_le (by simp)
      have here : s.conts.size + us.length = u.conts.size := gathers.size.symm
      simp [Store.newCont, here, whole]
    · have inner : n < us.length := by simp at new; omega
      have more : n + 1 < (us ++ [t]).length := by simp; omega
      have other : s.conts.size + n ≠ u.conts.size := by rw [gathers.size]; omega
      have kept := gathers.new n inner
      have same : (us ++ [t]).take (n + 1) = us.take (n + 1) := List.take_append_of_le_length (by omega)
      simp only [Bool.or_true] at kept
      simp only [more, decide_true, Bool.true_or, same]
      rw [← kept]
      simp [Store.newCont, Array.getElem?_push, other]

end Gathers

/-! ## What is logged on the way -/

/-- A store in which things are shown as before, but for continuations that are new. -/
structure Store.Alike (s u : Store) : Prop where
  lists : u.lists = s.lists
  tables : u.tables = s.tables
  owners : u.owner = s.owner
  settings : u.settings = s.settings
  conts : ∀ n < s.conts.size, u.conts[n]? = s.conts[n]?

theorem Store.Alike.note (alike : s.Alike u) (source : Source) (text : Unit → String) : s.Alike (u.note source text) := by
  unfold Store.note
  split
  · exact ⟨alike.lists, alike.tables, alike.owners, alike.settings, alike.conts⟩
  · exact alike

theorem Store.owner_setStack (u : Store) (m : Nat) (frames : List Val) : (u.setStack m frames).owner = u.owner := by
  funext n
  unfold Store.setStack
  split
  · rfl
  · rfl
  · simp only [Store.owner, Array.getElem?_modify]
    split
    · cases u.machines[n]? <;> rfl
    · rfl

theorem Store.Alike.setStack (alike : s.Alike u) {m : Nat} {old : List Val} {owner : Val}
    (there : u.machines[m]? = some ⟨.own old, owner⟩) (frames : List Val) : s.Alike (u.setStack m frames) := by
  have set : u.setStack m frames =
      { u with machines := u.machines.modify m fun r => { r with stack := .own frames } } := by
    simp [Store.setStack, there]
  have owners := (owner_setStack u m frames).trans alike.owners
  rw [set] at owners ⊢
  exact ⟨alike.lists, alike.tables, owners, alike.settings, alike.conts⟩

theorem Store.Alike.newCont (alike : s.Alike u) (frames : List Val) (inner : Option Val) :
    s.Alike (u.newCont frames inner).1 := by
  refine ⟨alike.lists, alike.tables, alike.owners, alike.settings, fun n old => ?_⟩
  have known := (alike.conts n old).trans (Array.getElem?_eq_getElem old)
  have other : n ≠ u.conts.size := Nat.ne_of_lt (Array.getElem?_eq_some_iff.1 known).1
  rw [← alike.conts n old]
  simp [Store.newCont, Array.getElem?_push, other]

/-- The records of some texts, each as it was shown when it was made, for whoever listens to the engine. -/
def Noted (s u : Store) (lines : List (Store → String)) : Prop :=
  ∃ texts, List.Forall₂ (fun line text => ∃ v, s.Alike v ∧ text = line v) lines texts ∧
    u.events = (if s.settings.hears .handler then (texts.map (Event.log .handler)).reverse else []) ++ s.events

theorem Noted.nil (s : Store) : Noted s s [] := ⟨[], .nil, by simp⟩

theorem Noted.of_events {u' : Store} {lines : List (Store → String)} (noted : Noted s u lines)
    (same : u'.events = u.events) : Noted s u' lines := by
  obtain ⟨texts, shown, events⟩ := noted
  exact ⟨texts, shown, same.trans events⟩

theorem Noted.note {lines : List (Store → String)} (noted : Noted s u lines) (alike : s.Alike u)
    (line : Store → String) : Noted s (u.note .handler fun _ => line u) (lines ++ [line]) := by
  obtain ⟨texts, shown, events⟩ := noted
  refine ⟨texts ++ [line u], List.rel_append shown (.cons ⟨u, alike, rfl⟩ .nil), ?_⟩
  unfold Store.note
  rw [alike.settings]
  split <;> rename_i hears <;> simp [hears, Store.emit, events]

/-- What a machine says of an effect that it resends; `s` shows it. -/
def Tier.resends (t : Tier) (e : Effect) (s : Store) : String :=
  s.repr (.machine t.machine) ++ " resends " ++ s.str (.effect e)

/-- What a machine says of an effect that was resent to it, and that it passes on. -/
def Tier.passes (t : Tier) (e : Effect) (s : Store) : String :=
  s.repr (.machine t.machine) ++ " passes resent " ++ s.str (.effect e) ++ " outward"

/-- What a machine says whose handler owns the effect, which may have been resent. -/
def Handler.answers (h : Handler) (e : Effect) (resent : Bool) (s : Store) : String :=
  s.repr (.handler h) ++ (if resent then " handles resent " else " handles ") ++ s.str (.effect e)

/-- What is said on the way out through some tiers. -/
def outward (e : Effect) : List Tier → List (Store → String)
  | [] => []
  | t :: ts => t.resends e :: ts.map fun u => u.passes e

theorem outward_concat (e : Effect) (us : List Tier) (t : Tier) :
    outward e (us ++ [t]) = outward e us ++ [if us = [] then t.resends e else t.passes e] := by
  cases us <;> simp [outward]

/-! ## One machine on the way -/

/-- What reaches the next tier: the invocation, or a resend of it. -/
inductive Passed (base : Nat) (i : Invocation) : List Tier → Val → Prop
  | nil (id : Nat) : Passed base i [] (.invocation id i)
  | concat (id : Nat) (us : List Tier) (t : Tier) :
      Passed base i (us ++ [t]) (.resend id ⟨i.effect, i.args, .cont (contAt base us.length), i.context⟩)

theorem Passed.of_concat {base : Nat} {op : Val} (passed : Passed base i (us ++ [t]) op) :
    ∃ id, op = .resend id ⟨i.effect, i.args, .cont (contAt base us.length), i.context⟩ := by
  generalize same : us ++ [t] = vs at passed
  cases passed with
  | nil id => simp at same
  | concat id vs v =>
      obtain ⟨rfl, -⟩ := List.append_inj' same rfl
      exact ⟨id, rfl⟩

/-- The store when an effect has passed some tiers. -/
structure Forwarded (s u : Store) (g : Gen) (e : Effect) (us : List Tier) (last : Bool) : Prop where
  gathers : Gathers s u g us last
  noted : Noted s u (outward e us)
  alike : s.Alike u
  machines : ∀ m, m ∉ us.map Tier.machine → u.machines[m]? = s.machines[m]?

namespace Tier

theorem searchFault?_frames (t : Tier) (e : Effect) (g : Gen) : searchFault? (.effect e) (t.frames g) = none := by
  obtain ⟨m, h, under, layer⟩ := t
  cases layer with
  | none => rfl
  | some l =>
      have hashable : Store.unhashable? (.effect e) = none := rfl
      simp [frames, frame?, searchFault?, hashable]

theorem cut_frames_of_none (none : t.clause? e = none) (g : Gen) : cut e (t.frames g) = Option.none := by
  obtain ⟨m, h, under, layer⟩ := t
  cases layer with
  | none => rfl
  | some l =>
      have free : l.1.clause? e = Option.none := none
      simp [frames, frame?, cut, free]

theorem cut_frames_of_some {f : Val} (owns : t.clause? e = some f) (g : Gen) :
    ∃ h tag, t.layer = some (h, tag) ∧ h.clause? e = some f ∧ cut e (t.frames g) = some ⟨t.frames g, h, f, []⟩ := by
  obtain ⟨m, k, under, layer⟩ := t
  cases layer with
  | none => cases owns
  | some l =>
      have clause : l.1.clause? e = some f := owns
      exact ⟨l.1, l.2, rfl, clause, by simp [frames, frame?, cut, clause]⟩

end Tier

namespace Forwarded

/-- The store in which a machine has captured its stack, which is empty then. -/
def captured (u : Store) (m base : Nat) (g : Gen) (us : List Tier) (t : Tier) : Store :=
  ((u.setStack m []).newCont (gathered g (us ++ [t])) ((innerAt base us.length).map .cont)).1

theorem isSome_innerAt (base n : Nat) : (innerAt base n).isSome = decide (0 < n) := by
  cases n <;> simp [innerAt]

section

variable (passes : Forwarded s u g e us true) (there : u.machines[t.machine]? = some ⟨.own (t.frames (whole g us)), t.owner⟩)

include passes there

theorem alike_captured : s.Alike (captured u t.machine s.conts.size g us t) :=
  (passes.alike.setStack there []).newCont _ _

omit there in
/-- What was captured before comes with the stack of the machine. -/
theorem capture_eq (t : Tier) : Machine.capture (u.setStack t.machine []) (t.frames (whole g us)) (innerAt s.conts.size us.length) =
    (captured u t.machine s.conts.size g us t, contAt s.conts.size us.length) := by
  have before : (innerAt s.conts.size us.length).elim [] u.frames = gathered g us := by
    cases us using List.reverseRecOn with
    | nil => rfl
    | append_singleton us v =>
        have here := passes.gathers.last
        rw [List.length_append, List.length_singleton]
        simp only [innerAt, Option.elim, Store.frames, here, Option.map_some, Option.getD_some]
  have size : (u.setStack t.machine []).conts.size = s.conts.size + us.length := by
    rw [Machine.conts_setStack, passes.gathers.size]
  rw [Machine.conts_setStack] at size
  unfold Machine.capture captured
  rw [Machine.frames_setStack, before, gathered_concat]
  refine Prod.ext rfl ?_
  simp [Store.newCont, contAt, size, isSome_innerAt]

theorem events_captured : Noted s (captured u t.machine s.conts.size g us t) (outward e us) := by
  refine passes.noted.of_events ?_
  simp [captured, Store.newCont, Store.setStack, there]

omit there in
theorem machines_captured {m : Nat} (out : m ∉ (us ++ [t]).map Tier.machine) :
    (captured u t.machine s.conts.size g us t).machines[m]? = s.machines[m]? := by
  simp only [List.map_append, List.mem_append, not_or, List.map_cons, List.map_nil, List.mem_singleton] at out
  rw [← passes.machines m out.1]
  exact Store.getElem?_machines_setStack out.2 []

omit there in
theorem gathers_captured (t : Tier) : Gathers s (captured u t.machine s.conts.size g us t) g (us ++ [t]) false :=
  (passes.gathers.of_conts (Machine.conts_setStack u t.machine [])).concat t

/-- A machine that does not own the effect resends it together with its stack. -/
theorem dispatch_outward (free : t.clause? e = none) (args : Arguments) (context : Val) :
    ∃ u' id, Machine.dispatch u t.machine (.effect e) args context (innerAt s.conts.size us.length) =
      (u', .ask (.yield (.resend id ⟨.effect e, args, .cont (contAt s.conts.size us.length), context⟩) .inner) .resent) ∧
      Forwarded s u' g e (us ++ [t]) false := by
  have stack : u.stack t.machine = t.frames (whole g us) := Store.stack_of_own there
  let after := captured u t.machine s.conts.size g us t
  let line := if us = [] then t.resends e else t.passes e
  let noted := after.note .handler fun _ => line after
  have said : Noted s noted (outward e (us ++ [t])) := by
    rw [outward_concat]
    exact (passes.events_captured there).note (passes.alike_captured there) line
  have quiet : Store.Quietly after noted.freshId.1 := (Store.Quietly.note _ _ _).trans (.freshId _)
  refine ⟨noted.freshId.1, noted.freshId.2, ?_, ?_⟩
  · unfold Machine.dispatch
    simp only [stack, t.searchFault?_frames, Tier.cut_frames_of_none free, passes.capture_eq]
    cases us <;> rfl
  · have alike := (passes.alike_captured there).note .handler fun _ => line after
    refine ⟨(passes.gathers_captured t).of_conts (Store.conts_of_engine quiet.engine), said,
      ⟨alike.lists, alike.tables, alike.owners, alike.settings, alike.conts⟩, fun m out => ?_⟩
    rw [Store.machines_of_engine quiet.engine]
    exact passes.machines_captured out

/-- A machine that owns the effect calls its clause. -/
theorem dispatch_owner {f : Val} (owns : t.clause? e = some f) (args : Arguments) (context : Val) :
    ∃ u' h tag, t.layer = some (h, tag) ∧
      Machine.dispatch u t.machine (.effect e) args context (innerAt s.conts.size us.length) =
        (u', .ask (.call f (.cont (contAt s.conts.size us.length) :: args.values)) .calling) ∧
      Gathers s u' g (us ++ [t]) false ∧ Noted s u' (outward e us ++ [h.answers e (!us.isEmpty)]) := by
  have stack : u.stack t.machine = t.frames (whole g us) := Store.stack_of_own there
  obtain ⟨h, tag, layer, clause, cut⟩ := Tier.cut_frames_of_some owns (whole g us)
  let after := captured u t.machine s.conts.size g us t
  let noted := after.note .handler fun _ => h.answers e (!us.isEmpty) after
  have said : Noted s noted (outward e us ++ [h.answers e (!us.isEmpty)]) :=
    (passes.events_captured there).note (passes.alike_captured there) _
  have quiet : Store.Quietly after noted := .note _ _ _
  refine ⟨noted, h, tag, layer, ?_, (passes.gathers_captured t).of_conts (Store.conts_of_engine quiet.engine), said⟩
  unfold Machine.dispatch
  simp only [stack, t.searchFault?_frames, cut, passes.capture_eq]
  cases us <;> rfl

end

/-- What a machine receives on the way is dispatched, when the continuation that came with it is taken. -/
theorem receive_eq (passes : Forwarded s u g e us false) {op : Val} (passed : Passed s.conts.size i us op) (m : Nat)
    (content : Val) : ∃ u', Forwarded s u' g e us true ∧ u'.machines = u.machines ∧
      Machine.receive u m content op = Machine.dispatch u' m i.effect i.args i.context (innerAt s.conts.size us.length) := by
  obtain ⟨gathers, noted, alike, machines⟩ := passes
  cases passed with
  | nil id => exact ⟨u, ⟨⟨gathers.size, gathers.old, by simp⟩, noted, alike, machines⟩, rfl, rfl⟩
  | concat id us v =>
      obtain ⟨took, gathers'⟩ := gathers.take
      have pending : u.isTaken (contAt s.conts.size us.length) = false := by
        simpa using congrArg Prod.snd took
      have fields : (u.take (contAt s.conts.size us.length)).1 =
          { u with conts := (u.take (contAt s.conts.size us.length)).1.conts } := by simp [Store.take, pending]
      refine ⟨_, ⟨gathers', noted.of_events (by rw [fields]), ⟨?_, ?_, ?_, ?_, gathers'.old⟩, fun m out => ?_⟩,
        Store.machines_take _ _, ?_⟩
      · rw [fields]; exact alike.lists
      · rw [fields]; exact alike.tables
      · rw [fields]; exact alike.owners
      · rw [fields]; exact alike.settings
      · rw [Store.machines_take]; exact machines m out
      · simp only [Machine.receive]
        rw [took]
        simp [innerAt]

/-- The machine of a tier that does not own the effect passes it on. -/
theorem hop {w : World G} (passes : Forwarded s w.store g e us false) {op : Val} (passed : Passed s.conts.size i us op)
    (effect : i.effect = .effect e) (free : t.clause? e = none)
    (there : w.store.machines[t.machine]? = some ⟨.own (t.frames (whole g us)), t.owner⟩) (B : List (Activation G)) :
    ∃ w' op', Config.step ⟨w, t.waits (whole g us) :: B, .reply (.yielded op)⟩ = .ok ⟨w', B, .reply (.yielded op')⟩ ∧
      Passed s.conts.size i (us ++ [t]) op' ∧ Forwarded s w'.store g e (us ++ [t]) false := by
  obtain ⟨u, passes', machines, received⟩ := passes.receive_eq passed t.machine (.gen (whole g us))
  obtain ⟨u', id, dispatched, passes''⟩ := passes'.dispatch_outward (t := t) (machines ▸ there) free i.args i.context
  rw [← effect] at dispatched
  have step := Machine.step_activation w t.gen t.machine (.advancing (.gen (whole g us))) B (.yielded op)
  simp only [Machine.step, received, dispatched] at step
  exact ⟨_, _, step, .concat id us t, passes''⟩

/-- The machine of a tier that owns the effect calls the clause. -/
theorem lands {w : World G} (passes : Forwarded s w.store g e us false) {op f : Val} (passed : Passed s.conts.size i us op)
    (effect : i.effect = .effect e) (owns : t.clause? e = some f)
    (there : w.store.machines[t.machine]? = some ⟨.own (t.frames (whole g us)), t.owner⟩) (B : List (Activation G)) :
    ∃ w' h tag, t.layer = some (h, tag) ∧
      Config.step ⟨w, t.waits (whole g us) :: B, .reply (.yielded op)⟩ =
        .ok ⟨w', .running t.gen (.library (.machine t.machine .calling)) :: B,
          .call f (.cont (contAt s.conts.size us.length) :: i.args.values) .machine⟩ ∧
      Gathers s w'.store g (us ++ [t]) false ∧ Noted s w'.store (outward e us ++ [h.answers e (!us.isEmpty)]) := by
  obtain ⟨u, passes', machines, received⟩ := passes.receive_eq passed t.machine (.gen (whole g us))
  obtain ⟨u', h, tag, layer, dispatched, gathers, noted⟩ :=
    passes'.dispatch_owner (t := t) (machines ▸ there) owns i.args i.context
  rw [← effect] at dispatched
  have step := Machine.step_activation w t.gen t.machine (.advancing (.gen (whole g us))) B (.yielded op)
  simp only [Machine.step, received, dispatched] at step
  exact ⟨_, h, tag, layer, step, gathers, noted⟩

theorem nil (s : Store) (g : Gen) (e : Effect) : Forwarded s s g e [] false :=
  ⟨.nil s g false, .nil s, ⟨rfl, rfl, rfl, rfl, fun _ _ => rfl⟩, fun _ _ => rfl⟩

end Forwarded

/-- The tiers that do not own an effect pass it on, one after the other. -/
theorem Config.reaches_passed {w : World G} (built : w.store.Built g ts) (machines : (ts.map Tier.machine).Nodup)
    (effect : i.effect = .effect e) (split : ts = us ++ vs) (free : ∀ u ∈ us, u.clause? e = none) (id : Nat)
    (B : List (Activation G)) :
    ∃ w' op, Reaches us.length ⟨w, waiting g ts ++ B, .reply (.yielded (.invocation id i))⟩
        ⟨w', waiting (whole g us) vs ++ B, .reply (.yielded op)⟩ ∧
      Passed w.store.conts.size i us op ∧ Forwarded w.store w'.store g e us false := by
  induction us using List.reverseRecOn generalizing vs with
  | nil =>
      cases split
      exact ⟨w, _, .refl _, .nil id, .nil _ g e⟩
  | append_singleton us t ih =>
      have split' : ts = us ++ t :: vs := by simpa using split
      obtain ⟨w', op, reached, passed, passes⟩ := ih split' fun u mem => free u (by simp [mem])
      have there : w'.store.machines[t.machine]? = some ⟨.own (t.frames (whole g us)), t.owner⟩ := by
        rw [passes.machines t.machine, built us t vs split']
        rw [split', List.map_append, List.nodup_append] at machines
        exact fun mem => machines.2.2 _ mem _ (by simp) rfl
      obtain ⟨w'', op', step, passed', passes'⟩ :=
        passes.hop passed effect (free t (by simp)) there (waiting t.gen vs ++ B)
      rw [List.length_append, whole_concat]
      exact ⟨w'', op', reached.trans (.one step), passed', passes'⟩

theorem length_gathered (g : Gen) (ts : List Tier) (handled : ∀ t ∈ ts, t.layer.isSome) :
    (gathered g ts).length = 2 * ts.length := by
  induction ts generalizing g with
  | nil => rfl
  | cons t ts ih =>
      obtain ⟨l, layer⟩ := Option.isSome_iff_exists.1 (handled t List.mem_cons_self)
      have two : (t.frames g).length = 2 := by simp [Tier.frames, Tier.frame?, layer]
      rw [gathered, List.length_append, two, ih _ fun u mem => handled u (List.mem_cons_of_mem _ mem), List.length_cons]
      omega

end OneShot
