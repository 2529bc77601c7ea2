import OneShot.Proofs.Frames.Runs

/-!
# Where routines sit

What a routine can be depends on where it waits.  A machine only runs as the
body of the generator that was made when it was run, and it suspends only with
an escape or a resend.
-/

namespace OneShot

variable {G : Guest}

namespace Trace

variable {trace : Trace G} {c : Config G}

theorem ran_cons {p : Nat × Nat} (h : p ∈ trace.ran) : p ∈ Trace.ran (c :: trace) := by
  simp only [ran, List.mem_filterMap, List.mem_cons] at h ⊢
  obtain ⟨d, mem, made⟩ := h
  exact ⟨d, .inr mem, made⟩

theorem ran_here {p : Nat × Nat} (h : c.ran? = some p) : p ∈ Trace.ran (c :: trace) :=
  List.mem_filterMap.2 ⟨c, List.mem_cons_self, h⟩

theorem mem_ran_cons {p : Nat × Nat} (h : p ∈ Trace.ran (c :: trace)) :
    c.ran? = some p ∨ p ∈ trace.ran := by
  simp only [ran, List.mem_filterMap, List.mem_cons] at h ⊢
  obtain ⟨d, rfl | mem, made⟩ := h
  · exact .inl made
  · exact .inr ⟨d, mem, made⟩

theorem stepped_cons {m : Nat} (h : m ∈ trace.stepped) : m ∈ Trace.stepped (c :: trace) := by
  simp only [stepped, List.mem_filterMap, List.mem_cons] at h ⊢
  obtain ⟨d, mem, made⟩ := h
  exact ⟨d, .inr mem, made⟩

theorem stepped_here {m : Nat} (h : c.stepped? = some m) : m ∈ Trace.stepped (c :: trace) :=
  List.mem_filterMap.2 ⟨c, List.mem_cons_self, h⟩

theorem mem_stepped_cons {m : Nat} (h : m ∈ Trace.stepped (c :: trace)) :
    c.stepped? = some m ∨ m ∈ trace.stepped := by
  simp only [stepped, List.mem_filterMap, List.mem_cons] at h ⊢
  obtain ⟨d, rfl | mem, made⟩ := h
  · exact .inl made
  · exact .inr ⟨d, mem, made⟩

theorem mem_framed_cons {i : Nat} (h : i ∈ Trace.framed (c :: trace)) :
    (∃ g, c.framed? = some g ∧ g.id = i) ∨ i ∈ trace.framed := by
  simp only [framed, List.mem_filterMap, List.mem_cons] at h ⊢
  obtain ⟨d, rfl | mem, made⟩ := h
  · exact .inl (Option.map_eq_some_iff.1 made)
  · exact .inr ⟨d, mem, made⟩

theorem mem_advanced_cons {i : Nat} (h : i ∈ Trace.advanced (c :: trace)) :
    (∃ g, c.advanced? = some g ∧ g.id = i) ∨ i ∈ trace.advanced := by
  simp only [advanced, List.mem_filterMap, List.mem_cons] at h ⊢
  obtain ⟨d, rfl | mem, made⟩ := h
  · exact .inl (Option.map_eq_some_iff.1 made)
  · exact .inr ⟨d, mem, made⟩

theorem framed_cons {i : Nat} (h : i ∈ trace.framed) : i ∈ Trace.framed (c :: trace) := by
  simp only [framed, List.mem_filterMap, List.mem_cons] at h ⊢
  obtain ⟨d, mem, made⟩ := h
  exact ⟨d, .inr mem, made⟩

theorem framed_here {g : Gen} (h : c.framed? = some g) : g.id ∈ Trace.framed (c :: trace) :=
  List.mem_filterMap.2 ⟨c, List.mem_cons_self, by simp [h]⟩

theorem advanced_cons {i : Nat} (h : i ∈ trace.advanced) : i ∈ Trace.advanced (c :: trace) := by
  simp only [advanced, List.mem_filterMap, List.mem_cons] at h ⊢
  obtain ⟨d, mem, made⟩ := h
  exact ⟨d, .inr mem, made⟩

theorem advanced_here {g : Gen} (h : c.advanced? = some g) :
    g.id ∈ Trace.advanced (c :: trace) :=
  List.mem_filterMap.2 ⟨c, List.mem_cons_self, by simp [h]⟩

end Trace

/-- A routine of the program, or of the library but no machine. -/
def Routine.Plain : Routine G → Prop
  | .guest _ => True
  | .library p => p.plain ∧ p.tag? = none

/-- A routine in the generator `i` is plain, or a machine in one of the given phases. -/
def Routine.Serves (trace : Trace G) (i : Nat) (ok : Machine.Phase → Prop) (r : Routine G) : Prop :=
  r.Plain ∨ ∃ m p, r = .library (.machine m p) ∧ ok p ∧ (m, i) ∈ trace.ran ∧
    (p = .start ∨ m ∈ trace.stepped)

theorem Routine.Serves.mono {trace : Trace G} {i : Nat} {ok ok' : Machine.Phase → Prop}
    {r : Routine G} (h : r.Serves trace i ok) (imp : ∀ p, ok p → ok' p) (c : Config G) :
    r.Serves (c :: trace) i ok' := by
  rcases h with plain | ⟨m, p, rfl, fit, ran, stepped⟩
  · exact .inl plain
  · refine .inr ⟨m, p, rfl, imp p fit, Trace.ran_cons ran, ?_⟩
    exact stepped.imp id Trace.stepped_cons

/-- A machine waits like this only if it was given something else than a frame of the library. -/
def Machine.Phase.Tame (p : Machine.Phase) : Prop := ∀ c, p ≠ .throwing c

def Activation.Fair (trace : Trace G) : Activation G → Prop
  | .calling (.guest _) => True
  | .calling (.library p) => p.plain
  | .running g r => r.Serves trace g.id Machine.Phase.Tame
  | .relaying _ r _ | .exiting _ r _ => r.Plain
  | .closing _ => True

def Status.Fair (trace : Trace G) (i : Nat) : Status G → Prop
  | .fresh r => r.Serves trace i (· = .start)
  | .suspended r _ => r.Serves trace i fun p => p = .escaped ∨ p = .resent
  | .delegating r _ => r.Plain
  | .running | .finished => True

/-- All routines sit where they may. -/
structure Seated (trace : Trace G) (c : Config G) : Prop where
  stack : ∀ a ∈ c.stack, a.Fair trace
  gens : ∀ i (t : Status G), c.world.gens[i]? = some t → t.Fair trace i
  /-- A machine has one generator. -/
  once : ∀ m i j, (m, i) ∈ trace.ran → (m, j) ∈ trace.ran → i = j

/-- If a machine makes the next step, it does what machines do with proper frames. -/
def Config.Turning (c : Config G) : Prop :=
  ∀ m p r g rest, c.stack = .running g (.library (.machine m p)) :: rest → c.signal = .reply r →
    Machine.Does c.world.store m p r (Machine.step c.world.store m p r).1
      (Machine.step c.world.store m p r).2

theorem Activation.Fair.mono {trace : Trace G} {a : Activation G} (h : a.Fair trace)
    (c : Config G) : a.Fair (c :: trace) := by
  cases a with
  | calling p => cases p <;> exact h
  | running g p => exact Routine.Serves.mono h (fun _ => id) c
  | relaying g p d => exact h
  | exiting g p x => exact h
  | closing g => trivial

theorem Status.Fair.mono {trace : Trace G} {i : Nat} {t : Status G} (h : t.Fair trace i)
    (c : Config G) : t.Fair (c :: trace) i := by
  cases t with
  | fresh r => exact Routine.Serves.mono h (fun _ => id) c
  | suspended r how => exact Routine.Serves.mono h (fun _ => id) c
  | delegating r d => exact h
  | _ => trivial

namespace World

variable {w : World G}

theorem getElem?_of_setStatus {g : Gen} {t u : Status G} {i : Nat}
    (h : (w.setStatus g t).gens[i]? = some u) :
    (i = g.id ∧ u = t) ∨ w.gens[i]? = some u := by
  simp only [setStatus, Array.getElem?_modify] at h
  split at h
  · rename_i same
    cases there : w.gens[i]? with
    | none =>
        rw [there] at h
        contradiction
    | some t' =>
        rw [there] at h
        cases h
        exact .inl ⟨same.symm, rfl⟩
  · exact .inr h

theorem getElem?_of_spawn (kind : GenKind) (name : String) {r : Routine G} {u : Status G} {i : Nat}
    (h : (w.spawn kind name r).1.gens[i]? = some u) :
    (i = w.gens.size ∧ u = .fresh r) ∨ w.gens[i]? = some u := by
  simp only [spawn, Array.getElem?_push] at h
  split at h
  · rename_i same
    cases h
    exact .inl ⟨same, rfl⟩
  · exact .inr h

/-- A generator that there is not counts as finished as well. -/
theorem status_setStatus_finished (w : World G) (g : Gen) :
    (w.setStatus g .finished).status g = .finished := by
  by_cases inside : g.id < w.gens.size
  · exact status_setStatus inside .finished
  · simp [status, setStatus, Nat.not_lt.1 inside]

theorem getElem?_of_status {g : Gen} {t : Status G} (h : w.status g = t) (other : t ≠ .finished) :
    w.gens[g.id]? = some t := by
  simp only [status, Array.getD_eq_getD_getElem?] at h
  cases there : w.gens[g.id]? with
  | none =>
      rw [there] at h
      exact absurd h.symm other
  | some u =>
      rw [there] at h
      exact congrArg some h

end World

section Turns

variable {trace : Trace G} {w v : World G} {p p' : Routine G} {r : Reply}
  {turn : Turn (Routine G)}

theorem Routine.step_gens (stepped : p.step w r = (v, turn)) : v.gens = w.gens := by
  cases p <;> cases stepped <;> rfl

theorem Routine.next_guest {b : G.Body} (stepped : (Routine.guest b).step w r = (v, turn))
    (next : turn.next? = some p') : ∃ b', p' = .guest b' := by
  simp only [step] at stepped
  cases stepped
  obtain ⟨b', -, rfl⟩ := Turn.next?_map next
  exact ⟨b', rfl⟩

theorem Routine.step_library (q : Process) (w : World G) (r : Reply) :
    (Routine.library q).step w r =
      ({ w with store := (q.step w.store r).1 }, (q.step w.store r).2.map .library) :=
  rfl

theorem Routine.next_library {q : Process} (stepped : (Routine.library q).step w r = (v, turn))
    (next : turn.next? = some p') :
    ∃ q', p' = .library q' ∧ (q.step w.store r).2.next? = some q' := by
  simp only [step] at stepped
  cases stepped
  obtain ⟨q', made, rfl⟩ := Turn.next?_map next
  exact ⟨q', rfl, made⟩

theorem Routine.Plain.next (plain : p.Plain) (stepped : p.step w r = (v, turn))
    (next : turn.next? = some p') : p'.Plain := by
  cases p with
  | guest b =>
      obtain ⟨b', rfl⟩ := next_guest stepped next
      trivial
  | library q =>
      obtain ⟨q', rfl, made⟩ := next_library stepped next
      obtain ⟨plain', tagged⟩ := Process.plain_step plain.1 made
      refine ⟨plain', ?_⟩
      rcases tagged with none_tagged | same
      · exact none_tagged
      · exact same.trans plain.2

theorem Answer.next? {seat : Option Gen} {s t : Store} {signal : Signal}
    (h : Answer seat s turn p' t signal) : turn.next? = some p' := by
  cases h <;> rfl

end Turns

/-! ## Turns of machines in the kernel -/

theorem Turn.map_eq_ask {σ τ : Type} {f : σ → τ} {t : Turn σ} {a : Ask} {q : τ}
    (h : t.map f = .ask a q) : ∃ p, t = .ask a p ∧ q = f p := by
  cases t <;> cases h
  exact ⟨_, rfl, rfl⟩

section Machines

variable {trace : Trace G} {w v : World G} {stack : List (Activation G)} {g : Gen}
  {p p' : Routine G} {r : Reply} {turn : Turn (Routine G)}

/-- The turn of the topmost routine, if that is a machine. -/
theorem Config.Turning.does {m : Nat} {phase : Machine.Phase}
    (turning : Config.Turning ⟨w, .running g (.library (.machine m phase)) :: stack, .reply r⟩)
    (stepped : (Routine.library (.machine m phase)).step w r = (v, turn)) :
    ∃ t moved, Machine.Does w.store m phase r t moved ∧ v = { w with store := t } ∧
      turn = (moved.map (.machine m)).map .library := by
  cases stepped
  exact ⟨_, _, turning m phase r g stack rfl rfl, rfl, rfl⟩

/-- What the routine of a generator goes on as: a machine only as the same one. -/
theorem Routine.Serves.next {ok : Machine.Phase → Prop} (serves : p.Serves trace g.id ok)
    (turning : Config.Turning ⟨w, .running g p :: stack, .reply r⟩)
    (stepped : p.step w r = (v, turn)) (next : turn.next? = some p') :
    p'.Plain ∨ ∃ m phase a, p' = .library (.machine m phase) ∧ turn = .ask a p' ∧
      Machine.Asks a phase ∧ (m, g.id) ∈ trace.ran ∧
      Config.stepped? ⟨w, .running g p :: stack, .reply r⟩ = some m := by
  rcases serves with plain | ⟨m, phase, rfl, -, ran, -⟩
  · exact .inl (plain.next stepped next)
  · obtain ⟨t, moved, does, rfl, rfl⟩ := turning.does stepped
    obtain ⟨q, made, rfl⟩ := Turn.next?_map next
    obtain ⟨phase', made', rfl⟩ := Turn.next?_map made
    rcases does.asks with ending | ⟨a, phase'', rfl, asks⟩
    · rw [ending] at made'
      contradiction
    · cases made'
      exact .inr ⟨m, phase', a, rfl, rfl, asks, ran, rfl⟩

end Machines

/-- A machine has nothing run in its place. -/
theorem Machine.Asks.kept {a : Ask} {p : Phase} (h : Asks a p) (v : Val) :
    a ≠ .delegate v ∧ a ≠ .await v := by
  cases h with
  | discards c op => cases c <;> simp [Ask.closing]
  | closes c rest x => cases c <;> simp [Ask.closing]
  | _ => simp

theorem Machine.Asks.of_yield {a : Ask} {p : Phase} {v : Val} {how : Suspension}
    (h : Asks a p) (same : a = .yield v how) : p = .escaped ∨ p = .resent := by
  cases h with
  | escapes u => exact .inl rfl
  | resends u => exact .inr rfl
  | discards c op => cases c <;> cases same
  | closes c rest x => cases c <;> cases same
  | _ => cases same

theorem Machine.Asks.tame {a : Ask} {p : Phase} (h : Asks a p) : p.Tame := by
  intro c same
  cases h <;> contradiction

namespace Seated

variable {trace : Trace G} {c d : Config G}

theorem of_parts (seated : Seated trace c) (genuine : Genuine trace c)
    (stack : ∀ a ∈ d.stack, a ∈ c.stack ∨ a.Fair (c :: trace))
    (gens : ∀ i (t : Status G), d.world.gens[i]? = some t →
      c.world.gens[i]? = some t ∨ t.Fair (c :: trace) i) : Seated (c :: trace) d where
  stack := by
    intro a mem
    rcases stack a mem with before | fair
    · exact (seated.stack a before).mono c
    · exact fair
  gens := by
    intro i t there
    rcases gens i t there with before | fair
    · exact (seated.gens i t before).mono c
    · exact fair
  once := by
    intro m i j first second
    rcases Trace.mem_ran_cons first with here | before
    · rcases Trace.mem_ran_cons second with here' | before'
      · rw [here] at here'
        cases here'
        rfl
      · exact absurd before' ((genuine.ran m i here).2 j)
    · rcases Trace.mem_ran_cons second with here' | before'
      · exact absurd before ((genuine.ran m j here').2 i)
      · exact seated.once m i j before before'

/-- What is above stays, and the topmost routine sits where it may. -/
theorem of_top (seated : Seated trace c) (genuine : Genuine trace c) {a : Activation G}
    {below : List (Activation G)} (same : d.stack = a :: below) (sub : below ⊆ c.stack)
    (fair : a.Fair (c :: trace))
    (gens : ∀ i (t : Status G), d.world.gens[i]? = some t →
      c.world.gens[i]? = some t ∨ t.Fair (c :: trace) i) : Seated (c :: trace) d := by
  refine seated.of_parts genuine (fun b mem => ?_) gens
  rw [same] at mem
  rcases List.mem_cons.1 mem with rfl | mem
  · exact .inr fair
  · exact .inl (sub mem)

theorem of_pop (seated : Seated trace c) (genuine : Genuine trace c) (sub : d.stack ⊆ c.stack)
    (gens : ∀ i (t : Status G), d.world.gens[i]? = some t →
      c.world.gens[i]? = some t ∨ t.Fair (c :: trace) i) : Seated (c :: trace) d :=
  seated.of_parts genuine (fun _ mem => .inl (sub mem)) gens

theorem gens_step {w v : World G} {p : Routine G} {r : Reply} {turn : Turn (Routine G)}
    (stepped : p.step w r = (v, turn)) (i : Nat) (t : Status G) (h : v.gens[i]? = some t) :
    w.gens[i]? = some t ∨ t.Fair trace i := by
  rw [Routine.step_gens stepped] at h
  exact .inl h

/-- A status is set that says nothing of a routine, or what it says is fair. -/
theorem gens_setStatus {w : World G} {g : Gen} {t : Status G} (fair : t.Fair trace g.id)
    (i : Nat) (u : Status G) (h : (w.setStatus g t).gens[i]? = some u) :
    w.gens[i]? = some u ∨ u.Fair trace i := by
  rcases World.getElem?_of_setStatus h with ⟨rfl, rfl⟩ | before
  · exact .inr fair
  · exact .inl before

/-- Seats are kept by every genuine step in which a machine does what machines do. -/
theorem step (seated : Seated trace c) (genuine : Genuine trace c) (turning : c.Turning)
    (moves : Moves c d) : Seated (c :: trace) d := by
  have unchanged {w : World G} (i : Nat) (t : Status G) (h : w.gens[i]? = some t) :
      w.gens[i]? = some t ∨ t.Fair (c :: trace) i := .inl h
  cases moves with
  | answers calls => exact seated.of_pop genuine (fun _ => id) unchanged
  | @enters _ _ _ _ _ _ _ p calls entered =>
      refine seated.of_top genuine rfl (fun _ => id) ?_ unchanged
      cases p with
      | guest b => trivial
      | library q => exact (entered genuine.unbuilt).1
  | @spawns w stack f args caller store memory p kind name calls spawned =>
      refine seated.of_pop genuine (fun _ => id) fun i t h => ?_
      rcases World.getElem?_of_spawn kind name h with ⟨rfl, rfl⟩ | before
      · refine .inr ?_
        cases p with
        | guest b => exact .inl trivial
        | library q =>
            obtain ⟨untagged, plain | ⟨m, rfl, ran⟩⟩ := spawned genuine.unbuilt
            · exact .inl ⟨plain, untagged⟩
            · refine .inr ⟨m, .start, rfl, rfl, Trace.ran_here ?_, .inl rfl⟩
              simp [Config.ran?, ran]
      · exact .inl before
  | forwards calls => exact seated.of_pop genuine (fun _ => id) unchanged
  | stays quiet unmoved => exact seated.of_pop genuine (fun _ => id) unchanged
  | breaks x quiet status => exact seated.of_pop genuine (fun _ => id) (gens_setStatus trivial)
  | begins status =>
      have there := seated.gens _ _ (World.getElem?_of_status status (by simp))
      refine seated.of_top genuine rfl (fun _ => id) ?_ (gens_setStatus trivial)
      refine Routine.Serves.mono there (fun p same => ?_) _
      subst same
      exact fun c => by simp
  | resumes quiet status =>
      have there := seated.gens _ _ (World.getElem?_of_status status (by simp))
      refine seated.of_top genuine rfl (fun _ => id) ?_ (gens_setStatus trivial)
      refine Routine.Serves.mono there (fun p same => ?_) _
      rcases same with rfl | rfl <;> exact fun c => by simp
  | relays status =>
      have there := seated.gens _ _ (World.getElem?_of_status status (by simp))
      exact seated.of_top genuine rfl (fun _ => id) there (gens_setStatus trivial)
  | exits x status =>
      have there := seated.gens _ _ (World.getElem?_of_status status (by simp))
      exact seated.of_top genuine rfl (fun _ => id) there (gens_setStatus trivial)
  | spares quiet final => exact seated.of_pop genuine (fun _ => id) unchanged
  | discards status => exact seated.of_pop genuine (fun _ => id) (gens_setStatus trivial)
  | interrupts x quiet status =>
      have there := seated.gens _ _ (World.getElem?_of_status status (by simp))
      refine seated.of_parts genuine (fun a mem => ?_) (gens_setStatus trivial)
      rcases List.mem_cons.1 mem with rfl | mem
      · refine .inr (Routine.Serves.mono there (fun p same => ?_) _)
        rcases same with rfl | rfl <;> exact fun c => by simp
      · rcases List.mem_cons.1 mem with rfl | mem
        · exact .inr trivial
        · exact .inl mem
  | pursues x quiet status =>
      have there := seated.gens _ _ (World.getElem?_of_status status (by simp))
      refine seated.of_parts genuine (fun a mem => ?_) (gens_setStatus trivial)
      rcases List.mem_cons.1 mem with rfl | mem
      · exact .inr there
      · rcases List.mem_cons.1 mem with rfl | mem
        · exact .inr trivial
        · exact .inl mem
  | @goes w v seat p p' r turn store signal stack stepped answer =>
      have there := seated.stack _ List.mem_cons_self
      refine seated.of_top genuine rfl (List.subset_cons_self _ _) ?_ ?_
      · cases seat with
        | none =>
            cases p with
            | guest b =>
                obtain ⟨b', rfl⟩ := Routine.next_guest stepped answer.next?
                trivial
            | library q =>
                obtain ⟨q', rfl, made⟩ := Routine.next_library stepped answer.next?
                exact (Process.plain_step there made).1
        | some g =>
            rcases Routine.Serves.next there turning stepped answer.next? with
              plain | ⟨m, phase, a, rfl, -, asks, ran, here⟩
            · exact .inl plain
            · exact .inr ⟨m, phase, rfl, asks.tame, Trace.ran_cons ran, .inr (Trace.stepped_here here)⟩
      · exact fun i t h => gens_step stepped i t h
  | @delegates w v stack g d p p' r a stepped passes =>
      have there := seated.stack _ List.mem_cons_self
      refine seated.of_top genuine rfl (List.subset_cons_self _ _) ?_
        fun i t h => gens_step stepped i t h
      rcases Routine.Serves.next there turning stepped rfl with
        plain | ⟨m, phase, a, rfl, same, asks, -, -⟩
      · exact plain
      · cases same
        rcases passes with ⟨u, same⟩ | ⟨u, same⟩
        · exact absurd same (asks.kept u).1
        · exact absurd same (asks.kept u).2
  | @suspends w v stack g p p' r u how stepped =>
      have there := seated.stack _ List.mem_cons_self
      refine seated.of_pop genuine (List.subset_cons_self _ _) fun i t h => ?_
      rcases World.getElem?_of_setStatus h with ⟨rfl, rfl⟩ | before
      · refine .inr ?_
        rcases Routine.Serves.next there turning stepped rfl with
          plain | ⟨m, phase, a, rfl, same, asks, ran, here⟩
        · exact .inl plain
        · cases same
          have suspended := asks.of_yield rfl
          exact .inr ⟨m, phase, rfl, suspended, Trace.ran_cons ran, .inr (Trace.stepped_here here)⟩
      · exact gens_step stepped i t before
  | ends stepped ending quiet final =>
      refine seated.of_pop genuine (List.subset_cons_self _ _) fun i t h => ?_
      rcases World.getElem?_of_setStatus h with ⟨rfl, rfl⟩ | before
      · exact .inr trivial
      · exact gens_step stepped i t before
  | returns stepped ending quiet final =>
      exact seated.of_pop genuine (List.subset_cons_self _ _) fun i t h => gens_step stepped i t h
  | hands v =>
      have there := seated.stack _ List.mem_cons_self
      exact seated.of_pop genuine (List.subset_cons_self _ _) (gens_setStatus there)
  | regains =>
      have there := seated.stack _ List.mem_cons_self
      exact seated.of_top genuine rfl (List.subset_cons_self _ _) (.inl there) unchanged
  | closes quiet final => exact seated.of_pop genuine (List.subset_cons_self _ _) unchanged
  | leaves y =>
      have there := seated.stack _ List.mem_cons_self
      exact seated.of_top genuine rfl (List.subset_cons_self _ _) (.inl there) unchanged

/-- A machine is only ever the body of the generator that it was run with. -/
theorem machine (seated : Seated trace c) {a : Activation G} (mem : a ∈ c.stack) {m : Nat}
    {p : Machine.Phase} (here : a.machine? = some (m, p)) :
    ∃ g, a = .running g (.library (.machine m p)) ∧ (m, g.id) ∈ trace.ran ∧ p.Tame ∧
      (p = .start ∨ m ∈ trace.stepped) := by
  have fair := seated.stack a mem
  cases a with
  | calling r =>
      cases r with
      | guest b => contradiction
      | library q =>
          cases q <;> contradiction
  | running g r =>
      rcases fair with plain | ⟨m', p', rfl, tame, ran, stepped⟩
      · cases r with
        | guest b => contradiction
        | library q =>
            cases q <;> first | contradiction | skip
            exact absurd plain.1 (by simp [Process.plain])
      · cases here
        exact ⟨g, rfl, ran, tame, stepped⟩
  | _ => contradiction

theorem of_fresh (fresh : c.Fresh) : Seated [] c := by
  refine ⟨?_, ?_, ?_⟩ <;> simp [fresh.stack, fresh.gens, Trace.ran]

end Seated
end OneShot
