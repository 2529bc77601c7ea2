import OneShot.Proofs.Beneath
import OneShot.Proofs.Frames.Refusing
import OneShot.Proofs.Frames.Spacing

/-!
# Nested handlers

Handlers that are applied inside of each other make machines that run each other: on the
stack of each is the generator of the next one further in.  A driver has one more machine
around them, without a handler.  Whatever the computation inside does until it suspends
for the first time, the machines find their stacks as they were made.
-/

namespace OneShot

variable {G : Guest}

/-- A machine as a handler makes it that is applied, or a driver, which has no handler. -/
structure Tier where
  machine : Nat
  gen : Gen
  /-- The tag of the frame of what the machine runs. -/
  under : Tag
  /-- The handler, and the tag of its frame. -/
  layer : Option (Handler × Tag)

namespace Tier

variable (t : Tier)

/-- What the machine shows as its owner. -/
def owner : Val := t.layer.elim .none fun l => .handler l.1

/-- The frame of the handler. -/
def frame? : Option Val := t.layer.map fun l => .frame (.handler (.handler l.1) l.2)

/-- The stack that the machine is made with, to run `g`. -/
def frames (g : Gen) : List Val := .frame (.generator (.gen g) t.under) :: t.frame?.toList

/-- The clause that the handler has for an effect. -/
def clause? (e : Effect) : Option Val := t.layer.bind fun l => l.1.clause? e

/-- The machine waits for `g`. -/
def waits (g : Gen) : Activation G := .running t.gen (.library (.machine t.machine (.advancing (.gen g))))

end Tier

variable {g : Gen} {t : Tier} {ts us vs : List Tier}

/-- What runs `g` inside of some tiers, innermost first. -/
def whole (g : Gen) (ts : List Tier) : Gen := (ts.getLast?.map Tier.gen).getD g

@[simp] theorem whole_nil (g : Gen) : whole g [] = g := rfl

@[simp] theorem whole_concat (g : Gen) (us : List Tier) (t : Tier) : whole g (us ++ [t]) = t.gen := by
  simp [whole]

theorem whole_cons (g : Gen) (t : Tier) (ts : List Tier) : whole g (t :: ts) = whole t.gen ts := by
  cases ts using List.reverseRecOn with
  | nil => rfl
  | append_singleton us u => rw [whole_concat, ← List.cons_append, whole_concat]

/-- The tiers around `g` wait for each other. -/
def waiting (g : Gen) : List Tier → List (Activation G)
  | [] => []
  | t :: ts => t.waits g :: waiting t.gen ts

/-- The stacks of some tiers, from that of the innermost. -/
def gathered (g : Gen) : List Tier → List Val
  | [] => []
  | t :: ts => t.frames g ++ gathered t.gen ts

theorem gathered_concat (g : Gen) (us : List Tier) (t : Tier) :
    gathered g (us ++ [t]) = gathered g us ++ t.frames (whole g us) := by
  induction us generalizing g with
  | nil => simp [gathered]
  | cons u us ih => rw [List.cons_append, gathered, ih, whole_cons, gathered, List.append_assoc]

/-- Each machine has the stack that it was made with. -/
def Store.Built (s : Store) (g : Gen) (ts : List Tier) : Prop :=
  ∀ us t vs, ts = us ++ t :: vs → s.machines[t.machine]? = some ⟨.own (t.frames (whole g us)), t.owner⟩

/-- No machine has run yet, and the computation has not started. -/
structure World.Nested (w : World G) (g : Gen) (ts : List Tier) : Prop where
  built : w.store.Built g ts
  machines : (ts.map Tier.machine).Nodup
  gens : (g.id :: ts.map (·.gen.id)).Nodup
  tiers : ∀ t ∈ ts, w.status t.gen = .fresh (.library (.machine t.machine .start))
  main : ∃ p, w.status g = .fresh p

/-! ## Applying handlers -/

theorem Store.Built.mono {s s' : Store} (built : s.Built g ts)
    (kept : ∀ t ∈ ts, s'.machines[t.machine]? = s.machines[t.machine]?) : s'.Built g ts := by
  intro us t vs split
  rw [kept t (by simp [split])]
  exact built us t vs split

theorem Store.Built.concat {s : Store} (built : s.Built g ts)
    (last : s.machines[t.machine]? = some ⟨.own (t.frames (whole g ts)), t.owner⟩) : s.Built g (ts ++ [t]) := by
  intro us u vs split
  rcases List.append_eq_append_iff.1 split with ⟨more, rfl, rest⟩ | ⟨more, rfl, rest⟩
  · cases more with
    | nil =>
        cases rest
        simpa using last
    | cons v more => simp at rest
  · cases more with
    | nil =>
        cases rest
        simpa using last
    | cons v more =>
        cases rest
        exact built us _ _ rfl

theorem Store.Built.inside {s : Store} (built : s.Built g ts) : ∀ t ∈ ts, t.machine < s.machines.size := by
  intro t mem
  obtain ⟨us, vs, split⟩ := List.append_of_mem mem
  exact (Array.getElem?_eq_some_iff.1 (built us t vs split)).1

namespace World.Nested

theorem fresh {w : World G} (nested : w.Nested g ts) : ∃ p, w.status (whole g ts) = .fresh p := by
  cases ts using List.reverseRecOn with
  | nil => exact nested.main
  | append_singleton us t => exact ⟨_, by simpa using nested.tiers t (by simp)⟩

/-- A machine that is made on top of a nest, with its generator. -/
theorem concat {w : World G} (nested : w.Nested g ts) {layer : Option (Handler × Tag)} {under : Tag} {s : Store}
    (same : s.machines = w.store.machines) :
    let t : Tier := ⟨s.machines.size, ⟨w.gens.size, .generator, "Machine.run"⟩, under, layer⟩
    (World.spawn { w with store := (s.newMachine (.own (t.frames (whole g ts))) t.owner).1 } .generator
      "Machine.run" (.library (.machine t.machine .start))).1.Nested g (ts ++ [t]) := by
  intro t
  have ids : ∀ i ∈ g.id :: ts.map (·.gen.id), i < w.gens.size := by
    have fresh_lt {h : Gen} {p : Routine G} (status : w.status h = .fresh p) : h.id < w.gens.size :=
      (Array.getElem?_eq_some_iff.1 (World.getElem?_of_status status (by simp))).1
    refine List.forall_mem_cons.2 ⟨?_, ?_⟩
    · obtain ⟨p, status⟩ := nested.main
      exact fresh_lt status
    · rintro i mem
      obtain ⟨u, there, rfl⟩ := List.mem_map.1 mem
      exact fresh_lt (nested.tiers u there)
  have machines : ∀ u ∈ ts, u.machine < s.machines.size := same ▸ nested.built.inside
  have older {h : Gen} (inside : h.id < w.gens.size) (st : Store) (r : Routine G) :
      (World.spawn { w with store := st } .generator "Machine.run" r).1.status h = w.status h := by
    have other : h.id ≠ w.gens.size := Nat.ne_of_lt inside
    simp [World.spawn, World.status, Array.getD_eq_getD_getElem?, Array.getElem?_push, other]
  refine ⟨?_, ?_, ?_, ?_, ?_⟩
  · refine Store.Built.concat (nested.built.mono fun u mem => ?_) ?_
    · have other : u.machine ≠ w.store.machines.size := Nat.ne_of_lt (same ▸ machines u mem)
      simp [World.spawn, Store.newMachine, same, Array.getElem?_push, other]
    · simp [World.spawn, Store.newMachine, t]
  · rw [List.map_append, List.nodup_append]
    refine ⟨nested.machines, by simp, fun m mem m' mem' => ?_⟩
    obtain ⟨u, there, rfl⟩ := List.mem_map.1 mem
    obtain rfl : m' = s.machines.size := by simpa [t] using mem'
    exact Nat.ne_of_lt (machines u there)
  · rw [List.map_append, ← List.cons_append, List.nodup_append]
    refine ⟨nested.gens, by simp, fun i mem i' mem' => ?_⟩
    obtain rfl : i' = w.gens.size := by simpa [t] using mem'
    exact Nat.ne_of_lt (ids i mem)
  · intro u mem
    rcases List.mem_append.1 mem with mem | mem
    · rw [older (ids _ (List.mem_cons_of_mem _ (List.mem_map_of_mem mem)))]
      exact nested.tiers u mem
    · obtain rfl := List.mem_singleton.1 mem
      exact World.status_spawn _ _ _ _
  · obtain ⟨p, status⟩ := nested.main
    exact ⟨p, (older (ids _ List.mem_cons_self) _ _).trans status⟩

end World.Nested

open Config (Reaches)

/-- A function that gives a generator is converted to that. -/
theorem Config.reaches_converted {w w' : World G} {f : Val} {h : Gen} (callable : f.isCallable = true)
    (no_generator : f.generator? = none) (kind : h.kind = .generator)
    (called : ∀ A, ∃ n, Reaches n ⟨w, A, .call f [] .conversion⟩ ⟨w', A, .reply (.value (.gen h))⟩)
    (A : List (Activation G)) (caller : Caller) :
    ∃ n, Reaches n ⟨w, A, .call (.native (.service .toGenerator)) [f] caller⟩ ⟨w', A, .reply (.value (.gen h))⟩ := by
  have entered : Reaches 2 ⟨w, A, .call (.native (.service .toGenerator)) [f] caller⟩
      ⟨w, .calling (.library .converting) :: A, .call f [] .conversion⟩ := by
    refine .step (d := ⟨w, .calling (.library (.calling f)) :: A, .reply (.value .none)⟩) ?_ (.one rfl)
    have converts : Computation.convert w.store f = (w.store, .enter (.calling f)) := by
      simp [Computation.convert, no_generator, callable]
    simp only [Config.step, Config.call, invoke, Native.start, Native.signature?, Option.bind_none, Service.start,
      converts, Config.reply]
  obtain ⟨n, inside⟩ := called (.calling (.library .converting) :: A)
  have plain : (Val.gen h).generator? = some h := if_pos kind
  refine ⟨2 + (n + 1), entered.trans (inside.trans (.one ?_))⟩
  simp only [Config.step, Config.deliver, Routine.step, Process.step, plain, Turn.map, Config.turnOfCall, Config.reply]

/-- A handler that is applied to a function which gives a nest makes one tier more around it. -/
theorem Config.reaches_applied {w w' : World G} {f : Val} {h : Handler} (callable : f.isCallable = true)
    (no_generator : f.generator? = none) (kind : (whole g ts).kind = .generator) (nested : w'.Nested g ts)
    (called : ∀ A, ∃ n, Reaches n ⟨{ w with store := w.store.freshTag.1 }, A, .call f [] .conversion⟩
      ⟨w', A, .reply (.value (.gen (whole g ts)))⟩) (A : List (Activation G)) (caller : Caller) :
    ∃ n w'' t, t.layer = some (h, w.store.freshTag.2) ∧ t.gen.kind = .generator ∧ w''.Nested g (ts ++ [t]) ∧
      Reaches n ⟨w, A, .call (.handler h) [f] caller⟩ ⟨w'', A, .reply (.value (.gen (whole g (ts ++ [t]))))⟩ := by
  let tag := w.store.freshTag.2
  let applied : Activation G := .calling (.library (.applied h tag))
  have applying : Reaches 2 ⟨w, A, .call (.handler h) [f] caller⟩
      ⟨{ w with store := w.store.freshTag.1 }, applied :: A, .call (.native (.service .toGenerator)) [f] .program⟩ :=
    .step rfl (.one rfl)
  obtain ⟨n, converted⟩ := Config.reaches_converted callable no_generator kind called (applied :: A) .program
  let t : Tier := ⟨w'.store.machines.size, ⟨w'.gens.size, .generator, "Machine.run"⟩, w'.store.freshTag.2,
    some (h, tag)⟩
  have made : World.Nested _ g (ts ++ [t]) := nested.concat (s := w'.store.freshTag.1) rfl
  have last : Reaches 3 ⟨w', applied :: A, .reply (.value (.gen (whole g ts)))⟩
      ⟨_, A, .reply (.value (.gen t.gen))⟩ := .step rfl (.step rfl (.one rfl))
  refine ⟨2 + (n + 3), _, t, rfl, rfl, made, ?_⟩
  rw [whole_concat]
  exact applying.trans (converted.trans last)

/-- A driver that is started with a function, and how it waits for its machine then. -/
inductive Activation.Launches (f : Val) : Activation G → (Gen → Activation G) → Prop
  | execute : Launches f (.calling (.library (.execute (.start f)))) fun r => .calling (.library (.execute (.running r)))
  | executeAsync (h : Gen) : Launches f (.running h (.library (.executeAsync (.start f))))
      fun r => .running h (.library (.executeAsync (.running r 0)))

/-- A driver that runs a function which gives a nest makes one tier more around it, without a handler. -/
theorem Config.reaches_launched {w w' : World G} {f : Val} {a : Activation G} {b : Gen → Activation G}
    (launches : a.Launches f b) (callable : f.isCallable = true) (no_generator : f.generator? = none)
    (kind : (whole g ts).kind = .generator) (nested : w'.Nested g ts)
    (called : ∀ A, ∃ n, Reaches n ⟨w, A, .call f [] .conversion⟩ ⟨w', A, .reply (.value (.gen (whole g ts)))⟩)
    (B : List (Activation G)) (v : Val) : ∃ n w'' t, t.layer = none ∧ w''.Nested g (ts ++ [t]) ∧
      Reaches n ⟨w, a :: B, .reply (.value v)⟩ ⟨w'', b t.gen :: B, .advance t.gen (.send .none)⟩ := by
  let t : Tier := ⟨w'.store.machines.size, ⟨w'.gens.size, .generator, "Machine.run"⟩, w'.store.freshTag.2, none⟩
  have made : World.Nested _ g (ts ++ [t]) := nested.concat (s := w'.store.freshTag.1) rfl
  cases launches with
  | execute =>
      obtain ⟨n, converted⟩ := Config.reaches_converted callable no_generator kind called
        (.calling (.library (.execute .converting)) :: B) .program
      exact ⟨1 + (n + 3), _, t, rfl, made, .trans (.one rfl) (converted.trans (.step rfl (.step rfl (.one rfl))))⟩
  | executeAsync h =>
      obtain ⟨n, converted⟩ := Config.reaches_converted callable no_generator kind called
        (.running h (.library (.executeAsync .converting)) :: B) .escape
      exact ⟨1 + (n + 3), _, t, rfl, made, .trans (.one rfl) (converted.trans (.step rfl (.step rfl (.one rfl))))⟩

/-! ## What becomes of machines that wait -/

namespace Store

theorem getElem?_machines_setStack {s : Store} {m n : Nat} (other : m ≠ n) (frames : List Val) :
    (s.setStack n frames).machines[m]? = s.machines[m]? := by
  unfold setStack
  split
  · rfl
  · rfl
  · simp [Array.getElem?_modify, Ne.symm other]

end Store

/-- A machine changes no record of a machine but its own. -/
theorem Machine.Does.others {s t : Store} {m n : Nat} {p : Phase} {r : Reply} {turn : Turn Phase}
    (does : Does s n p r t turn) (other : m ≠ n) : t.machines[m]? = s.machines[m]? := by
  cases does with
  | settles delivers delivered after =>
      rw [Store.machines_of_engine after.engine, Store.getElem?_machines_setStack other,
        Store.machines_of_engine delivers.quiet.engine]
  | halts left after ending unasked begun =>
      rw [Store.machines_of_engine after.engine]
      rcases left with rfl | ⟨k, rfl⟩
      · rfl
      · rw [Store.machines_take]
  | discards stack unasked => exact Store.getElem?_machines_setStack other _
  | captures invoked stack brings after directs =>
      rw [Store.machines_of_engine after.engine]
      exact (Store.getElem?_machines_setStack other _).trans (congrArg (·[m]?) brings.origin.2.1)
  | _ => rfl

/-- The record of a machine stays as it is while the machine makes no step. -/
theorem Shift.machine_eq {c d : Config G} (shift : Shift c d) {m : Nat} (inside : m < c.world.store.machines.size)
    (other : c.stepped? ≠ some m) : d.world.store.machines[m]? = c.world.store.machines[m]? := by
  cases shift with
  | quiet after idle unmade keeps => rw [Store.machines_of_engine after.engine]
  | takes k after idle made keeps => rw [Store.machines_of_engine after.engine, Store.machines_take]
  | makes owner framed after idle unmade proper keeps few =>
      rw [Store.machines_of_engine after.engine]
      simp [Store.newMachine, Store.freshTag, Array.getElem?_push, Nat.ne_of_lt inside]
  | machine stack signal does after keeps =>
      rw [Store.machines_of_engine after.engine]
      refine does.others ?_
      rintro rfl
      exact other (Config.stepped?_machine stack signal)

/-- The body of a generator at the bottom of a stack stays there, until it yields or ends. -/
theorem Moves.bottom {c d : Config G} (moves : Moves c d) {X : List (Activation G)} {a : Activation G}
    (stack : c.stack = X ++ [a]) (body : a.active? = some g) :
    (∃ X' a', d.stack = X' ++ [a'] ∧ a'.active? = some g) ∨
      d.stack = [] ∧ ((∃ v, c.yields? = some (g, v)) ∨ d.world.status g = .finished) := by
  by_cases bottom : X = [] ∧ ∃ r, c.signal = .reply r
  · obtain ⟨rfl, r, signal⟩ := bottom
    obtain ⟨w, S, _⟩ := c
    cases signal
    cases stack
    have going {b : Activation G} {u : World G} {signal : Signal} (same : b.active? = some g) :
        ∃ X' a', (⟨u, [b], signal⟩ : Config G).stack = X' ++ [a'] ∧ a'.active? = some g := ⟨[], b, rfl, same⟩
    cases moves with
    | @goes w v seat p p' r turn store signal stack stepped answer =>
        cases seat with
        | none => cases body
        | some h => exact .inl (going body)
    | delegates stepped passes => exact .inl (going body)
    | regains | leaves => exact .inl (going body)
    | @suspends w v stack h p p' r u how stepped =>
        cases body
        exact .inr ⟨rfl, .inl ⟨u, by simp [Config.yields?, stepped]⟩⟩
    | hands v =>
        cases body
        exact .inr ⟨rfl, .inl ⟨v, rfl⟩⟩
    | ends stepped ending quiet final =>
        cases body
        exact .inr ⟨rfl, .inr (World.status_setStatus_finished _ _)⟩
    | returns | closes => cases body
  · have suffix : [a] <:+ d.stack := by
      by_cases empty : X = []
      · subst empty
        have whole := moves.suffix.2 fun r signal => bottom ⟨rfl, r, signal⟩
        rwa [stack] at whole
      · obtain ⟨b, X', rfl⟩ := List.exists_cons_of_ne_nil empty
        have tail := moves.suffix.1
        rw [stack] at tail
        exact (List.suffix_append X' [a]).trans tail
    obtain ⟨X', split⟩ := suffix
    exact .inl ⟨X', a, split.symm, body⟩

theorem Config.yields?_above (c : Config G) (B : List (Activation G)) (some_stack : c.stack ≠ []) :
    (c.above B).yields? = c.yields? := by
  obtain ⟨w, S, signal⟩ := c
  obtain ⟨a, rest, rfl⟩ := List.exists_cons_of_ne_nil some_stack
  cases signal with
  | reply r => cases a <;> cases r <;> rfl
  | _ => cases a <;> rfl

/-- A suspension is a reply to what waits for the generator. -/
theorem Config.step_of_yields {c : Config G} {v : Val} (yields : c.yields? = some (g, v)) :
    ∃ a rest w, c.stack = a :: rest ∧ a.active? = some g ∧ c.step = .ok ⟨w, rest, .reply (.yielded v)⟩ := by
  obtain ⟨w, S, signal⟩ := c
  unfold yields? at yields
  split at yields
  · rename_i h p rest r stack signal
    cases stack
    cases signal
    split at yields
    · rename_i how q turn
      cases yields
      refine ⟨_, rest, (p.step w r).1.setStatus g (.suspended q how), rfl, rfl, congrArg Except.ok ?_⟩
      simp only at turn
      simp only [deliver, turn, turnOf, reply]
    · cases yields
  · rename_i stack signal
    cases stack
    cases signal
    cases yields
    exact ⟨_, _, _, rfl, rfl, rfl⟩
  · cases yields

/-! ## The first suspension -/

/-- A machine that is started advances what it was made for. -/
theorem Machine.step_start_frames {s : Store} {owner : Val} (there : s.machines[t.machine]? = some ⟨.own (t.frames g), owner⟩)
    (v : Val) : Machine.step s t.machine .start (.value v) =
      (s, .ask (.advance g (.send .none)) (.advancing (.gen g))) := by
  have stack : s.stack t.machine = .frame (.generator (.gen g) t.under) :: t.frame?.toList := Store.stack_of_own there
  have same := Store.setStack_self there
  rw [Tier.frames] at same
  simp only [Machine.step, Machine.start, there, Machine.settle, stack, Machine.deliver, Outcome.input, same]

/-- A nest that was started, until the computation inside suspends for the first time. -/
inductive Opening (g : Gen) (ts : List Tier) (A : List (Activation G)) : Config G → Prop
  /-- Some of the machines wait, and the next one is to be started. -/
  | descends {w : World G} {us vs : List Tier} (split : ts = us ++ vs) (built : w.store.Built g ts)
      (tiers : ∀ t ∈ us, w.status t.gen = .fresh (.library (.machine t.machine .start)))
      (main : ∃ p, w.status g = .fresh p) :
      Opening g ts A ⟨w, waiting (whole g us) vs ++ A, .advance (whole g us) (.send .none)⟩
  | starts {w : World G} {us vs : List Tier} {t : Tier} (split : ts = us ++ t :: vs) (built : w.store.Built g ts)
      (tiers : ∀ t ∈ us, w.status t.gen = .fresh (.library (.machine t.machine .start)))
      (main : ∃ p, w.status g = .fresh p) :
      Opening g ts A ⟨w, .running t.gen (.library (.machine t.machine .start)) :: (waiting t.gen vs ++ A),
        .reply (.value .none)⟩
  | inside {w : World G} {X : List (Activation G)} {a : Activation G} {signal : Signal} (built : w.store.Built g ts)
      (body : a.active? = some g) : Opening g ts A ⟨w, X ++ a :: (waiting g ts ++ A), signal⟩
  | past {c : Config G} (finished : c.world.gens[g.id]? = some .finished) : Opening g ts A c

namespace Opening

variable {A : List (Activation G)} {trace : Trace G} {c d : Config G}

theorem mem_waiting (mem : t ∈ ts) : ∃ h, t.waits h ∈ (waiting g ts : List (Activation G)) := by
  induction ts generalizing g with
  | nil => cases mem
  | cons u us ih =>
      rcases List.mem_cons.1 mem with rfl | mem
      · exact ⟨g, List.mem_cons_self⟩
      · obtain ⟨h, there⟩ := ih (g := u.gen) mem
        exact ⟨h, List.mem_cons_of_mem _ there⟩

/-- Of a machine that waits below something else no step is made. -/
theorem not_stepped (standing : Standing trace c) {X B : List (Activation G)} (stack : c.stack = X ++ B)
    (above : X ≠ []) (waits : t.waits g ∈ B) : c.stepped? ≠ some t.machine := by
  intro here
  obtain ⟨a, rest, r, p, top, signal, machine⟩ := Config.stepped?_eq_some here
  obtain ⟨h, rfl, ran, -⟩ := standing.seated.machine (by rw [top]; exact .head _) machine
  obtain ⟨h', same, ran', -⟩ := standing.seated.machine (a := t.waits g) (by rw [stack]; exact List.mem_append_right _ waits) rfl
  cases same
  have once := standing.active.once
  obtain ⟨b, X, rfl⟩ := List.exists_cons_of_ne_nil above
  rw [stack, List.cons_append] at top
  obtain ⟨rfl, -⟩ := List.cons.inj top
  rw [stack, List.cons_append, active_cons_of_some rfl, List.nodup_cons] at once
  refine once.1 (List.mem_filterMap.2 ⟨t.waits g, List.mem_append_right _ waits, ?_⟩)
  exact congrArg some (standing.seated.once _ _ _ ran' ran)

theorem step (opening : Opening g ts A c) (gens : (g.id :: ts.map (·.gen.id)).Nodup) (standing : Standing trace c)
    (genuine : Genuine trace c) (stepped : c.step = .ok d) (first : ∀ v, c.yields? ≠ some (g, v)) :
    Opening g ts A d := by
  cases opening with
  | @descends w us vs split built tiers main =>
      cases us using List.reverseRecOn with
      | nil =>
          obtain ⟨p, status⟩ := main
          cases split
          have after : d = ⟨w.setStatus g .running, [] ++ .running g p :: (waiting g vs ++ A), .reply (.value .none)⟩ := by
            simpa [Config.step, Config.advance, status, Config.reply] using stepped.symm
          rw [after]
          exact .inside built rfl
      | append_singleton us t =>
          have status := tiers t (by simp)
          have after : d = ⟨w.setStatus t.gen .running, .running t.gen (.library (.machine t.machine .start)) ::
              (waiting t.gen vs ++ A), .reply (.value .none)⟩ := by
            simpa [Config.step, Config.advance, status, Config.reply] using stepped.symm
          subst split
          simp only [List.append_assoc, List.singleton_append, List.map_append, List.map_cons, List.nodup_cons,
            List.nodup_append, List.mem_append, List.mem_cons, List.mem_map] at gens
          have split : us ++ [t] ++ vs = us ++ t :: vs := by simp
          rw [after]
          refine .starts split built (fun u mem => ?_) ?_
          · refine (World.status_setStatus_of_ne ?_ _).trans (tiers u (by simp [mem]))
            exact gens.2.2.2 _ ⟨u, mem, rfl⟩ _ (.inl rfl)
          · obtain ⟨p, main⟩ := main
            exact ⟨p, (World.status_setStatus_of_ne (fun same => gens.1 (.inr (.inl same))) _).trans main⟩
  | @starts w us vs t split built tiers main =>
      have started := Machine.step_activation w t.gen t.machine .start (waiting t.gen vs ++ A) (.value .none)
      rw [Machine.step_start_frames (built us t vs split)] at started
      cases started.symm.trans stepped
      exact .descends split built tiers main
  | @inside w X a signal built body =>
      have stack : X ++ a :: (waiting g ts ++ A) = (X ++ [a]) ++ (waiting g ts ++ A) := by simp
      -- what runs on top of the machines does not see them
      obtain ⟨c', stepped'⟩ : ∃ c', Config.step ⟨w, X ++ [a], signal⟩ = .ok c' := by
        cases signal with
        | reply r => cases X <;> exact ⟨_, rfl⟩
        | call f args caller => exact ⟨_, Config.step_call' _ _ _ _ _⟩
        | advance h i => exact ⟨_, Config.step_advance' _ _ _ _⟩
        | close h => exact ⟨_, Config.step_close' _ _ _⟩
      have above := Config.step_above (B := waiting g ts ++ A) stepped'
      simp only [Config.above] at above
      rw [← stack] at above
      cases above.symm.trans stepped
      have built' : c'.world.store.Built g ts := by
        refine built.mono fun t mem => ?_
        obtain ⟨h, waits⟩ := mem_waiting (G := G) (g := g) mem
        exact (standing.shift genuine stepped).machine_eq (built.inside t mem)
          (not_stepped standing stack (by simp) (List.mem_append_left A waits))
      rcases (Config.moves_step stepped').bottom rfl body with ⟨X', a', same, body'⟩ | ⟨empty, ⟨v, yields⟩ | finished⟩
      · have whole : c'.stack ++ (waiting g ts ++ A) = X' ++ a' :: (waiting g ts ++ A) := by simp [same]
        rw [whole]
        exact .inside built' body'
      · refine absurd ?_ (first v)
        have same := Config.yields?_above ⟨w, X ++ [a], signal⟩ (waiting g ts ++ A) (by simp)
        rw [Config.above, ← stack] at same
        exact same.trans yields
      · have running := (standing.active.running g.id).2 (List.mem_filterMap.2 ⟨a, by simp, by simp [body]⟩)
        have inside := Nat.lt_of_lt_of_le (Array.getElem?_eq_some_iff.1 running).1 (Config.moves_step stepped').size_gens
        have there := Array.getElem?_eq_getElem inside
        refine .past (there.trans (congrArg some ?_))
        exact (World.status_of there).symm.trans finished
  | past finished =>
      have moves := Config.moves_step stepped
      exact .past (moves.finished standing.active finished)

/-- The machines wait where they were when the computation suspends. -/
theorem suspends (opening : Opening g ts A c) (gens : (g.id :: ts.map (·.gen.id)).Nodup) (standing : Standing trace c)
    (genuine : Genuine trace c) {v : Val} (yields : c.yields? = some (g, v)) (stepped : c.step = .ok d) :
    ∃ w, d = ⟨w, waiting g ts ++ A, .reply (.yielded v)⟩ ∧ w.store.Built g ts := by
  obtain ⟨a, rest, w', top, body, suspended⟩ := Config.step_of_yields yields
  cases suspended.symm.trans stepped
  have running : c.world.gens[g.id]? = some .running := by
    refine (standing.active.running g.id).2 ?_
    rw [top, active_cons_of_some body]
    exact List.mem_cons_self
  cases opening with
  | descends split built tiers main =>
      unfold Config.yields? at yields
      split at yields <;> contradiction
  | @starts w us vs t split built tiers main =>
      cases top
      cases body
      simp [split] at gens
  | @inside w X b signal built body' =>
      cases X with
      | nil =>
          cases top
          refine ⟨w', rfl, built.mono fun t mem => ?_⟩
          obtain ⟨h, waits⟩ := mem_waiting (G := G) (g := g) mem
          have stack : a :: (waiting g ts ++ A) = [a] ++ (waiting g ts ++ A) := rfl
          exact (standing.shift genuine stepped).machine_eq (built.inside t mem)
            (not_stepped standing stack (by simp) (List.mem_append_left A waits))
      | cons x X =>
          -- the computation has one body only
          cases top
          have once := standing.active.once
          rw [List.cons_append, active_cons_of_some body, List.nodup_cons] at once
          exact absurd (List.mem_filterMap.2 ⟨b, by simp, by simp [body']⟩) once.1
  | past finished =>
      rw [running] at finished
      cases finished

end Opening

/-- The machines of a nest are as they were made when the computation inside suspends for the first time. -/
theorem RunOf.opening {rule : Trace G → Config G → Prop} (genuine : ∀ trace c, rule trace c → Genuine trace c)
    {later before : Trace G} {w : World G} {A : List (Activation G)} {d : Config G}
    (run : RunOf rule (later ++ ⟨w, A, .advance (whole g ts) (.send .none)⟩ :: before) d) (nested : w.Nested g ts)
    (first : ∀ b ∈ later, ∀ v, b.yields? ≠ some (g, v)) : Opening g ts A d := by
  induction later generalizing d with
  | nil =>
      cases run with
      | step before obeys stepped =>
          have started : Opening g ts A ⟨w, waiting (whole g ts) [] ++ A, .advance (whole g ts) (.send .none)⟩ :=
            .descends (by simp) nested.built nested.tiers nested.main
          refine started.step nested.gens (before.standing genuine) (genuine _ _ obeys) stepped fun v => ?_
          unfold Config.yields?
          split <;> simp_all
  | cons b later ih =>
      cases run with
      | step before obeys stepped =>
          have inner := ih before fun b mem => first b (List.mem_cons_of_mem _ mem)
          exact inner.step nested.gens (before.standing genuine) (genuine _ _ obeys) stepped
            (first b List.mem_cons_self)

end OneShot
