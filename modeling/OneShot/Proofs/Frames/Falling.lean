import Mathlib.Data.List.Nodup
import OneShot.Proofs.Frames.Poise
import OneShot.Proofs.Frames.Unwinding

/-!
# Failures fall

An exception that has come out of something falls down what is below: through the
frames of the machine that was waiting, out of that machine, and on from there.  The
library's own routines let it through.  So the first body of the program on the way
gets that very exception where it waits, and no code of the program runs before.
-/

namespace OneShot

variable {G : Guest} {w v : World G} {x : Exc}

namespace Config

/-- In the next step nothing is called, and no code of the program runs. -/
def Silent (c : Config G) : Prop :=
  (∀ f args caller, c.signal ≠ .call f args caller) ∧ ∀ r, c.signal = .reply r →
    ∀ g b rest, c.stack ≠ .running g (.guest b) :: rest ∧ c.stack ≠ .calling (.guest b) :: rest

/-- The kernel comes from `c` to `d` by itself. -/
inductive Glides : Config G → Config G → Prop
  | refl (c : Config G) : Glides c c
  | step {c d e : Config G} (silent : c.Silent) (first : c.step = .ok d) (rest : Glides d e) :
      Glides c e

theorem Glides.trans {c d e : Config G} (first : Glides c d) (second : Glides d e) :
    Glides c e := by
  induction first with
  | refl c => exact second
  | step silent first rest ih => exact .step silent first (ih second)

theorem Glides.one {c d : Config G} (silent : c.Silent) (first : c.step = .ok d) : Glides c d :=
  .step silent first (.refl d)

theorem silent_advance (w : World G) (stack : List (Activation G)) (g : Gen) (i : Input) :
    Silent ⟨w, stack, .advance g i⟩ := ⟨by simp, by simp⟩

theorem silent_library (w : World G) (stack : List (Activation G)) (g : Gen) (p : Process)
    (r : Reply) : Silent ⟨w, .running g (.library p) :: stack, .reply r⟩ := ⟨by simp, by simp⟩

theorem silent_relaying (w : World G) (stack : List (Activation G)) (g e : Gen) (p : Routine G)
    (r : Reply) : Silent ⟨w, .relaying g p e :: stack, .reply r⟩ := ⟨by simp, by simp⟩

end Config

/-! ## What lets a failure through -/

/-- A process that lets through what is thrown into it. -/
def Process.passes : Process → Bool
  | .passing | .entered | .yielded | .launched => true
  | .state (.stepping _) | .awaitClause .delegating | .executeAsync (.pausing ..) => true
  | _ => false

theorem Process.step_of_passes {p : Process} (through : p.passes = true) (s : Store) (x : Exc) :
    p.step s (.raised x) = (s, .raise x) := by
  unfold passes at through
  split at through <;> first | rfl | contradiction

/-- A machine that advances what is on top of its stack, or waits for a clause, and what is below. -/
inductive Machine.Phase.Guards : Machine.Phase → List Val → List Val → Prop
  | calling (fs : List Val) : Guards .calling fs fs
  | advancing (content v : Val) (fs : List Val) : Guards (.advancing content) (v :: fs) fs

/-- The body of a generator that lets a failure through. -/
inductive Routine.Passes (s : Store) : Routine G → Prop
  | process {p : Process} (passes : p.passes = true) : Passes s (.library p)
  | resent {m : Nat} (empty : s.stack m = []) : Passes s (.library (.machine m .resent))

/-! ## What is below a failure -/

/-- The bodies that wait in a generator, from the innermost one up. -/
inductive Hang (w : World G) : Gen → List (Gen × Routine G) → Prop
  | gone {g : Gen} (status : w.status g = .finished) (kind : g.kind = .generator) : Hang w g []
  | waits {g : Gen} {p : Routine G} {how : Suspension} (status : w.status g = .suspended p how) :
      Hang w g [(g, p)]
  | relays {g e : Gen} {p : Routine G} {l : List (Gen × Routine G)}
      (status : w.status g = .delegating p e) (inner : Hang w e l) : Hang w g (l ++ [(g, p)])

/-- The bodies that wait in a list of frames, topmost first. -/
inductive Line (w : World G) : List Val → List (Gen × Routine G) → Prop
  | nil : Line w [] []
  | handler {h : Handler} {t : Tag} {fs : List Val} {l : List (Gen × Routine G)}
      (below : Line w fs l) : Line w (.frame (.handler (.handler h) t) :: fs) l
  | generator {g : Gen} {t : Tag} {fs : List Val} {l l' : List (Gen × Routine G)}
      (hang : Hang w g l) (below : Line w fs l') :
      Line w (.frame (.generator (.gen g) t) :: fs) (l ++ l')

/-- The bodies that a failure comes to in turn, going down joined stacks. -/
inductive Joins (w : World G) : List (Activation G) → List (Gen × Routine G) → Prop
  | nil : Joins w [] []
  | machine {g : Gen} {m : Nat} {p : Machine.Phase} {fs : List Val} {acts : List (Activation G)}
      {l l' : List (Gen × Routine G)} (guards : p.Guards (w.store.stack m) fs) (line : Line w fs l)
      (below : Joins w acts l') :
      Joins w (.running g (.library (.machine m p)) :: acts) (l ++ l')
  | relays {g e : Gen} {p : Routine G} {acts : List (Activation G)} {l : List (Gen × Routine G)}
      (below : Joins w acts l) : Joins w (.relaying g p e :: acts) ((g, p) :: l)

/-- The generators of some bodies, by their numbers. -/
def bodies (l : List (Gen × Routine G)) : List Nat := l.map fun q => q.1.id

@[simp] theorem bodies_nil : bodies ([] : List (Gen × Routine G)) = [] := rfl

@[simp] theorem bodies_cons (q : Gen × Routine G) (l : List (Gen × Routine G)) :
    bodies (q :: l) = q.1.id :: bodies l := rfl

@[simp] theorem bodies_append (l l' : List (Gen × Routine G)) :
    bodies (l ++ l') = bodies l ++ bodies l' := by simp [bodies]

/-- Nothing changes but the statuses of some generators, and the stacks of some machines. -/
structure Confined (ids machines : List Nat) (w v : World G) : Prop where
  status : ∀ h, h.id ∉ ids → v.status h = w.status h
  finished : ∀ h, w.status h = .finished → v.status h = .finished
  stack : ∀ m, m ∉ machines → v.store.stack m = w.store.stack m
  empty : ∀ m, w.store.stack m = [] → v.store.stack m = []
  own : w.store.Own → v.store.Own
  size : v.store.machines.size = w.store.machines.size

namespace Confined

variable {ids ids' machines machines' : List Nat} {u : World G}

theorem refl (w : World G) : Confined ids machines w w := ⟨by simp, by simp, by simp, by simp, id, rfl⟩

theorem trans (first : Confined ids machines w v) (second : Confined ids' machines' v u) :
    Confined (ids ++ ids') (machines ++ machines') w u where
  status h other := by
    simp only [List.mem_append, not_or] at other
    rw [second.status h other.2, first.status h other.1]
  finished h ended := second.finished h (first.finished h ended)
  stack m other := by
    simp only [List.mem_append, not_or] at other
    rw [second.stack m other.2, first.stack m other.1]
  empty m empty := second.empty m (first.empty m empty)
  own own := second.own (first.own own)
  size := second.size.trans first.size

theorem mono (kept : Confined ids machines w v) (ids_le : ids ⊆ ids') (machines_le : machines ⊆ machines') :
    Confined ids' machines' w v :=
  ⟨fun h other => kept.status h fun mem => other (ids_le mem), kept.finished,
    fun m other => kept.stack m fun mem => other (machines_le mem), kept.empty, kept.own, kept.size⟩

theorem setStatus (w : World G) (g : Gen) {t : Status G} (open_ : w.status g = .finished → t = .finished) :
    Confined [g.id] [] w (w.setStatus g t) := by
  refine ⟨fun h other => World.status_setStatus_of_ne (by simpa using other) t, fun h ended => ?_,
    fun _ _ => rfl, fun _ empty => empty, id, rfl⟩
  by_cases same : h.id = g.id
  · rw [World.status_congr _ same] at ended ⊢
    rw [open_ ended, World.status_setStatus_finished]
  · rw [World.status_setStatus_of_ne same, ended]

theorem begin (w : World G) {g : Gen} {t : Status G} (status : w.status g = t) (other : t ≠ .finished) :
    Confined [g.id] [] w (w.setStatus g .running) :=
  setStatus w g fun ended => absurd (status.symm.trans ended) other

theorem finish (w : World G) (g : Gen) : Confined [g.id] [] w (w.setStatus g .finished) :=
  setStatus w g fun _ => rfl

end Confined

/-- What waits in the generators with the given numbers still does so, and what has ended stays so. -/
structure Agrees (ids : List Nat) (w v : World G) : Prop where
  status : ∀ h : Gen, h.id ∈ ids → v.status h = w.status h
  finished : ∀ h : Gen, w.status h = .finished → v.status h = .finished

namespace Agrees

variable {ids ids' ms : List Nat} {u : World G}

theorem refl (ids : List Nat) (w : World G) : Agrees ids w w := ⟨fun _ _ => rfl, fun _ => id⟩

theorem sub (agrees : Agrees ids w v) (ids_le : ids' ⊆ ids) : Agrees ids' w v :=
  ⟨fun h mem => agrees.status h (ids_le mem), agrees.finished⟩

theorem after (agrees : Agrees ids w v) (kept : Confined ids' ms v u)
    (apart : ∀ i ∈ ids, i ∉ ids') : Agrees ids w u :=
  ⟨fun h mem => (kept.status h (apart _ mem)).trans (agrees.status h mem),
    fun h ended => kept.finished h (agrees.finished h ended)⟩

end Agrees

/-- The machines of some activations. -/
def machines (acts : List (Activation G)) : List Nat := acts.filterMap fun a => a.machine?.map Prod.fst

@[simp] theorem machines_nil : machines ([] : List (Activation G)) = [] := rfl

theorem machines_append (acts acts' : List (Activation G)) :
    machines (acts ++ acts') = machines acts ++ machines acts' := by simp [machines]

/-- The machines of some activations have proper frames, each on a stack of its own. -/
structure Rows (s : Store) (ms : List Nat) : Prop where
  own : s.Own
  inside : ∀ m ∈ ms, m < s.machines.size
  proper : ∀ m ∈ ms, ∀ v ∈ s.stack m, v.Proper
  distinct : ms.Nodup

theorem Rows.tail {s t : Store} {m : Nat} {ms : List Nat} (rows : Rows s (m :: ms)) (own : t.Own)
    (size : t.machines.size = s.machines.size) (others : ∀ n, n ≠ m → t.stack n = s.stack n) :
    Rows t ms ∧ ∀ n ∈ ms, t.stack n = s.stack n := by
  have distinct := List.nodup_cons.1 rows.distinct
  have same (n : Nat) (mem : n ∈ ms) : t.stack n = s.stack n :=
    others n fun same => distinct.1 (same ▸ mem)
  refine ⟨⟨own, fun n mem => ?_, fun n mem => ?_, distinct.2⟩, same⟩
  · exact size ▸ rows.inside n (.tail _ mem)
  · exact same n mem ▸ rows.proper n (.tail _ mem)

section Standing

variable {trace : Trace G} {c : Config G}

theorem Standing.inside_machines (standing : Standing trace c) {acts : List (Activation G)}
    (sub : acts ⊆ c.stack) {m : Nat} (mem : m ∈ machines acts) :
    m < c.world.store.machines.size := by
  obtain ⟨a, there, found⟩ := List.mem_filterMap.1 mem
  obtain ⟨⟨n, p⟩, machine, rfl⟩ := Option.map_eq_some_iff.1 found
  obtain ⟨g, -, ran, -⟩ := standing.seated.machine (sub there) machine
  exact standing.sound.ran n _ ran

/-- No machine is twice on a stack. -/
theorem Standing.nodup_machines (standing : Standing trace c) {acts : List (Activation G)}
    (sub : acts.Sublist c.stack) : (machines acts).Nodup := by
  have once := standing.active.once
  refine (List.Sublist.filterMap _ sub).nodup ?_
  rw [List.Nodup, List.pairwise_filterMap]
  rw [OneShot.active, List.Nodup, List.pairwise_filterMap] at once
  refine once.imp_of_mem fun {a b} here there apart m first n second same => ?_
  obtain ⟨⟨m', p⟩, machine, rfl⟩ := Option.map_eq_some_iff.1 first
  obtain ⟨⟨n', q⟩, machine', rfl⟩ := Option.map_eq_some_iff.1 second
  obtain ⟨g, rfl, ran, -⟩ := standing.seated.machine here machine
  obtain ⟨h, rfl, ran', -⟩ := standing.seated.machine there machine'
  cases same
  exact apart g.id rfl h.id rfl (standing.seated.once _ _ _ ran ran')

theorem Standing.rows (standing : Standing trace c) {acts : List (Activation G)} (sub : acts.Sublist c.stack) : Rows c.world.store (machines acts) where
  own := standing.sound.own
  inside _ mem := standing.inside_machines sub.subset mem
  proper m _ := standing.sound.onStacks m
  distinct := standing.nodup_machines sub

end Standing

/-- The generators whose bodies some activations are, by their numbers. -/
def seats (acts : List (Activation G)) : List Nat :=
  acts.filterMap fun a => match a with
    | .running g _ => some g.id
    | _ => none

section Acts

variable {g e : Gen} {m : Nat} {p : Machine.Phase} {r : Routine G} {acts : List (Activation G)}

@[simp] theorem machines_machine :
    machines (.running g (.library (.machine m p)) :: acts) = m :: machines acts := by
  simp [machines, Activation.machine?, Routine.machine?]

@[simp] theorem machines_relaying : machines (.relaying g r e :: acts) = machines acts := by
  simp [machines, Activation.machine?]

@[simp] theorem seats_running : seats (.running g r :: acts) = g.id :: seats acts := by simp [seats]

@[simp] theorem seats_relaying : seats (.relaying g r e :: acts) = seats acts := by simp [seats]

end Acts

theorem Routine.Passes.kept {ids ms : List Nat} {p : Routine G} (passes : p.Passes w.store)
    (kept : Confined ids ms w v) : p.Passes v.store := by
  cases passes with
  | process passes => exact .process passes
  | resent empty => exact .resent (kept.empty _ empty)

/-! ## Through a generator -/

/-- A stack without frames is set to itself. -/
theorem Store.Own.setStack_nil {s : Store} (own : s.Own) {m : Nat} (empty : s.stack m = []) :
    s.setStack m [] = s := by
  cases there : s.machines[m]? with
  | none =>
      have same : (s.machines.modify m fun r => { r with stack := .own [] }) = s.machines := by
        refine Array.ext_getElem? fun i => ?_
        rw [Array.getElem?_modify]
        split
        · rename_i same
          subst same
          simp [there]
        · rfl
      simp [Store.setStack, there, same]
  | some r =>
      obtain ⟨stack, owner⟩ := r
      obtain ⟨frames, made⟩ := own m _ there
      cases made
      rw [Store.stack_of_own there] at empty
      exact Store.setStack_self (empty ▸ there)

section Through

variable {S : List (Activation G)} {g : Gen}

/-- A body that lets a failure through ends by it. -/
theorem Routine.Passes.step {p : Routine G} (passes : p.Passes w.store) (own : w.store.Own)
    (exception : x.isException = true) (going : x.kind ≠ .stopIteration) :
    Config.step ⟨w, .running g p :: S, .reply (.raised x)⟩ =
      .ok ⟨w.setStatus g .finished, S, .reply (.raised x)⟩ := by
  have turn : p.step w (.raised x) = (w, .raise x) := by
    cases passes with
    | process through => simp [Routine.step, Process.step_of_passes through, Turn.map]
    | @resent m empty =>
        have ended : Machine.step w.store m .resent (.raised x) = (w.store, .raise x) := by
          simp [Machine.step, Machine.fail, exception, Machine.settle, empty, Machine.deliver,
            Outcome.finish, own.setStack_nil empty, Turn.raiseValue]
        simp only [Routine.step, Process.step, ended]
        rfl
  simp [Config.step, Config.deliver, turn, Config.turnOf, Config.leave, going, Config.reply]

theorem Routine.Passes.ends {p : Routine G} (passes : p.Passes w.store) (own : w.store.Own)
    (exception : x.isException = true) (going : x.kind ≠ .stopIteration) :
    Config.Glides ⟨w, .running g p :: S, .reply (.raised x)⟩
      ⟨w.setStatus g .finished, S, .reply (.raised x)⟩ := by
  refine .one ?_ (passes.step own exception going)
  cases passes <;> exact Config.silent_library ..

theorem Config.throw_finished (status : w.status g = .finished) (kind : g.kind = .generator) :
    Config.step ⟨w, S, .advance g (.throw (.exc x))⟩ = .ok ⟨w, S, .reply (.raised x)⟩ := by
  simp [Config.step, Config.advance, status, kind, Config.reply]

theorem Config.throw_suspended {p : Routine G} {how : Suspension}
    (status : w.status g = .suspended p how) (going : x.kind ≠ .stopIteration) :
    Config.step ⟨w, S, .advance g (.throw (.exc x))⟩ =
      .ok ⟨w.setStatus g .running, .running g p :: S, .reply (.raised x)⟩ := by
  simp [Config.step, Config.advance, status, Config.thrownInto, going, Config.reply]

theorem Config.throw_delegating {p : Routine G} {e : Gen}
    (status : w.status g = .delegating p e) (exception : x.isException = true) :
    Config.step ⟨w, S, .advance g (.throw (.exc x))⟩ =
      .ok ⟨w.setStatus g .running, .relaying g p e :: S, .advance e (.throw (.exc x))⟩ := by
  have no_exit : x.kind.isA .generatorExit = false := by
    by_contra exit
    rw [Exc.no_exception_of_exit (by simpa using exit)] at exception
    contradiction
  simp [Config.step, Config.advance, status, no_exit]

theorem Config.regain_raised {p : Routine G} {e : Gen} (going : x.kind ≠ .stopIteration) :
    Config.step ⟨w, .relaying g p e :: S, .reply (.raised x)⟩ =
      .ok ⟨w, .running g p :: S, .reply (.raised x)⟩ := by
  simp [Config.step, Config.deliver, Reply.ended, going, Config.reply]

/--
How a failure goes on from `c`, where `post` is what is in its way from the first body
on that does not let it through: it comes to that body, or out of all of them.
-/
inductive Falls (x : Exc) (v : World G) (S : List (Activation G)) (ids ms : List Nat)
    (c : Config G) : List (Gen × Routine G) → Prop
  | through {u : World G} (kept : Confined ids ms v u)
      (glides : c.Glides ⟨u, S, .reply (.raised x)⟩) : Falls x v S ids ms c []
  | lands {u : World G} {below : List (Activation G)} {q : Gen × Routine G}
      {rest : List (Gen × Routine G)}
      (glides : c.Glides ⟨u, .running q.1 q.2 :: below, .reply (.raised x)⟩) :
      Falls x v S ids ms c (q :: rest)

namespace Falls

variable {c d : Config G} {ids ids' ms ms' : List Nat} {S' : List (Activation G)}
  {l l' pre post : List (Gen × Routine G)}

theorem after (falls : Falls x v S ids ms d post) (first : c.Glides d) : Falls x v S ids ms c post := by
  cases falls with
  | through kept glides => exact .through kept (first.trans glides)
  | lands glides => exact .lands (first.trans glides)

theorem mono (falls : Falls x v S ids ms c post) (ids_le : ids ⊆ ids') (ms_le : ms ⊆ ms') :
    Falls x v S ids' ms' c post := by
  cases falls with
  | through kept glides => exact .through (kept.mono ids_le ms_le) glides
  | lands glides => exact .lands glides

/-- What starts from a world that was only changed so far. -/
theorem within (falls : Falls x v S ids ms c post) (kept : Confined ids' ms' w v) :
    Falls x w S (ids' ++ ids) (ms' ++ ms) c post := by
  cases falls with
  | through kept' glides => exact .through (kept.trans kept') glides
  | lands glides => exact .lands glides

/-- A failure falls through one list of bodies, and then through another one. -/
theorem chain (split : l ++ l' = pre ++ post) {P : Gen × Routine G → Prop} (all : ∀ q ∈ pre, P q)
    (first : ∀ pre post, l = pre ++ post → (∀ q ∈ pre, P q) → Falls x v S ids ms c post)
    (second : ∀ pre u, l' = pre ++ post → (∀ q ∈ pre, P q) → Confined ids ms v u →
      Falls x u S' ids' ms' ⟨u, S, .reply (.raised x)⟩ post) :
    Falls x v S' (ids ++ ids') (ms ++ ms') c post := by
  -- The first body that does not let it through is in one of the lists.
  have second : ∀ pre, l' = pre ++ post → (∀ q ∈ pre, P q) → Falls x v S ids ms c [] →
      Falls x v S' (ids ++ ids') (ms ++ ms') c post := by
    intro pre split all through
    cases through with
    | through kept glides => exact ((second pre _ split all kept).within kept).after glides
  obtain ⟨as, rfl, rest⟩ | ⟨bs, rfl, rfl⟩ := List.append_eq_append_iff.mp split
  · exact second as rest (fun q mem => all q (by simp [mem]))
      (first l [] (by simp) fun q mem => all q (by simp [mem]))
  · cases bs with
    | nil => exact second [] (by simp) (by simp) (first pre [] (by simp) all)
    | cons q bs =>
        cases first pre (q :: bs) rfl all with
        | lands glides => exact .lands glides

/-- A failure comes to a body. -/
theorem body {p : Routine G} (split : [(g, p)] = pre ++ post)
    (passes : ∀ q ∈ pre, q.2.Passes v.store) (own : v.store.Own)
    (exception : x.isException = true) (going : x.kind ≠ .stopIteration) :
    Falls x v S [g.id] [] ⟨v, .running g p :: S, .reply (.raised x)⟩ post := by
  obtain ⟨rfl, rfl⟩ | ⟨rfl, rfl⟩ := List.singleton_eq_append_iff.mp split
  · exact .lands (.refl _)
  · exact .through (.finish v g) ((passes (g, p) (by simp)).ends own exception going)

end Falls

/-- What is thrown into a generator comes to the bodies that wait in it, one after the other. -/
theorem Hang.falls {l : List (Gen × Routine G)} (hang : Hang w g l)
    (exception : x.isException = true) (going : x.kind ≠ .stopIteration)
    (distinct : (bodies l).Nodup) {pre post : List (Gen × Routine G)} (split : l = pre ++ post)
    (own : v.store.Own) (passes : ∀ q ∈ pre, q.2.Passes v.store)
    (agrees : Agrees (bodies l) w v) :
    Falls x v S (bodies l) [] ⟨v, S, .advance g (.throw (.exc x))⟩ post := by
  induction hang generalizing v S pre post with
  | @gone g status kind =>
      obtain ⟨rfl, rfl⟩ := List.append_eq_nil_iff.mp split.symm
      exact .through (.refl v) (.one (Config.silent_advance v S g (.throw (.exc x)))
        (Config.throw_finished (agrees.finished g status) kind))
  | @waits g p how status =>
      have status := (agrees.status g (by simp)).trans status
      have entered := Config.Glides.one (Config.silent_advance v S g (.throw (.exc x)))
        (Config.throw_suspended status going)
      have body := Falls.body (v := v.setStatus g .running) (S := S) split passes own exception going
      exact ((body.after entered).within (.begin v status (by simp))).mono (by simp) (by simp)
  | @relays g e p l status inner ih =>
      have status := (agrees.status g (by simp)).trans status
      have entered := Config.Glides.one (Config.silent_advance v S g (.throw (.exc x)))
        (Config.throw_delegating status exception)
      have begun := Confined.begin v status (by simp)
      simp only [bodies_append, bodies_cons, bodies_nil, List.nodup_append, List.mem_singleton]
        at distinct
      have agrees' : Agrees (bodies l) w (v.setStatus g .running) :=
        (agrees.sub (by simp)).after begun fun i mem here =>
          distinct.2.2 i mem g.id rfl (List.mem_singleton.1 here)
      have falls : Falls x (v.setStatus g .running) S (bodies l ++ [g.id]) ([] ++ [])
          ⟨v.setStatus g .running, .relaying g p e :: S, .advance e (.throw (.exc x))⟩ post :=
        Falls.chain split passes
          (fun pre post split passes => ih distinct.1 split own passes agrees')
          (fun pre u split passes kept => (Falls.body split
            (fun q mem => (passes q mem).kept (w := v.setStatus g .running) kept) (kept.own own)
            exception going).after
              (.one (Config.silent_relaying u S g e p _) (Config.regain_raised going)))
      exact ((falls.after entered).within begun).mono (by simp) (by simp)

end Through

/-! ## Through the frames of a machine -/

section Frames

variable {S : List (Activation G)} {g : Gen} {m : Nat} {fs : List Val}

/-- The machine `m`, which `g` runs, is about to deliver a failure to its stack. -/
def Config.failing (w : World G) (S : List (Activation G)) (g : Gen) (m : Nat) (x : Exc) :
    Config G :=
  let (store, turn) := Machine.settle w.store m (.failed (.exc x))
  Config.turnOf { w with store } S g ((turn.map (.machine m)).map .library)

/-- A failure passes the frames of handlers, and goes into the first generator. -/
theorem Line.deliver {l : List (Gen × Routine G)} (line : Line w fs l) (v : Val) :
    ∃ rest turn, ∀ s, Machine.deliver s (.failed v) fs = (s, rest, turn) := by
  induction line with
  | nil => exact ⟨_, _, fun s => rfl⟩
  | handler below ih =>
      obtain ⟨rest, turn, delivers⟩ := ih
      exact ⟨rest, turn, fun s => by rw [Machine.deliver, delivers]⟩
  | generator hang below ih => exact ⟨_, _, fun s => rfl⟩

namespace Config

theorem failing_nil (own : w.store.Own) (empty : w.store.stack m = []) (going : x.kind ≠ .stopIteration) :
    failing w S g m x = ⟨w.setStatus g .finished, S, .reply (.raised x)⟩ := by
  simp [failing, Machine.settle, empty, Machine.deliver, Outcome.finish, own.setStack_nil empty,
    Turn.raiseValue, Turn.map, turnOf, leave, going, reply]

theorem failing_handler {l : List (Gen × Routine G)} {h : Handler} {t : Tag} (own : w.store.Own)
    (inside : m < w.store.machines.size)
    (stack : w.store.stack m = .frame (.handler (.handler h) t) :: fs) (line : Line v fs l) :
    failing w S g m x = failing { w with store := w.store.setStack m fs } S g m x := by
  obtain ⟨owner, there⟩ := own.machine inside
  obtain ⟨rest, turn, delivers⟩ := line.deliver (.exc x)
  simp [failing, Machine.settle, stack, Machine.deliver, delivers, Store.stack_setStack there,
    Store.setStack_setStack there]

theorem failing_generator {e : Gen} {t : Tag} (own : w.store.Own) (inside : m < w.store.machines.size)
    (stack : w.store.stack m = .frame (.generator (.gen e) t) :: fs) :
    failing w S g m x =
      ⟨w, .running g (.library (.machine m (.advancing (.gen e)))) :: S,
        .advance e (.throw (.exc x))⟩ := by
  obtain ⟨owner, there⟩ := own.machine inside
  have same : w.store.setStack m (.frame (.generator (.gen e) t) :: fs) = w.store :=
    Store.setStack_self (stack ▸ there)
  simp [failing, Machine.settle, stack, Machine.deliver, same, Outcome.input, Turn.map, turnOf]

theorem step_calling (exception : x.isException = true) :
    step ⟨w, .running g (.library (.machine m .calling)) :: S, .reply (.raised x)⟩ =
      .ok (failing w S g m x) := by
  simp only [step, deliver, Routine.step, Process.step, Machine.step, Machine.fail, exception,
    if_true]
  rfl

theorem step_advancing {content v : Val} (exception : x.isException = true)
    (going : x.kind ≠ .stopIteration) (stack : w.store.stack m = v :: fs) :
    step ⟨w, .running g (.library (.machine m (.advancing content))) :: S, .reply (.raised x)⟩ =
      .ok (failing { w with store := w.store.setStack m fs } S g m x) := by
  simp only [step, deliver, Routine.step, Process.step, Machine.step, Machine.broken,
    Machine.popThen, stack, Machine.fail, if_neg going, exception, if_true]
  rfl

end Config

/-- The stack of a machine is set. -/
theorem Confined.setStack (own : w.store.Own) (inside : m < w.store.machines.size) (fs : List Val)
    (shorter : w.store.stack m = [] → fs = []) :
    Confined [] [m] w { w with store := w.store.setStack m fs } := by
  have sets := Store.Sets.setStack own inside fs
  refine ⟨fun _ _ => rfl, fun _ ended => ended, fun n other => sets.others n (by simpa using other), fun n empty => ?_,
    fun _ => sets.own, sets.size⟩
  by_cases same : n = m
  · subst same
    exact sets.stack_eq.trans (shorter empty)
  · exact (sets.others n same).trans empty

/-- A failure that a machine delivers comes to the bodies that wait in its frames. -/
theorem Line.falls {l : List (Gen × Routine G)} (line : Line w fs l)
    (exception : x.isException = true) (going : x.kind ≠ .stopIteration)
    (distinct : (bodies l).Nodup) {pre post : List (Gen × Routine G)} (split : l = pre ++ post)
    (own : v.store.Own) (inside : m < v.store.machines.size) (stack : v.store.stack m = fs)
    (passes : ∀ q ∈ pre, q.2.Passes v.store)
    (agrees : Agrees (bodies l) w v) :
    Falls x v S (g.id :: bodies l) [m] (Config.failing v S g m x) post := by
  induction line generalizing v pre post with
  | nil =>
      obtain ⟨rfl, rfl⟩ := List.append_eq_nil_iff.mp split.symm
      rw [Config.failing_nil own stack going]
      exact .through ((Confined.finish v g).mono (by simp) (by simp)) (.refl _)
  | @handler h t fs l below ih =>
      have popped := Confined.setStack own inside fs (by simp [stack])
      rw [Config.failing_handler own inside stack below]
      have sets := Store.Sets.setStack own inside fs
      refine ((ih distinct split sets.own (sets.size ▸ inside) sets.stack_eq
        (fun q mem => (passes q mem).kept popped) (agrees.after popped (by simp))).within popped).mono
          (by simp) (by simp)
  | @generator e t fs l l' hang below ih =>
      rw [Config.failing_generator own inside stack]
      simp only [bodies_append, List.nodup_append] at distinct
      suffices falls : Falls x v S (bodies l ++ ([] ++ g.id :: bodies l')) ([] ++ ([m] ++ [m]))
          ⟨v, .running g (.library (.machine m (.advancing (.gen e)))) :: S,
            .advance e (.throw (.exc x))⟩ post from falls.mono (by simp) (by simp)
      refine Falls.chain split passes (fun pre post split passes => hang.falls exception going
        distinct.1 split own passes (agrees.sub (by simp))) ?_
      intro pre u split passes kept
      have there : u.store.stack m = .frame (.generator (.gen e) t) :: fs :=
        (kept.stack m (by simp)).trans stack
      have inside : m < u.store.machines.size := kept.size ▸ inside
      have popped := Confined.setStack (kept.own own) inside fs (by simp [there])
      have sets := Store.Sets.setStack (kept.own own) inside fs
      have falls := ih (v := { u with store := u.store.setStack m fs }) distinct.2.1 split sets.own
        (sets.size ▸ inside) sets.stack_eq (fun q mem => ((passes q mem).kept kept).kept popped)
        (((agrees.sub (by simp)).after kept fun i mem here => distinct.2.2 i here i mem rfl).after
          popped (by simp))
      exact (falls.within popped).after
        (.one (Config.silent_library ..) (Config.step_advancing exception going there))

end Frames

/-! ## Down the joined stack -/

/-- A failure that comes to a machine comes to the bodies that wait in its frames. -/
theorem Line.comes {S : List (Activation G)} {g : Gen} {m : Nat} {fs : List Val} {p : Machine.Phase}
    {l : List (Gen × Routine G)} (line : Line w fs l) (guards : p.Guards (v.store.stack m) fs)
    (exception : x.isException = true) (going : x.kind ≠ .stopIteration)
    (distinct : (bodies l).Nodup) {pre post : List (Gen × Routine G)} (split : l = pre ++ post)
    (own : v.store.Own) (inside : m < v.store.machines.size) (passes : ∀ q ∈ pre, q.2.Passes v.store)
    (agrees : Agrees (bodies l) w v) :
    Falls x v S (g.id :: bodies l) [m]
      ⟨v, .running g (.library (.machine m p)) :: S, .reply (.raised x)⟩ post := by
  generalize stack : v.store.stack m = there at guards
  cases guards with
  | calling =>
      exact (line.falls exception going distinct split own inside stack passes agrees).after
        (.one (Config.silent_library ..) (Config.step_calling exception))
  | advancing content top =>
      have popped := Confined.setStack own inside fs (by simp [stack])
      have sets := Store.Sets.setStack own inside fs
      have falls := line.falls (v := { v with store := v.store.setStack m fs }) (S := S) (g := g)
        exception going distinct split sets.own (sets.size ▸ inside) sets.stack_eq
        (fun q mem => (passes q mem).kept popped) (agrees.after popped (by simp))
      exact ((falls.within popped).after (.one (Config.silent_library ..)
        (Config.step_advancing exception going stack))).mono (by simp) (by simp)

/-- A failure that has come out of what was on top comes to the bodies that wait below. -/
theorem Joins.falls {acts S : List (Activation G)} {l : List (Gen × Routine G)}
    (joins : Joins w acts l) (exception : x.isException = true) (going : x.kind ≠ .stopIteration)
    (distinct : (bodies l ++ seats acts).Nodup) (single : (machines acts).Nodup)
    {pre post : List (Gen × Routine G)} (split : l = pre ++ post) (own : v.store.Own)
    (inside : ∀ m ∈ machines acts, m < v.store.machines.size)
    (passes : ∀ q ∈ pre, q.2.Passes v.store)
    (agrees : Agrees (bodies l) w v)
    (unchanged : ∀ m ∈ machines acts, v.store.stack m = w.store.stack m) :
    Falls x v S (bodies l ++ seats acts) (machines acts) ⟨v, acts ++ S, .reply (.raised x)⟩ post := by
  induction joins generalizing v pre post with
  | nil =>
      obtain ⟨rfl, rfl⟩ := List.append_eq_nil_iff.mp split.symm
      exact .through (.refl v) (.refl _)
  | @machine g m p fs acts l l' guards line below ih =>
      simp only [machines_machine, List.nodup_cons, List.forall_mem_cons] at single inside unchanged
      simp only [bodies_append, seats_running] at distinct
      suffices falls : Falls x v S (g.id :: bodies l ++ (bodies l' ++ seats acts)) ([m] ++ machines acts)
          ⟨v, .running g (.library (.machine m p)) :: acts ++ S, .reply (.raised x)⟩ post by
        refine falls.mono (fun i mem => ?_) (by simp)
        simp only [bodies_append, seats_running]
        grind
      refine Falls.chain split passes (fun pre post split passes => line.comes (unchanged.1 ▸ guards)
        exception going (by grind) split own inside.1 passes (agrees.sub (by simp))) ?_
      intro pre u split passes kept
      refine ih (by grind) single.2 split (kept.own own) (fun n mem => kept.size ▸ inside.2 n mem)
        (fun q mem => (passes q mem).kept kept)
        ((agrees.sub (by simp)).after kept fun i mem => by grind) fun n mem => ?_
      · have other : n ∉ [m] := by
          rintro here
          exact single.1 (List.mem_singleton.mp here ▸ mem)
        exact (kept.stack n other).trans (unchanged.2 n mem)
  | @relays g e p acts l below ih =>
      simp only [machines_relaying] at single inside unchanged
      simp only [bodies_cons, seats_relaying] at distinct
      have regained := Config.Glides.one (Config.silent_relaying v (acts ++ S) g e p _)
        (Config.regain_raised going)
      suffices falls : Falls x v S ([g.id] ++ (bodies l ++ seats acts)) ([] ++ machines acts)
          ⟨v, .relaying g p e :: acts ++ S, .reply (.raised x)⟩ post from
        falls.mono (by simp) (by simp)
      refine Falls.chain (l := [(g, p)]) split passes (fun pre post split passes =>
        (Falls.body split passes own exception going).after regained) ?_
      intro pre u split passes kept
      refine ih (by grind) single split (kept.own own) (fun n mem => kept.size ▸ inside n mem)
        (fun q mem => (passes q mem).kept kept)
        ((agrees.sub (by simp)).after kept fun i mem => by grind) fun n mem => ?_
      · exact (kept.stack n (by simp)).trans (unchanged n mem)

end OneShot
