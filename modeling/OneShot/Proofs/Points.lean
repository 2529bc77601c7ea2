import OneShot.Proofs.Locations
import OneShot.Proofs.Quiet
import OneShot.Proofs.Reaching
import OneShot.Proofs.Deep.Program
import Mathlib.Data.Multiset.AddSub
import Mathlib.Data.Multiset.MapFold
import Mathlib.Data.Multiset.UnionInter
import Mathlib.Data.Multiset.Bind
import Mathlib.Tactic.Abel

/-!
# Points of a run

What is known of a world is a collection of facts, each about one place, and no
two about the same.  A step of the kernel changes some of them and leaves all
others alone.  A point of a run is a configuration of which the activations,
the signal, the memory and such facts are known.
-/

namespace OneShot

variable {G : Guest}

/-- What is at a place. -/
inductive Fact (G : Guest) where
  | gen (i : Nat) (t : Status G)
  | machine (i : Nat) (frames : List Val)
  | cont (i : Nat) (frames : List Val) (taken : Bool)
  | settings (S : Settings)

abbrev Facts (G : Guest) := Multiset (Fact G)

namespace Fact

def loc : Fact G → Loc
  | .gen i _ => .gen i
  | .machine i _ => .machine i
  | .cont i _ _ => .cont i
  | .settings _ => .settings

def Holds (w : World G) : Fact G → Prop
  | .gen i t => w.gens[i]? = some t
  | .machine i frames => ∃ owner, w.store.machines[i]? = some ⟨.own frames, owner⟩
  | .cont i frames taken => ∃ inner, w.store.conts[i]? = some ⟨frames, inner, taken⟩
  | .settings S => w.store.settings = S

variable {w w' : World G} {f : Fact G}

theorem Holds.has (h : f.Holds w) : w.Has f.loc := by
  cases f with
  | gen i t => exact World.has_gen h
  | machine i frames => exact World.has_machine h.choose_spec
  | cont i frames taken => exact World.has_cont h.choose_spec
  | settings S => trivial

theorem Holds.keep {places : List Loc} (h : f.Holds w) (changes : w.Changes w' places)
    (out : f.loc ∉ places) : f.Holds w' := by
  obtain ⟨same, -⟩ := changes f.loc h.has out
  cases f with
  | gen i t => exact same.trans h
  | machine i frames =>
      obtain ⟨owner, h⟩ := h
      exact ⟨owner, same.trans h⟩
  | cont i frames taken =>
      obtain ⟨inner, h⟩ := h
      exact ⟨inner, same.trans h⟩
  | settings S => exact same.trans h

end Fact

/-- A world in which facts hold, each at a place of its own. -/
structure World.Bears (w : World G) (F : Facts G) : Prop where
  holds : ∀ f ∈ F, f.Holds w
  apart : (F.map Fact.loc).Nodup

namespace World.Bears

variable {w w' : World G} {F E : Facts G} {f : Fact G}

theorem of_eq (h : w.Bears F) (same : F = E) : w.Bears E := same ▸ h

theorem here (h : w.Bears ({f} + F)) : f.Holds w :=
  h.holds f (by simp)

theorem left (h : w.Bears (F + E)) : w.Bears F where
  holds f mem := h.holds f (Multiset.mem_add.2 (.inl mem))
  apart := by
    have apart := h.apart
    rw [Multiset.map_add, Multiset.nodup_add] at apart
    exact apart.1

theorem right (h : w.Bears (F + E)) : w.Bears E :=
  (add_comm F E ▸ h).left

theorem loc_ne (h : w.Bears ({f} + F)) : ∀ e ∈ F, e.loc ≠ f.loc := by
  intro e mem same
  have apart := h.apart
  rw [Multiset.map_add, Multiset.nodup_add] at apart
  have here : f.loc ∈ ({f} : Facts G).map Fact.loc := by simp
  exact Multiset.disjoint_left.1 apart.2.2 here (Multiset.mem_map.2 ⟨e, mem, same⟩)

/-- One fact is replaced by another one about the same place. -/
theorem change (h : w.Bears ({f} + F)) {f' : Fact G} (changes : w.Changes w' [f.loc])
    (same : f'.loc = f.loc) (holds : f'.Holds w') : w'.Bears ({f'} + F) where
  holds e mem := by
    rcases Multiset.mem_add.1 mem with here | there
    · cases Multiset.mem_singleton.1 here
      exact holds
    · exact (h.right.holds e there).keep changes (by simpa using h.loc_ne e there)
  apart := by
    have apart := h.apart
    rw [Multiset.map_add] at apart ⊢
    simpa [same] using apart

theorem keep (h : w.Bears F) (changes : w.Changes w' []) : w'.Bears F where
  holds e mem := (h.holds e mem).keep changes (by simp)
  apart := h.apart

/-- What is new is at a place of its own. -/
theorem add (h : w.Bears F) (changes : w.Changes w' []) (holds : f.Holds w')
    (new : ¬ w.Has f.loc) : w'.Bears ({f} + F) where
  holds e mem := by
    rcases Multiset.mem_add.1 mem with here | there
    · cases Multiset.mem_singleton.1 here
      exact holds
    · exact (h.keep changes).holds e there
  apart := by
    rw [Multiset.map_add, Multiset.nodup_add]
    refine ⟨by simp, h.apart, Multiset.disjoint_left.2 fun {l} here there => ?_⟩
    obtain ⟨e, mem, rfl⟩ := Multiset.mem_map.1 there
    obtain ⟨e', mem', same⟩ := Multiset.mem_map.1 here
    cases Multiset.mem_singleton.1 mem'
    exact new (same ▸ (h.holds e mem).has)

theorem setStatus {g : Gen} {t : Status G} (h : w.Bears ({.gen g.id t} + F)) (t' : Status G) :
    (w.setStatus g t').Bears ({.gen g.id t'} + F) :=
  h.change (World.Changes.setStatus w g t') rfl
    (World.getElem?_setStatus (World.has_gen h.here) t')

theorem store (h : w.Bears F) (store : Store) (same : store.engine = w.store.engine) :
    World.Bears { w with store } F :=
  h.keep (World.Changes.of_store store same)

theorem memory (h : w.Bears F) (memory : G.Memory) : World.Bears { w with memory } F where
  holds f mem := by
    have := h.holds f mem
    cases f <;> exact this
  apart := h.apart

theorem spawn (h : w.Bears F) (kind : GenKind) (name : String) (r : Routine G) :
    (w.spawn kind name r).1.Bears
      ({.gen (w.spawn kind name r).2.id (.fresh r)} + F) :=
  h.add (World.Changes.spawn w kind name r) (World.getElem?_spawn w kind name r) (Nat.lt_irrefl _)

theorem stack {m : Nat} {frames : List Val} (h : w.Bears ({.machine m frames} + F)) :
    w.store.stack m = frames := by
  obtain ⟨owner, there⟩ := h.here
  exact Store.stack_of_own there

theorem setStack {m : Nat} {frames : List Val} (h : w.Bears ({.machine m frames} + F))
    (frames' : List Val) :
    World.Bears { w with store := w.store.setStack m frames' } ({.machine m frames'} + F) := by
  obtain ⟨owner, there⟩ := h.here
  exact h.change (World.Changes.setStack there frames') rfl
    ⟨owner, Store.machines_setStack there frames'⟩

theorem frames {k : Cont} {frames : List Val} {taken : Bool}
    (h : w.Bears ({.cont k.index frames taken} + F)) : w.store.frames k = frames := by
  obtain ⟨inner, there⟩ := h.here
  simp [Store.frames, there]

theorem isTaken {k : Cont} {frames : List Val} {taken : Bool}
    (h : w.Bears ({.cont k.index frames taken} + F)) : w.store.isTaken k = taken := by
  obtain ⟨inner, there⟩ := h.here
  simp [Store.isTaken, there]

theorem take {k : Cont} {frames : List Val} (h : w.Bears ({.cont k.index frames false} + F)) :
    World.Bears { w with store := (w.store.take k).1 } ({.cont k.index frames true} + F) := by
  obtain ⟨inner, there⟩ := h.here
  exact h.change (World.Changes.take w k) rfl ⟨inner, (Store.conts_take there).2⟩

theorem newCont (h : w.Bears F) (frames : List Val) (inner : Option Val) :
    World.Bears { w with store := (w.store.newCont frames inner).1 }
      ({.cont (w.store.newCont frames inner).2.index frames false} + F) :=
  h.add (World.Changes.newCont w frames inner) ⟨inner, by simp [Store.newCont]⟩ (Nat.lt_irrefl _)

theorem newMachine (h : w.Bears F) (frames : List Val) (owner : Val) :
    World.Bears { w with store := (w.store.newMachine (.own frames) owner).1 }
      ({.machine (w.store.newMachine (.own frames) owner).2 frames} + F) :=
  h.add (World.Changes.newMachine w (.own frames) owner) ⟨owner, by simp [Store.newMachine]⟩
    (Nat.lt_irrefl _)

end World.Bears

/-! ## Points -/

open Config (Leads)

/-- A configuration with given activations and a signal, in a world that bears facts. -/
def At (A : List (Activation G)) (signal : Signal) (m : G.Memory) (F : Facts G) (C : Config G) :
    Prop :=
  ∃ w : World G, C = ⟨w, A, signal⟩ ∧ w.memory = m ∧ w.Bears F

variable {A B : List (Activation G)} {signal signal' : Signal} {m m' : G.Memory} {F E : Facts G}
  {C : Config G}

theorem At.of_eq (h : At A signal m F C) (same : F = E) : At A signal m E C := same ▸ h

theorem At.left (h : At A signal m (F + E) C) : At A signal m F C := by
  obtain ⟨w, rfl, memory, bears⟩ := h
  exact ⟨w, rfl, memory, bears.left⟩

theorem At.right (h : At A signal m (F + E) C) : At A signal m E C :=
  (h.of_eq (add_comm F E)).left

theorem At.mk {w : World G} (bears : w.Bears F) : At A signal w.memory F ⟨w, A, signal⟩ :=
  ⟨w, rfl, rfl, bears⟩

/-- One step from a point to another. -/
theorem At.step (h : At A signal m F C)
    (next : ∀ w : World G, w.memory = m → w.Bears F → ∃ w', Config.step ⟨w, A, signal⟩ =
      .ok ⟨w', B, signal'⟩ ∧ w'.memory = m' ∧ w'.Bears E) :
    Leads 1 C (At B signal' m' E) := by
  obtain ⟨w, rfl, memory, bears⟩ := h
  obtain ⟨w', stepped, memory', bears'⟩ := next w memory bears
  exact .step stepped (.here ⟨w', rfl, memory', bears'⟩)

theorem Config.step_advance' (w : World G) (A : List (Activation G)) (g : Gen) (i : Input) :
    Config.step ⟨w, A, .advance g i⟩ = .ok (Config.advance w A g i) := by
  cases A <;> rfl

theorem Config.step_call' (w : World G) (A : List (Activation G)) (f : Val) (args : List Val)
    (caller : Caller) :
    Config.step ⟨w, A, .call f args caller⟩ = .ok (Config.call w A f args caller) := by
  cases A <;> rfl

theorem Config.step_close' (w : World G) (A : List (Activation G)) (g : Gen) :
    Config.step ⟨w, A, .close g⟩ = .ok (Config.close w A g) := by
  cases A <;> rfl

/-! ## Generators that delegate -/

variable {g d : Gen} {p : Routine G} {a : Deep.Answer}

/-- An answer that comes to a generator that delegates goes on in its body. -/
theorem At.ended (h : At (.relaying g p d :: A) (.reply a.reply) m F C) :
    Leads 1 C (At (.running g p :: A) (.reply a.reply) m F) := by
  refine h.step fun _ memory bears => ⟨_, ?_, memory, bears⟩
  cases a with
  | value v => rfl
  | failed x =>
      refine congrArg Except.ok ?_
      simp only [Config.deliver, Deep.Answer.reply, Reply.ended, if_neg x.noStop]
      rfl

theorem At.yielded {v : Val}
    (h : At (.relaying g p d :: A) (.reply (.yielded v)) m ({.gen g.id .running} + F) C) :
    Leads 1 C (At A (.reply (.yielded v)) m ({.gen g.id (.delegating p d)} + F)) :=
  h.step fun _ memory bears => ⟨_, rfl, memory, bears.setStatus (.delegating p d)⟩

theorem At.suspended {how : Suspension}
    (h : At A (.advance g a.input) m ({.gen g.id (.suspended p how)} + F) C) :
    Leads 1 C (At (.running g p :: A) (.reply a.reply) m ({.gen g.id .running} + F)) := by
  refine h.step fun w memory bears =>
    ⟨w.setStatus g .running, ?_, memory, bears.setStatus .running⟩
  have status := World.status_of bears.here
  rw [Config.step_advance']
  cases a with
  | value v => simp only [Deep.Answer.input, Config.advance, status, Deep.Answer.reply, Config.reply]
  | failed x =>
      have thrown : Config.thrownInto w how (.exc x.exc) = (w, some x.exc) := by
        simp [Config.thrownInto, x.noStop]
      simp only [Deep.Answer.input, Config.advance, status, thrown, Deep.Answer.reply, Config.reply]

theorem Deep.Failure.no_generatorExit (x : Deep.Failure) :
    x.exc.kind.isA .generatorExit = false := by
  have exception := x.isException
  unfold Exc.isException at exception
  generalize x.exc.kind = k at exception ⊢
  revert exception
  cases k <;> decide

theorem At.delegating
    (h : At A (.advance g a.input) m ({.gen g.id (.delegating p d)} + F) C) :
    Leads 1 C (At (.relaying g p d :: A) (.advance d a.input) m ({.gen g.id .running} + F)) := by
  refine h.step fun w memory bears =>
    ⟨w.setStatus g .running, ?_, memory, bears.setStatus .running⟩
  have status := World.status_of bears.here
  rw [Config.step_advance']
  cases a with
  | value v => simp only [Deep.Answer.input, Config.advance, status]
  | failed x =>
      simp only [Deep.Answer.input, Config.advance, status, x.no_generatorExit]
      rfl

theorem At.fresh
    (h : At A (.advance g (.send .none)) m ({.gen g.id (.fresh p)} + F) C) :
    Leads 1 C (At (.running g p :: A) (.reply (.value .none)) m ({.gen g.id .running} + F)) := by
  refine h.step fun w memory bears =>
    ⟨w.setStatus g .running, ?_, memory, bears.setStatus .running⟩
  have status := World.status_of bears.here
  rw [Config.step_advance']
  simp only [Config.advance, status, Config.reply]

/-! ## Chains -/

/-- A generator that has another one run in its place. -/
structure Hop (G : Guest) where
  gen : Gen
  routine : Routine G

variable {hs : List (Hop G)}

/-- The last generator of a chain that begins with `d`. -/
def bottom (d : Gen) : List (Hop G) → Gen
  | [] => d
  | l :: hs => bottom l.gen hs

/-- The facts of a chain that has come to rest. -/
def restingHops (d : Gen) : List (Hop G) → Facts G
  | [] => 0
  | l :: hs => {.gen l.gen.id (.delegating l.routine d)} + restingHops l.gen hs

/-- The facts of a chain under way. -/
def runningHops : List (Hop G) → Facts G
  | [] => 0
  | l :: hs => {.gen l.gen.id .running} + runningHops hs

def relayingHops (d : Gen) : List (Hop G) → List (Activation G)
  | [] => []
  | l :: hs => .relaying l.gen l.routine d :: relayingHops l.gen hs

/-- What is sent or thrown into a chain at rest goes to its first generator. -/
theorem At.intoChain
    (h : At A (.advance (bottom d hs) a.input) m (restingHops d hs + F) C) :
    Leads 0 C (At (relayingHops d hs ++ A) (.advance d a.input) m (runningHops hs + F)) := by
  induction hs generalizing d F with
  | nil => exact .here h
  | cons l hs ih =>
      have inner := ih (d := l.gen) (F := {.gen l.gen.id (.delegating l.routine d)} + F)
        (h.of_eq (by simp only [restingHops]; abel))
      refine inner.followed fun C' there => ?_
      have delegated := At.delegating (F := runningHops hs + F) (there.of_eq (by abel))
      refine (delegated.mono fun C'' there => there.of_eq ?_).weaken (Nat.zero_le _)
      simp only [runningHops]
      abel

/-- What is yielded goes out of a chain, which is at rest then. -/
theorem At.outOfChain {v : Val}
    (h : At (relayingHops d hs ++ A) (.reply (.yielded v)) m (runningHops hs + F) C) :
    Leads 0 C (At A (.reply (.yielded v)) m (restingHops d hs + F)) := by
  induction hs generalizing d F C with
  | nil => exact .here h
  | cons l hs ih =>
      have outer := At.yielded (F := runningHops hs + F) (h.of_eq (by
        simp only [runningHops]; abel))
      refine outer.after fun C' there => ?_
      have rest := ih (d := l.gen) (F := {.gen l.gen.id (.delegating l.routine d)} + F)
        (there.of_eq (by abel))
      refine rest.mono fun C'' there => there.of_eq ?_
      simp only [restingHops]
      abel

end OneShot
