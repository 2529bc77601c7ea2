import OneShot.Proofs.Joined.Awaiting

/-!
# The steps of a program

What the kernel comes to when a program takes a step: the next program, the end of
what the outermost machine was started for, an effect that nobody answers, or an
escape.
-/

namespace OneShot.Joined

open Config (Leads)
open Deep (Failure Result)

variable {c : Code} {V : Drivers c} {J J' : Program c} {C : Config (guest c)} {s : c.State}
  {a : Deep.Answer}

/-- An effect has come to the driver that nobody has answered; everything was captured. -/
def Uncaught (V : Drivers c) (J : Program c) (e : Effect) (s : c.State) (C : Config (guest c)) : Prop :=
  ∃ D B es mem args context p us k id g m, V D B ∧ Recalls J es mem ∧
    Deep.Place context ∧ pieceMarks (p :: us) = .code s :: stackMarks J.stack ∧
      At (D g) (.reply (.yielded (.resend id ⟨.effect e, args, .cont k, context⟩))) mem
        ({.cont k.index (vals (p :: us)) false} + (facts (p :: us) +
          ({.gen g.id (.suspended (Tip.relay m).routine (Tip.relay m : Tip c).how)} +
            ((Tip.relay m).facts + (entryFacts es + B))))) C

/-- The arguments with which an operation is performed. -/
inductive Carried : Operation c.Task → List Val → Facts (guest c) → Prop
  | plain {o : Operation c.Task} (other : ∀ n t, o ≠ .await n t) : Carried o o.args 0
  /-- A coroutine that was not started. -/
  | await {g : Gen} (kind : g.kind = .coroutine) (n : Nat) (t : c.Task) :
      Carried (.await n t) [.gen g] {.gen g.id (.fresh (.guest (Body.task t)))}

/-- An operation has come to the driver that nobody has answered; everything was captured. -/
def Resent (V : Drivers c) (J : Program c) (o : Operation c.Task) (s : c.State) (C : Config (guest c)) : Prop :=
  ∃ D B es mem a context p us k id g m I, V D B ∧ Recalls J es mem ∧ Recorded B o.caller context ∧
    Carried o a.values I ∧ Piece.Waits p s ∧ pieceMarks (p :: us) = .code s :: stackMarks J.stack ∧
      At (D g) (.reply (.yielded (.resend id ⟨.effect o.effect, a, .cont k, context⟩))) mem
        ({.cont k.index (vals (p :: us)) false} + (facts (p :: us) +
          ({.gen g.id (.suspended (Tip.relay m).routine (Tip.relay m : Tip c).how)} +
            ((Tip.relay m).facts + (I + (entryFacts es + B)))))) C

theorem Resent.uncaught {o : Operation c.Task} (h : Resent V J o s C) : Uncaught V J o.effect s C := by
  obtain ⟨D, B, es, mem, a, context, p, us, k, id, g, m, I, driver, recalls, place, carried, waits, marked, here⟩ := h
  exact ⟨D, B, es, mem, a, context, p, us, k, id, g, m, driver, recalls, place.place, marked,
    (here.of_eq (E := I + _) (by abel)).right⟩

/-- An escape has come to the driver. -/
def Escapes (V : Drivers c) (J : Program c) (t : c.Task) (s : c.State) (held : List (Part c.State))
    (C : Config (guest c)) : Prop :=
  ∃ D B es mem, V D B ∧ Recalls J es mem ∧
    Escaped D t s (stackMarks J.stack) mem (entryFacts es + B) (stackMarks held) C

/-- What the kernel comes to when a program takes a step. -/
inductive Comes (V : Drivers c) (J : Program c) (C : Config (guest c)) : Next c → Prop
  | more {J' : Program c} (advances : Advances V J J' C) : Comes V J C (.more J')
  | finished {J' : Program c} {r : Result} {D : Base c} {B : Facts (guest c)}
      {es : List (Entry c)} {mem : Memo c} (driver : V D B) (recalls : Recalls J' es mem)
      (arrived : Arrived D r mem (entryFacts es + B) [] C) : Comes V J C (.finished J' r)
  | leaves {J' : Program c} {o : Operation c.Task} {s : c.State}
      (resent : Leads 1 C (Resent V J' o s)) : Comes V J C (.leaves J' o s)
  | escapes {J' : Program c} {t : c.Task} {s : c.State} {held : List (Part c.State)}
      (escapes : Leads 1 C (Escapes V J' t s held)) : Comes V J C (.escapes J' t s held)

theorem Comes.of_carries (h : Leads 1 C (Carries V J')) : Comes V J C (.more J') :=
  .more (.inl h)

/-! ## Code -/

/-- What an operation comes to that code performs. -/
theorem Performed.comes {D : Base c} {B : Facts (guest c)} {es : List (Entry c)} {mem : Memo c}
    {o : Operation c.Task} (driver : V D B) (recalls : Recalls J' es mem)
    (h : Leads 1 C (Performed D mem (stackMarks J'.stack) s o (entryFacts es + B))) :
    Comes V J C (J'.performed o s) := by
  have next {P : Config (guest c) → Prop}
      (imp : ∀ C', Performed D mem (stackMarks J'.stack) s o (entryFacts es + B) C' → Leads 0 C' P) :
      Leads 1 C P := h.bind imp
  simp only [Program.performed]
  cases found : owner? o J'.stack with
  | none =>
      refine .leaves (next fun C' performed => ?_)
      have free : Free o.effect (.code s :: stackMarks J'.stack) := fun b mem =>
        owner?_none found b (by simpa using mem)
      cases performed with
      | @made _ a context p R C other waits values place dispatched =>
          obtain ⟨us, k, id, g, m, marked, here⟩ := dispatched.unanswered free
          refine .here ⟨D, B, es, mem, a, context, p, us, k, id, g, m, 0, driver, recalls,
            place.mono fun f there => Multiset.mem_add.2 (.inr there), values ▸ .plain other, waits, marked, ?_⟩
          exact here.of_eq (by abel)
      | @await n t a context p g R C kind waits values place dispatched =>
          obtain ⟨us, k, id, g', m, marked, here⟩ := dispatched.unanswered free
          refine .here ⟨D, B, es, mem, a, context, p, us, k, id, g', m, _, driver, recalls,
            place.mono fun f there => Multiset.mem_add.2 (.inr there), values ▸ .await kind n t, waits, marked, here⟩
  | some w =>
      obtain ⟨above, f, way, below⟩ := w
      obtain ⟨stack, free, b, v, ms, answers⟩ := owner?_some found
      cases way with
      | clause j args =>
          exact .of_carries (next fun C' performed =>
            (performed.clause driver recalls stack free answers).eventually)
      | value v left =>
          exact .of_carries (next fun C' performed =>
            (performed.value driver recalls stack free answers).eventually)
      | task t blocking =>
          cases answers with
          | task n blocking t =>
              have clausing {C' : Config (guest c)} (performed : Performed D mem (stackMarks J'.stack) s
                  (.await n t) (entryFacts es + B) C') := performed.clausing stack free
              cases blocking with
              | true =>
                  exact .of_carries (next fun C' performed =>
                    ((clausing performed).followed fun C'' clausing =>
                      (clausing.blocks driver recalls).eventually).eventually)
              | false =>
                  exact .escapes (next fun C' performed =>
                    ((clausing performed).followed fun C'' clausing =>
                      (clausing.escapes.mono fun C''' escaped =>
                        ⟨D, B, es, mem, driver, recalls, escaped⟩).eventually).eventually)

/-- The code of a computation takes a step. -/
theorem Going.comes (control : J.control = .code s a) (h : Going V J s a C) :
    Comes V J C J.step := by
  obtain ⟨D, B, es, mem, b, r, driver, recalls, goes, running⟩ := h
  let J₁ : Program c := { J with memory := (J.memory.step s a).1 }
  let mem₁ : Memo c := { mem with memory := (mem.memory.step s a).1 }
  have recalls₁ : Recalls J₁ es mem₁ :=
    ⟨by simp only [mem₁, J₁, recalls.memory], recalls.handles, recalls.slices⟩
  have recalled {mem' : Memo c} (memory : mem'.memory = mem₁.memory)
      (handles : mem'.handles = mem.handles) : Recalls J₁ es mem' :=
    ⟨memory.trans recalls₁.memory, handles.trans recalls.handles, recalls.slices⟩
  have step : J.step = J₁.acted (J.memory.step s a).2 := by simp only [Program.step, control, J₁]
  have acts : (mem.memory.step s a).2 = (J.memory.step s a).2 := by rw [recalls.memory]
  have stepped : (guest c).step mem b r = Body.act mem₁ (J.memory.step s a).2 := by
    rw [← acts]
    exact goes mem
  rw [step]
  generalize (J.memory.step s a).2 = act at acts stepped
  cases act with
  | done r' =>
      obtain ⟨d, L, Ls, marked, here⟩ := running
      refine .of_carries ((At.guest (some d) here stepped).followed fun C₁ turned => ?_)
      rw [Result.turn_eq, Deep.Answer.map_turn] at turned
      refine ((At.arrives turned.ends).mono fun C₂ arrived => ?_).eventually
      exact .result rfl driver (recalls₁.of_eq rfl rfl) (marked ▸ arrived)
  | again b' s' =>
      obtain ⟨d, L, Ls, marked, here⟩ := running
      refine .of_carries ((At.guest (some d) here stepped).mono fun C₁ turned => .code rfl ?_)
      exact ⟨D, B, es, mem₁, .going s' b', .value .none, driver, recalls₁.of_eq rfl rfl,
        goes_going s' b' _, d, L, Ls, marked, turned.more⟩
  | perform o s' =>
      have performed := running.performs goes acts
      obtain ⟨n, C', many, reached, mem', memory, handles, performed⟩ := performed
      exact Performed.comes driver (recalled memory handles) ⟨n, C', many, reached, performed⟩
  | escape t s' =>
      refine .escapes ((running.escapes goes acts).mono ?_)
      rintro C' ⟨mem', memory, handles, escaped⟩
      exact ⟨D, B, es, mem', driver, recalled memory handles, escaped⟩
  | call q s' =>
      obtain ⟨d, L, Ls, marked, here⟩ := running
      let J₂ : Program c := { J₁ with stack := .code s' :: J.stack }
      refine .of_carries ((At.guest (some d) here stepped).followed fun C₁ turned => ?_)
      have hands := hands_delegating (D := D) (g := d) (L := L) (.code s') Ls
        (p := .guest (.asked (.delegate s'))) fun d' mem F C h => by
          have turned := At.guest (t := .ask (.delegate (.gen d')) (Body.waiting s')) (some d) h rfl
          exact turned
      have marks₂ : (Role.code s').marks ++ marks (L :: Ls) = stackMarks J₂.stack := by
        rw [marked]
        rfl
      rw [marks₂] at hands
      refine (Hands.requested (some d) (n := .delegate s') (J := J₂) hands driver
        (recalls₁.of_eq rfl rfl) (fun C' refused => ?_) (turned.of_eq (by abel))).eventually
      refine .here (.answering rfl rfl ⟨D, B, es, mem₁, .going s' (.failed resumedTwice), .value .none,
        driver, recalls₁.of_eq rfl rfl, goes_going s' _ _, d, L, Ls, marked, ?_⟩)
      exact (Turning.more refused).of_eq (by abel)

/-! ## Coroutines -/

/-- A loop goes on with its coroutine, which has given way. -/
theorem At.goesOn {d : Gen} {hs : List (Hop (guest c))} {outer : Bool}
    {A : List (Activation (guest c))} {p : Routine (guest c)} {mem : Memo c} {F : Facts (guest c)}
    (h : At (relayingHops d hs ++ looping (bottom d hs) outer :: A) (.reply (.yielded .none)) mem
      ({.gen d.id (.suspended p .pause)} + (runningHops hs + F)) C) :
    Leads 1 C (At (.running d p :: (relayingHops d hs ++ looping (bottom d hs) outer :: A))
      (.reply (.value .none)) mem ({.gen d.id .running} + (runningHops hs + F))) := by
  have out := At.outOfChain (h.of_eq (E := runningHops hs + ({.gen d.id (.suspended p .pause)} + F))
    (by abel))
  refine out.bind (n := 1) fun C₁ there => ?_
  have again := At.library (t := .ask (.advance (bottom d hs) (.send .none))
    (.loop (.running (bottom d hs) outer))) none there fun st => ⟨rfl, rfl⟩
  refine again.followed fun C₂ turned => ?_
  have inside := At.intoChain (a := .value .none) (Turning.advance turned)
  refine inside.followed fun C₃ there => ?_
  exact ((At.suspended (a := .value .none) (there.of_eq (add_left_comm _ _ _))).mono
    fun C₄ running => running.of_eq (by abel)).eventually

/-- A coroutine takes a step. -/
theorem Carries.runsTask {t : c.Task} (control : J.control = .task t s) (h : Carries V J C) :
    Comes V J C J.step := by
  cases h with
  | code control' => simp [control] at control'
  | answering control' => simp [control] at control'
  | result control' => simp [control] at control'
  | @task t' s' d hs outer A F mem control' memory here ends =>
      cases control.symm.trans control'
      simp only [Program.step, control, ← memory]
      let mem₁ : Memo c := { mem with memory := (mem.memory.task t).1 }
      cases moved : (mem.memory.task t).2 with
      | pause t' =>
          have stepped : Body.step mem (.task t) (.value .none) =
              (mem₁, .ask (.yield .none .pause) (.task t')) := by
            simp only [Body.step, moved, mem₁]
          have turned := At.guest (some d) here stepped
          refine .of_carries (turned.followed fun C₁ turned => ?_)
          refine ((At.goesOn (Turning.yield turned)).mono fun C₂ running => ?_).eventually
          exact .task rfl rfl running fun a M C' ended =>
            (ends a M C' ended).mono fun C'' going => going.of_eq rfl rfl rfl
      | done a =>
          have stepped : Body.step mem (.task t) (.value .none) = (mem₁, a.turn) := by
            cases a <;> simp only [Body.step, moved, mem₁] <;> rfl
          have turned := At.guest (some d) here stepped
          refine .of_carries (turned.followed fun C₁ turned => ?_)
          rw [Deep.Answer.map_turn] at turned
          refine (ends a _ C₁ turned.ends).mono fun C₂ going => .code rfl ?_
          exact going.of_eq rfl rfl rfl

/-! ## All steps -/

/-- The kernel follows a step of the program that it carries out. -/
theorem Carries.comes (h : Carries V J C) : Comes V J C J.step := by
  cases control : J.control with
  | code s a =>
      cases h with
      | code control' going =>
          cases control.symm.trans control'
          exact going.comes control
      | answering control' => simp [control] at control'
      | result control' => simp [control] at control'
      | task control' => simp [control] at control'
  | task t s => exact h.runsTask control
  | result r =>
      have step : J.step = J.delivered r := by simp only [Program.step, control]
      rw [step]
      cases stack : J.stack with
      | nil =>
          have finished : J.delivered r = .finished J r := by simp only [Program.delivered, stack]
          rw [finished]
          cases h with
          | code control' => simp [control] at control'
          | answering control' stack' => simp [stack] at stack'
          | task control' => simp [control] at control'
          | result control' driver recalls arrived =>
              cases control.symm.trans control'
              rw [stack] at arrived
              exact .finished driver recalls arrived
      | cons f fs =>
          obtain ⟨J', delivered, advances⟩ := h.delivers control (by simp [stack])
          rw [delivered]
          exact .more advances

end OneShot.Joined
