import OneShot.Proofs.Locations
import OneShot.Proofs.Trail

/-!
# Turns of a machine

What a machine does in one turn with a stack of the library's own frames: an
outcome passes handler frames on its way down, a generator frame is taken off
when its generator has ended or has yielded something invalid, and everything
else that leaves the stack is captured.
-/

namespace OneShot

open Store (Quietly)

/-- A frame as the library makes them. -/
inductive Val.Proper : Val → Prop
  | generator (g : Gen) (t : Tag) : Proper (.frame (.generator (.gen g) t))
  | handler (h : Handler) (t : Tag) : Proper (.frame (.handler (.handler h) t))

/-- What a resumption delivers: its error, if it has one. -/
def Resumption.outcome (r : Resumption) : Outcome :=
  match r.error with
  | .none => .ok r.value
  | e => .failed e

/-- What is asked for by an invocation, or by one that was resent. -/
def Val.invoked? : Val → Option Invocation
  | .invocation _ i => some i
  | .resend _ r => some ⟨r.effect, r.args, r.context⟩
  | _ => Option.none

/-- No handler frame of a stack owns an effect. -/
def Unowned (effect : Val) (frames : List Val) : Prop :=
  ∀ h t, .frame (.handler (.handler h) t) ∈ frames → ∀ e, effect = .effect e → h.owns e = false

/-- A stack is cut at the innermost frame that owns the effect. -/
theorem cut_eq_some {e : Effect} {stack : List Val} {slice : Slice} (h : cut e stack = some slice) :
    ∃ inside t, slice.frames = inside ++ [.frame (.handler (.handler slice.handler) t)] ∧
      slice.handler.clause? e = some slice.clause ∧ Unowned (.effect e) inside := by
  induction stack generalizing slice with
  | nil => contradiction
  | cons v rest ih =>
      have further {c : Slice} (cutting : cut e rest = some c)
          (free : ∀ h t, v = .frame (.handler (.handler h) t) → h.owns e = false) :
          ∃ inside t, v :: c.frames = inside ++ [.frame (.handler (.handler c.handler) t)] ∧
            c.handler.clause? e = some c.clause ∧ Unowned (.effect e) inside := by
        obtain ⟨inside, t, same, clause, unowned⟩ := ih cutting
        refine ⟨v :: inside, t, by rw [same]; rfl, clause, fun h u mem e' same => ?_⟩
        cases same
        rcases List.mem_cons.1 mem with here | mem
        · exact free h u here.symm
        · exact unowned h u mem e rfl
      unfold cut at h
      split at h
      · contradiction
      · rename_i l t rest' same
        cases same
        split at h
        · rename_i clause owner
          cases h
          exact ⟨[], t, rfl, owner, fun _ _ mem => absurd mem (by simp)⟩
        · rename_i free
          obtain ⟨c, cutting, rfl⟩ := Option.map_eq_some_iff.1 h
          refine further cutting fun h t same => ?_
          cases same
          simp [Handler.owns, free]
      · rename_i v' rest' other same
        cases same
        obtain ⟨c, cutting, rfl⟩ := Option.map_eq_some_iff.1 h
        exact further cutting fun h t same => absurd same (other h t)

/-- What leaves a turn to go on, if it does. -/
def Turn.next? {σ : Type} : Turn σ → Option σ
  | .ask _ next | .more next => some next
  | _ => none

theorem Store.size_take (s : Store) (k : Cont) : (s.take k).1.conts.size = s.conts.size := by
  unfold Store.take
  split
  · rfl
  · simp

theorem Store.Quietly.setStack {s t : Store} {m : Nat} {old : List Val} {owner : Val}
    (h : s.machines[m]? = some ⟨.own old, owner⟩) (quiet : Quietly s t) (frames : List Val) :
    Quietly (s.setStack m frames) (t.setStack m frames) := by
  have same := Store.machines_of_engine quiet.engine
  have h' := h
  rw [← same] at h'
  refine ⟨?_, ?_⟩
  · simp [Store.setStack, h, Store.engine, same, Store.conts_of_engine quiet.engine,
      Store.settings_of_engine quiet.engine]
  · simpa [Store.setStack, h, h'] using quiet.numbers

namespace Machine

/-- An outcome is delivered: the stack, what is left of it, and what to do next. -/
inductive Delivered : Outcome → List Val → List Val → Turn Phase → Prop
  | finish (o : Outcome) : Delivered o [] [] o.finish
  | returns (h : Handler) (t : Tag) (v : Val) (rest : List Val) :
      Delivered (.ok v) (.frame (.handler (.handler h) t) :: rest) rest
        (.ask (.call h.onReturn [v]) .calling)
  | passes {v : Val} {rest left : List Val} {turn : Turn Phase} (h : Handler) (t : Tag)
      (below : Delivered (.failed v) rest left turn) :
      Delivered (.failed v) (.frame (.handler (.handler h) t) :: rest) left turn
  | advances (o : Outcome) (g : Gen) (t : Tag) (rest : List Val) :
      Delivered o (.frame (.generator (.gen g) t) :: rest)
        (.frame (.generator (.gen g) t) :: rest) (.ask (.advance g o.input) (.advancing (.gen g)))

theorem deliver_proper {stack : List Val} (proper : ∀ v ∈ stack, v.Proper) (o : Outcome) :
    ∃ left turn, (∀ s, deliver s o stack = (s, left, turn)) ∧ Delivered o stack left turn := by
  induction stack with
  | nil => exact ⟨[], o.finish, fun _ => rfl, .finish o⟩
  | cons v rest ih =>
      cases proper v List.mem_cons_self with
      | generator g t =>
          refine ⟨_, _, fun s => ?_, .advances o g t rest⟩
          cases o <;> rfl
      | handler h t =>
          cases o with
          | ok v => exact ⟨_, _, fun _ => rfl, .returns h t v rest⟩
          | failed v =>
              obtain ⟨left, turn, delivered, below⟩ :=
                ih fun v mem => proper v (List.mem_cons_of_mem _ mem)
              exact ⟨left, turn, delivered, .passes h t below⟩

/-- Only handler frames are passed. -/
theorem Delivered.passed {o : Outcome} {stack left : List Val} {turn : Turn Phase}
    (h : Delivered o stack left turn) :
    ∃ above, stack = above ++ left ∧ ∀ v ∈ above, ∃ h t, v = .frame (.handler h t) := by
  induction h with
  | finish o => exact ⟨[], rfl, by simp⟩
  | returns h t v rest => exact ⟨[_], rfl, by simp⟩
  | passes h t below ih =>
      obtain ⟨above, rfl, handlers⟩ := ih
      refine ⟨_ :: above, rfl, ?_⟩
      simp only [List.forall_mem_cons]
      exact ⟨⟨_, _, rfl⟩, handlers⟩
  | advances o g t rest => exact ⟨[], rfl, by simp⟩

/--
Why a machine delivers an outcome, and to which stack.  A frame that it makes
before takes a number from the store.
-/
inductive Delivers (s : Store) (m : Nat) : Phase → Reply → Store → Outcome → List Val → Prop
  | start (r : Reply) : Delivers s m .start r s (.ok .none) (s.stack m)
  | answered {p : Phase} (r : Reply) (v : Val) (waits : p = .calling ∨ p = .escaped ∨ p = .resent) :
      Delivers s m p r s (.ok v) (s.stack m)
  | raised {p : Phase} (x : Exc) (waits : p = .calling ∨ p = .escaped ∨ p = .resent) :
      Delivers s m p (.raised x) s (.failed (.exc x)) (s.stack m)
  | discarded (op : Val) (r : Reply) (x : Exc) :
      Delivers s m (.discarding op) r s (.failed (.exc x)) (s.stack m)
  | pushed {r : Reply} {v : Val} {g : Gen} (value : r = .value v ∨ r = .yielded v)
      (made : v.generator? = some g) :
      Delivers s m .calling r s.freshTag.1 (.ok .none)
        (.frame (.generator (.gen g) s.freshTag.2) :: s.stack m)
  | ended {v : Val} {rest : List Val} {r : Reply} (c w : Val) (stack : s.stack m = v :: rest)
      (value : ∀ op, r ≠ .yielded op) : Delivers s m (.advancing c) r s (.ok w) rest
  | broken {v : Val} {rest : List Val} (c : Val) (x : Exc) (stack : s.stack m = v :: rest) :
      Delivers s m (.advancing c) (.raised x) s (.failed (.exc x)) rest
  | resumed (c : Val) (id : Nat) (k : Cont) (v e : Val) :
      Delivers s m (.advancing c) (.yielded (.resumption id ⟨.cont k, v, e⟩)) s
        (Resumption.outcome ⟨.cont k, v, e⟩) (s.frames k ++ s.stack m)

/--
The frames that a machine captures with its own: those of a resent continuation,
which it takes.
-/
inductive Brings (s : Store) : Val → Store → List Val → Option Cont → Prop
  | invocation (id : Nat) (i : Invocation) : Brings s (.invocation id i) s [] none
  | resend (id : Nat) (e : Val) (args : Arguments) (k : Cont) (context : Val)
      (pending : s.isTaken k = false) :
      Brings s (.resend id ⟨e, args, .cont k, context⟩) (s.take k).1 (s.frames k) (some k)

theorem Brings.origin {s u : Store} {op : Val} {brought : List Val} {inner : Option Cont}
    (h : Brings s op u brought inner) :
    (u = s ∨ ∃ k, u = (s.take k).1) ∧ u.machines = s.machines ∧ op.resumed? = none := by
  cases h with
  | invocation id i => exact ⟨.inl rfl, rfl, rfl⟩
  | resend id e args k context pending =>
      exact ⟨.inr ⟨k, rfl⟩, by simp [Store.take, pending], rfl⟩

/--
To whom a machine directs an invocation with a new continuation: to the innermost
owner on its stack, whose frame is the last one captured, or outward with the whole
stack.
-/
inductive Directs (i : Invocation) (k : Cont) (above below : List Val) : Turn Phase → Prop
  | owner {e : Effect} {h : Handler} {f : Val} {t : Tag} {inside : List Val}
      (effect : i.effect = .effect e) (clause : h.clause? e = some f)
      (captured : above = inside ++ [.frame (.handler (.handler h) t)])
      (unowned : Unowned i.effect inside) :
      Directs i k above below (.ask (.call f (.cont k :: i.args.values)) .calling)
  | outward (id : Nat) (whole : below = []) (unowned : Unowned i.effect above) :
      Directs i k above below
        (.ask (.yield (.resend id ⟨i.effect, i.args, .cont k, i.context⟩) .inner) .resent)

/-- What a machine does with its stack in one turn, and how it goes on. -/
inductive Does (s : Store) (m : Nat) : Phase → Reply → Store → Turn Phase → Prop
  | settles {p : Phase} {r : Reply} {o : Outcome} {base left : List Val} {u t : Store}
      {turn : Turn Phase} (delivers : Delivers s m p r u o base)
      (delivered : Delivered o base left turn) (after : Quietly (u.setStack m left) t) :
      Does s m p r t turn
  | halts {p : Phase} {r : Reply} {u t : Store} {turn : Turn Phase}
      (left : u = s ∨ ∃ k, u = (s.take k).1) (after : Quietly u t) (ending : turn.next? = none)
      (unasked : (received? p r).bind Val.resumed? = none)
      (begun : p = .start → ∃ x, r = .raised x) : Does s m p r t turn
  | escapes (c : Val) (id : Nat) (action : Val) :
      Does s m (.advancing c) (.yielded (.escape id action)) s
        (.ask (.yield (.escape id action) .direct) .escaped)
  | closes {p : Phase} {r : Reply} {v : Val} {rest : List Val} {x : Exc}
      (contents : (p = .escaped ∧ v :: rest = (s.stack m).filterMap Val.framed?) ∨
        p = .closing (v :: rest) x) : Does s m p r s (.ask (.closing v) (.closing rest x))
  | discards {c op v : Val} {rest : List Val} (stack : s.stack m = v :: rest)
      (unasked : op.resumed? = none) :
      Does s m (.advancing c) (.yielded op) (s.setStack m rest) (.ask (.closing c) (.discarding op))
  | captures {c op : Val} {i : Invocation} {above below brought : List Val} {inner : Option Cont}
      {u t : Store} {turn : Turn Phase} (invoked : op.invoked? = some i)
      (stack : s.stack m = above ++ below) (brings : Brings s op u brought inner)
      (after : Quietly ((u.setStack m below).newCont (brought ++ above) (inner.map .cont)).1 t)
      (directs : Directs i ⟨s.conts.size, inner.isSome⟩ above below turn) :
      Does s m (.advancing c) (.yielded op) t turn

/-- What a machine asks for, and how it waits for it. -/
inductive Asks : Ask → Phase → Prop
  | calls (f : Val) (args : List Val) : Asks (.call f args) .calling
  | advances (g : Gen) (i : Input) : Asks (.advance g i) (.advancing (.gen g))
  | escapes (v : Val) : Asks (.yield v .direct) .escaped
  | resends (v : Val) : Asks (.yield v .inner) .resent
  | discards (c op : Val) : Asks (.closing c) (.discarding op)
  | closes (v : Val) (rest : List Val) (x : Exc) : Asks (.closing v) (.closing rest x)

theorem Delivered.asks {o : Outcome} {stack left : List Val} {turn : Turn Phase}
    (h : Delivered o stack left turn) :
    turn.next? = none ∨ ∃ a p, turn = .ask a p ∧ Asks a p := by
  induction h with
  | finish o =>
      refine .inl ?_
      cases o with
      | ok v => rfl
      | failed v => cases v <;> rfl
  | returns h t v rest => exact .inr ⟨_, _, rfl, .calls _ _⟩
  | passes h t below ih => exact ih
  | advances o g t rest => exact .inr ⟨_, _, rfl, .advances _ _⟩

/-- Nothing is yielded to deliver something. -/
theorem Delivered.ask_ne_yield {o : Outcome} {base left : List Val} {turn : Turn Phase}
    (h : Delivered o base left turn) (v : Val) (how : Suspension) (p : Phase) :
    turn ≠ .ask (.yield v how) p := by
  induction h with
  | finish o =>
      cases o with
      | ok v => simp [Outcome.finish]
      | failed v => cases v <;> simp [Outcome.finish, Turn.raiseValue]
  | passes h t below ih => exact ih
  | _ => simp

theorem Does.asks {s t : Store} {m : Nat} {p : Phase} {r : Reply} {turn : Turn Phase}
    (h : Does s m p r t turn) : turn.next? = none ∨ ∃ a p, turn = .ask a p ∧ Asks a p := by
  cases h with
  | settles delivers delivered after => exact delivered.asks
  | halts left after ending unasked begun => exact .inl ending
  | escapes c id action => exact .inr ⟨_, _, rfl, .escapes _⟩
  | closes contents => exact .inr ⟨_, _, rfl, .closes _ _ _⟩
  | discards stack unasked => exact .inr ⟨_, _, rfl, .discards _ _⟩
  | captures invoked stack brings after directs =>
      cases directs with
      | owner effect clause captured unowned => exact .inr ⟨_, _, rfl, .calls _ _⟩
      | outward id whole unowned => exact .inr ⟨_, _, rfl, .resends _⟩

section Steps

variable {s : Store} {m : Nat} {old : List Val} {owner : Val}

theorem settle_proper {u : Store} {base : List Val}
    (own : u.machines[m]? = some ⟨.own base, owner⟩) (proper : ∀ v ∈ base, v.Proper)
    (o : Outcome) :
    ∃ left turn, settle u m o = (u.setStack m left, turn) ∧ Delivered o base left turn := by
  obtain ⟨left, turn, delivered, shape⟩ := deliver_proper proper o
  refine ⟨left, turn, ?_, shape⟩
  simp [settle, Store.stack_of_own own, delivered]

/-- Something is delivered to the stack that there is. -/
theorem does_settle (own : s.machines[m]? = some ⟨.own old, owner⟩) (proper : ∀ v ∈ old, v.Proper)
    {p : Phase} {r : Reply} {o : Outcome} {u : Store} (quiet : Quietly s u)
    (delivers : Delivers s m p r s o (s.stack m)) :
    Does s m p r (settle u m o).1 (settle u m o).2 := by
  have own' : u.machines[m]? = some ⟨.own old, owner⟩ := by
    rw [Store.machines_of_engine quiet.engine, own]
  obtain ⟨left, turn, settled, delivered⟩ := settle_proper own' proper o
  rw [settled]
  rw [Store.stack_of_own own] at delivers
  exact .settles delivers delivered (quiet.setStack own left)

/-- Something is delivered to another stack. -/
theorem does_settle_set (own : s.machines[m]? = some ⟨.own old, owner⟩) {base : List Val}
    (proper : ∀ v ∈ base, v.Proper) {p : Phase} {r : Reply} {o : Outcome} {u : Store}
    (quiet : Quietly s u) (delivers : Delivers s m p r u o base) :
    Does s m p r (settle (u.setStack m base) m o).1 (settle (u.setStack m base) m o).2 := by
  have own' : u.machines[m]? = some ⟨.own old, owner⟩ := by
    rw [Store.machines_of_engine quiet.engine, own]
  obtain ⟨left, turn, settled, delivered⟩ :=
    settle_proper (Store.machines_setStack own' base) proper o
  rw [settled, Store.setStack_setStack own']
  exact .settles delivers delivered (.refl _)

theorem does_fail (own : s.machines[m]? = some ⟨.own old, owner⟩) (proper : ∀ v ∈ old, v.Proper)
    {p : Phase} (waits : p = .calling ∨ p = .escaped ∨ p = .resent) (x : Exc) :
    Does s m p (.raised x) (fail s m x).1 (fail s m x).2 := by
  unfold fail
  split
  · exact does_settle own proper (.refl s) (.raised x waits)
  · refine .halts (.inl rfl) (.refl s) rfl ?_ ?_
    · rcases waits with rfl | rfl | rfl <;> rfl
    · rcases waits with rfl | rfl | rfl <;> simp

theorem does_finished (own : s.machines[m]? = some ⟨.own old, owner⟩)
    (proper : ∀ v ∈ old, v.Proper) (c : Val) {r : Reply} (value : ∀ op, r ≠ .yielded op) (w : Val) :
    Does s m (.advancing c) r (finished s m w).1 (finished s m w).2 := by
  unfold finished popThen
  cases stack : s.stack m with
  | nil =>
      refine .halts (.inl rfl) (.refl s) rfl ?_ (by simp)
      cases r with
      | yielded op => exact absurd rfl (value op)
      | _ => rfl
  | cons v rest =>
      have same := Store.stack_of_own own
      have proper' : ∀ v ∈ rest, v.Proper := by
        intro v mem
        refine proper v ?_
        rw [← same, stack]
        exact List.mem_cons_of_mem _ mem
      exact does_settle_set own proper' (.refl s) (.ended c w stack value)

theorem does_broken (own : s.machines[m]? = some ⟨.own old, owner⟩)
    (proper : ∀ v ∈ old, v.Proper) (c : Val) (x : Exc) :
    Does s m (.advancing c) (.raised x) (broken s m x).1 (broken s m x).2 := by
  unfold broken popThen
  split
  · rename_i exception
    cases stack : s.stack m with
    | nil => exact .halts (.inl rfl) (.refl s) rfl rfl (by simp)
    | cons v rest =>
        have same := Store.stack_of_own own
        have proper' : ∀ v ∈ rest, v.Proper := by
          intro v mem
          refine proper v ?_
          rw [← same, stack]
          exact List.mem_cons_of_mem _ mem
        simp only [fail, exception, if_true]
        exact does_settle_set own proper' (.refl s) (.broken c x stack)
  · exact .halts (.inl rfl) (.refl s) rfl rfl (by simp)

theorem does_closeNext {p : Phase} {r : Reply} {contents : List Val} {x : Exc}
    (from_stack : (p = .escaped ∧ contents = (s.stack m).filterMap Val.framed?) ∨
      p = .closing contents x) :
    Does s m p r (closeNext s x contents).1 (closeNext s x contents).2 := by
  cases contents with
  | nil =>
      refine .halts (.inl rfl) (.refl s) rfl ?_ ?_
      · rcases from_stack with ⟨rfl, -⟩ | rfl <;> rfl
      · rcases from_stack with ⟨rfl, -⟩ | rfl <;> simp
  | cons v rest => exact .closes from_stack

@[simp] theorem frames_setStack (u : Store) (frames : List Val) :
    (u.setStack m frames).frames = u.frames := by
  funext k
  simp [Store.frames]

/-- A dispatch captures what it cuts off, together with what is brought. -/
theorem does_dispatch (own : s.machines[m]? = some ⟨.own old, owner⟩) (c : Val) {op : Val} {u : Store} {inner : Option Cont}
    (brings : Brings s op u (inner.elim [] u.frames) inner) {i : Invocation}
    (invoked : op.invoked? = some i) :
    Does s m (.advancing c) (.yielded op) (dispatch u m i.effect i.args i.context inner).1
      (dispatch u m i.effect i.args i.context inner).2 := by
  obtain ⟨left, same, unasked⟩ := brings.origin
  have stack : u.stack m = s.stack m := by
    rw [Store.stack_of_own own, Store.stack_of_own (same ▸ own)]
  have size : u.conts.size = s.conts.size := by
    rcases left with rfl | ⟨k, rfl⟩
    · rfl
    · exact Store.size_take s k
  have made (below above : List Val) :
      capture (u.setStack m below) above inner =
        (((u.setStack m below).newCont (inner.elim [] u.frames ++ above) (inner.map .cont)).1,
          ⟨s.conts.size, inner.isSome⟩) := by
    unfold capture
    rw [frames_setStack, ← size]
    cases inner <;> simp [Store.newCont]
  unfold dispatch
  split
  · exact .halts left (.refl u) rfl unasked (by simp)
  · rename_i sought
    split
    · rename_i uncut
      have whole : s.stack m = u.stack m ++ [] := by simp [stack]
      rw [made]
      refine .captures invoked whole brings ((Quietly.note _ _ _).trans (.freshId _)) ?_
      refine .outward _ rfl fun h t mem e same => ?_
      rw [same] at uncut
      exact cut_eq_none_iff.1 uncut h t mem
    · rename_i slice cutting
      split at cutting
      · rename_i e effect
        have split_up := frames_append_below cutting
        obtain ⟨inside, t, captured, clause, unowned⟩ := cut_eq_some cutting
        rw [made]
        refine .captures invoked (stack ▸ split_up.symm) brings ?_ ?_
        · dsimp only
          exact .note _ _ _
        · exact .owner effect clause captured (effect ▸ unowned)
      · contradiction

theorem does_receive (own : s.machines[m]? = some ⟨.own old, owner⟩)
    (proper : ∀ v ∈ old, v.Proper) (c op : Val)
    (resumed : ∀ q, op.resumed? = some q → ∀ v ∈ s.frames q.2, v.Proper) :
    Does s m (.advancing c) (.yielded op) (receive s m c op).1 (receive s m c op).2 := by
  unfold receive
  split
  · rename_i id k value error
    have proper' : ∀ v ∈ s.frames k ++ s.stack m, v.Proper := by
      intro v mem
      rcases List.mem_append.1 mem with brought | mem
      · exact resumed (id, k) rfl v brought
      · rw [Store.stack_of_own own] at mem
        exact proper v mem
    have settled := does_settle_set own proper' (.refl s) (.resumed c id k value error)
    unfold Resumption.outcome at settled
    cases error <;> exact settled
  · rename_i id r other
    refine .halts (.inl rfl) (.refl s) rfl ?_ (by simp)
    simp only [received?, Option.bind_some]
    unfold Val.resumed?
    split
    · rename_i same
      cases same
      exact absurd rfl (other _ _ _)
    · rfl
  · exact does_dispatch own c (.invocation _ _) rfl
  · rename_i id e args k context
    cases taken : s.isTaken k with
    | true =>
        rw [Store.take_of_isTaken taken]
        exact .halts (.inl rfl) (.next rfl rfl) rfl rfl (by simp)
    | false =>
        have won : (s.take k).2 = true := by simp [taken]
        split
        · rename_i u made
          have same : u = (s.take k).1 := by rw [made]
          subst same
          refine does_dispatch own c ?_ (i := ⟨e, args, context⟩) rfl
          simp only [Option.elim_some, Store.frames_take]
          exact .resend id e args k context taken
        · rename_i u made
          rw [made] at won
          contradiction
  · exact .halts (.inl rfl) (.refl s) rfl rfl (by simp)
  · exact .escapes c _ _
  · rename_i other₁ other₂ other₃ other₄ other₅ other₆
    have unasked : op.resumed? = none := by
      unfold Val.resumed?
      split
      · exact absurd rfl (other₁ _ _ _ _)
      · rfl
    unfold popThen
    cases stack : s.stack m with
    | nil => exact .halts (.inl rfl) (.refl s) rfl unasked (by simp)
    | cons v rest => exact .discards stack unasked

/-- One turn of a machine whose stack holds the library's own frames. -/
theorem does_step (own : s.machines[m]? = some ⟨.own old, owner⟩) (proper : ∀ v ∈ old, v.Proper)
    {p : Phase} {r : Reply} (tame : ∀ c, p ≠ .throwing c)
    (resumed : ∀ q, (received? p r).bind Val.resumed? = some q → ∀ v ∈ s.frames q.2, v.Proper) :
    Does s m p r (step s m p r).1 (step s m p r).2 := by
  have called {v : Val} (value : r = .value v ∨ r = .yielded v) :
      Does s m .calling r (step s m .calling (.value v)).1 (step s m .calling (.value v)).2 := by
    simp only [step]
    split
    · rename_i g made
      have proper' : ∀ v ∈ .frame (.generator (.gen g) s.freshTag.2) :: s.stack m, v.Proper := by
        simp only [List.forall_mem_cons, Store.stack_of_own own]
        exact ⟨.generator g _, proper⟩
      exact does_settle_set own proper' (.next rfl rfl) (.pushed value made)
    · exact does_settle own proper (.refl s) (.answered r v (.inl rfl))
  cases p with
  | start =>
      have begun : start s m = settle s m (.ok .none) := by simp only [start, own]
      cases r with
      | raised x => exact .halts (.inl rfl) (.refl s) rfl rfl fun _ => ⟨x, rfl⟩
      | value v =>
          simp only [step, begun]
          exact does_settle own proper (.refl s) (.start _)
      | yielded v =>
          simp only [step, begun]
          exact does_settle own proper (.refl s) (.start _)
  | calling =>
      cases r with
      | raised x => exact does_fail own proper (.inl rfl) x
      | value v => exact called (.inl rfl)
      | yielded v => exact called (.inr rfl)
  | advancing c =>
      cases r with
      | value v => exact does_finished own proper c (by simp) v
      | yielded op => exact does_receive own proper c op resumed
      | raised x =>
          simp only [step]
          split
          · exact does_finished own proper c (by simp) _
          · exact does_broken own proper c x
  | throwing c => exact absurd rfl (tame c)
  | escaped =>
      cases r with
      | value v => exact does_settle own proper (.refl s) (.answered _ v (.inr (.inl rfl)))
      | yielded v => exact does_settle own proper (.refl s) (.answered _ v (.inr (.inl rfl)))
      | raised x =>
          simp only [step]
          split
          · exact does_closeNext (.inl ⟨rfl, rfl⟩)
          · exact does_fail own proper (.inr (.inl rfl)) x
  | resent =>
      cases r with
      | value v => exact does_settle own proper (.refl s) (.answered _ v (.inr (.inr rfl)))
      | yielded v => exact does_settle own proper (.refl s) (.answered _ v (.inr (.inr rfl)))
      | raised x => exact does_fail own proper (.inr (.inr rfl)) x
  | discarding op =>
      cases r with
      | raised x => exact .halts (.inl rfl) (.refl s) rfl rfl (by simp)
      | value v => exact does_settle own proper (.next rfl rfl) (.discarded op _ _)
      | yielded v => exact does_settle own proper (.next rfl rfl) (.discarded op _ _)
  | closing rest x =>
      cases r with
      | raised y => exact .halts (.inl rfl) (.refl s) rfl rfl (by simp)
      | value v => exact does_closeNext (.inr rfl)
      | yielded v => exact does_closeNext (.inr rfl)

end Steps

end Machine
end OneShot
