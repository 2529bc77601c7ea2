import OneShot.Proofs.Frames.Dispatch
import OneShot.Proofs.Frames.Spent
import OneShot.Proofs.Frames.Unwinding
import OneShot.Proofs.Reaching

/-!
# What a machine yields

To whoever advances it a machine says little: it passes escapes on, and it resends once at
most.  By a resend it gives its whole stack away; after that it hands on the one reply that
it gets, and runs nothing.  This holds of machines that programs make by hand, with any
stack, as long as nothing but the machine changes the stack.
-/

namespace OneShot

variable {G : Guest}

/-! ## Turns of a machine -/

section

variable {s : Store} {m : Nat}

@[simp] theorem Store.stack_note (s : Store) (source : Source) (text : Unit → String) :
    (s.note source text).stack m = s.stack m := by
  unfold Store.note
  split <;> rfl

@[simp] theorem Store.conts_note (s : Store) (source : Source) (text : Unit → String) :
    (s.note source text).conts = s.conts := by
  unfold Store.note
  split <;> rfl

section

variable {t : Store} (same : t.conts = s.conts) (k : Cont)

include same

theorem Store.isTaken_congr : t.isTaken k = s.isTaken k := by simp only [Store.isTaken, same]

theorem Store.frames_congr : t.frames k = s.frames k := by simp only [Store.frames, same]

theorem Store.inner?_congr : t.inner? k = s.inner? k := by simp only [Store.inner?, same]

end

theorem Store.stack_setStack_nil (s : Store) (m : Nat) : (s.setStack m []).stack m = [] := by
  unfold Store.setStack
  split
  · rename_i l owner here
    simp only [Store.stack, here, Store.list]
    by_cases inside : l < s.lists.size
    · simp [inside, Array.getElem_modify]
    · simp [inside]
  · rename_i v owner no_list here
    unfold Store.stack
    rw [here]
    split
    · rename_i made
      cases made
    · rename_i l owner' made
      cases made
      exact (no_list l rfl).elim
    · rfl
  · simp only [Store.stack, Array.getElem?_modify, if_pos]
    cases s.machines[m]? <;> rfl

namespace Machine

/-- A turn in which a machine yields nothing. -/
inductive Silent : Turn Phase → Prop
  | call (f : Val) (args : List Val) {p : Phase} (other : p ≠ .resent) : Silent (.ask (.call f args) p)
  | advance (g : Gen) (i : Input) {p : Phase} (other : p ≠ .resent) : Silent (.ask (.advance g i) p)
  | close (g : Gen) {p : Phase} (other : p ≠ .resent) : Silent (.ask (.close g) p)
  | done (v : Val) : Silent (.done v)
  | raise (x : Exc) : Silent (.raise x)
  | fault (f : Fault) : Silent (.fault f)

theorem silent_closing (v : Val) {p : Phase} (other : p ≠ .resent) : Silent (.ask (.closing v) p) := by
  cases v with
  | gen g => exact .close g other
  | _ => exact .call _ _ other

theorem silent_finish (o : Outcome) : Silent o.finish := by
  cases o with
  | ok v => exact .done v
  | failed v =>
      cases v with
      | exc x => exact .raise x
      | _ => exact .fault _

theorem silent_deliver (s : Store) (o : Outcome) (stack : List Val) : Silent (deliver s o stack).2.2 := by
  fun_induction deliver s o stack with
  | case1 => exact silent_finish _
  | case2 => assumption
  | case3 => exact .call _ _ (by simp)
  | case4 => exact .fault _
  | case5 => exact .advance _ _ (by simp)
  | case6 => exact .call _ _ (by simp)
  | case7 => assumption
  | case8 => assumption
  | case9 => exact .fault _

theorem silent_settle (s : Store) (m : Nat) (o : Outcome) : Silent (settle s m o).2 :=
  silent_deliver s o (s.stack m)

theorem silent_fail (s : Store) (m : Nat) (x : Exc) : Silent (fail s m x).2 := by
  unfold fail
  split
  · exact silent_settle s m _
  · exact .raise x

theorem silent_popThen (s : Store) (m : Nat) {next : Store → Store × Turn Phase}
    (silent : ∀ t, Silent (next t).2) : Silent (popThen s m next).2 := by
  unfold popThen
  split
  · exact .fault _
  · exact silent _

theorem silent_finished (s : Store) (m : Nat) (v : Val) : Silent (finished s m v).2 :=
  silent_popThen s m fun t => silent_settle t m _

theorem silent_broken (s : Store) (m : Nat) (x : Exc) : Silent (broken s m x).2 := by
  unfold broken
  split
  · exact silent_popThen s m fun t => silent_fail t m x
  · exact .raise x

theorem silent_start (s : Store) (m : Nat) : Silent (start s m).2 := by
  unfold start
  split
  · exact silent_settle s m _
  · exact silent_settle s m _
  · unfold startShared
    split
    · split
      · exact .fault _
      · exact .raise _
    · exact .done _
  · exact .done _

theorem silent_closeNext (s : Store) (x : Exc) (contents : List Val) : Silent (closeNext s x contents).2 := by
  cases contents with
  | nil => exact .raise x
  | cons v rest => exact silent_closing v (by simp)

/--
What a machine yields when it resends what it got as `op`, and how that leaves the store:
the whole stack, below what came with a resend, is in a new continuation.
-/
inductive Resends (s : Store) (m : Nat) (op : Val) : Store × Turn Phase → Prop
  | intro {t u : Store} {i : Invocation} {brought : List Val} {inner : Option Cont} (id : Nat) {k : Cont}
      (invoked : op.invoked? = some i) (brings : Brings s op u brought inner) (empty : t.stack m = [])
      (pending : t.isTaken k = false) (frames : t.frames k = brought ++ s.stack m)
      (around : t.inner? k = inner.map .cont) (taken : ∀ j, inner = some j → t.isTaken j = true) :
      Resends s m op (t, .ask (.yield (.resend id ⟨i.effect, i.args, .cont k, i.context⟩) .inner) .resent)

theorem isTaken_newCont_of_isTaken {t : Store} {j : Cont} (taken : t.isTaken j = true) (inside : j.index < t.conts.size)
    (frames : List Val) (inner : Option Val) : (t.newCont frames inner).1.isTaken j = true := by
  have apart : j.index ≠ t.conts.size := by omega
  simpa [Store.isTaken, Store.newCont, Array.getElem?_push, apart] using taken

theorem inner?_newCont (t : Store) (frames : List Val) (inner : Option Val) :
    (t.newCont frames inner).1.inner? (t.newCont frames inner).2 = inner := by
  simp [Store.newCont, Store.inner?]

theorem inside_of_pending {t : Store} {j : Cont} (pending : t.isTaken j = false) : j.index < t.conts.size := by
  by_contra outside
  simp [Store.isTaken, Nat.not_lt.1 outside] at pending

theorem stack_of_brings {s u : Store} {op : Val} {brought : List Val} {inner : Option Cont}
    (brings : Brings s op u brought inner) : u.stack m = s.stack m := by
  cases brings with
  | invocation id i => rfl
  | resend id e args k context pending => simp [Store.take, pending, Store.stack, Store.list]

theorem taken_of_brings {s u : Store} {op : Val} {brought : List Val} {inner : Option Cont}
    (brings : Brings s op u brought inner) :
    ∀ j, inner = some j → j.index < u.conts.size ∧ u.isTaken j = true := by
  cases brings with
  | invocation id i => simp
  | resend id e args k context pending =>
      intro j same
      cases same
      have inside := inside_of_pending pending
      rw [← Store.size_take s k] at inside
      exact ⟨inside, Store.isTaken_take s k⟩

/-- A dispatch calls a clause, or resends the whole stack. -/
theorem silent_or_resends_dispatch {s u : Store} {op : Val} {i : Invocation} {inner : Option Cont}
    (invoked : op.invoked? = some i) (brings : Brings s op u (inner.elim [] u.frames) inner) :
    Silent (dispatch u m i.effect i.args i.context inner).2 ∨
      Resends s m op (dispatch u m i.effect i.args i.context inner) := by
  have stack := stack_of_brings (m := m) brings
  -- what is known of the new continuation is known of the store in which it was just made
  let v := u.setStack m []
  let made := capture v (u.stack m) inner
  have conts (text : Unit → String) : (made.1.note .handler text).freshId.1.conts = made.1.conts :=
    Store.conts_note _ _ _
  unfold dispatch
  split
  · exact .inl (.fault _)
  · split
    · refine .inr (.intro _ invoked brings ?_ ?_ ?_ ?_ fun j around => ?_)
      · exact (Store.stack_note _ _ _).trans (Store.stack_setStack_nil u m)
      · exact (Store.isTaken_congr (conts _) _).trans (Store.isTaken_newCont v _ _)
      · refine (Store.frames_congr (conts _) _).trans ((Store.frames_newCont v _ _).trans ?_)
        rw [stack, frames_setStack]
      · exact (Store.inner?_congr (conts _) _).trans (inner?_newCont v _ _)
      · obtain ⟨inside, taken⟩ := taken_of_brings brings j around
        refine (Store.isTaken_congr (conts _) _).trans (isTaken_newCont_of_isTaken ?_ ?_ _ _)
        · rwa [Store.isTaken_congr (conts_setStack u m [])]
        · simpa [v] using inside
    · exact .inl (.call _ _ (by simp))

/-- What a machine does with what it got from the frame on top. -/
inductive Answers (s : Store) (m : Nat) (op : Val) : Store × Turn Phase → Prop
  | silent {t : Store} {turn : Turn Phase} (silent : Silent turn) : Answers s m op (t, turn)
  | escape (id : Nat) (action : Val) (same : op = .escape id action) :
      Answers s m op (s, .ask (.yield op .direct) .escaped)
  | resends {r : Store × Turn Phase} (resends : Resends s m op r) : Answers s m op r

theorem answers_receive (s : Store) (m : Nat) (content op : Val) : Answers s m op (receive s m content op) := by
  unfold receive
  split
  · dsimp only
    split <;> exact .silent (silent_settle _ m _)
  · exact .silent (.fault _)
  · exact (silent_or_resends_dispatch rfl (.invocation _ _)).elim .silent .resends
  · rename_i id e args k context
    split
    · rename_i u took
      have pending : s.isTaken k = false := by
        have found := congrArg Prod.snd took
        simpa using found
      obtain rfl : u = (s.take k).1 := (congrArg Prod.fst took).symm
      have brings : Brings s (.resend id ⟨e, args, .cont k, context⟩) (s.take k).1
          ((some k).elim [] (s.take k).1.frames) (some k) := by
        simpa using Brings.resend id e args k context pending
      have dispatched : Silent (dispatch (s.take k).1 m e args context (some k)).2 ∨
          Resends s m (.resend id ⟨e, args, .cont k, context⟩)
            (dispatch (s.take k).1 m e args context (some k)) :=
        silent_or_resends_dispatch (i := ⟨e, args, context⟩) rfl brings
      exact dispatched.elim .silent .resends
    · exact .silent (.raise _)
  · exact .silent (.fault _)
  · exact .escape _ _ rfl
  · have quiet : Silent (popThen s m fun t => (t, .ask (.closing content) (.discarding op))).2 :=
      silent_popThen s m fun t => silent_closing content (by simp)
    exact .silent quiet

/-- What a machine does in one turn that has not resent its stack yet. -/
inductive Says (s : Store) (m : Nat) (p : Phase) (r : Reply) : Store × Turn Phase → Prop
  | silent {t : Store} {turn : Turn Phase} (silent : Silent turn) : Says s m p r (t, turn)
  | escape (id : Nat) (action : Val) : Says s m p r (s, .ask (.yield (.escape id action) .direct) .escaped)
  | resends {op : Val} {out : Store × Turn Phase} (received : received? p r = some op)
      (resends : Resends s m op out) : Says s m p r out

theorem says_step (s : Store) (m : Nat) {p : Phase} (other : p ≠ .resent) (r : Reply) :
    Says s m p r (step s m p r) := by
  have answers {op : Val} (received : received? p r = some op) : Says s m p r (step s m p r) := by
    obtain ⟨content, stepped⟩ := step_of_received received s m
    rw [stepped]
    have answered := answers_receive s m content op
    generalize receive s m content op = out at answered
    cases answered with
    | silent silent => exact .silent silent
    | escape id action same =>
        subst same
        exact .escape id action
    | resends resends => exact .resends received resends
  cases p with
  | start =>
      cases r with
      | raised x => exact .silent (.raise x)
      | _ => exact .silent (silent_start s m)
  | calling =>
      cases r with
      | raised x => exact .silent (silent_fail s m x)
      | _ =>
          simp only [step]
          split <;> exact .silent (silent_settle _ m _)
  | advancing c =>
      cases r with
      | yielded op => exact answers rfl
      | value v => exact .silent (silent_finished s m v)
      | raised x =>
          simp only [step]
          split
          · exact .silent (silent_finished s m _)
          · exact .silent (silent_broken s m x)
  | throwing c =>
      cases r with
      | raised x => exact .silent (silent_broken s m x)
      | _ => exact answers rfl
  | escaped =>
      cases r with
      | raised x =>
          simp only [step]
          split
          · exact .silent (silent_closeNext s x _)
          · exact .silent (silent_fail s m x)
      | _ => exact .silent (silent_settle s m _)
  | resent => contradiction
  | discarding op =>
      cases r with
      | raised x => exact .silent (.raise x)
      | _ => exact .silent (silent_settle _ m _)
  | closing rest x =>
      cases r with
      | raised y => exact .silent (.raise y)
      | _ => exact .silent (silent_closeNext s x rest)

end Machine

end

/-! ## The generator of a machine -/

variable {G : Guest} {c d e : Config G} {g : Gen} {m : Nat}

/-- The generator `g` goes on with its body. -/
def Config.Turns (c : Config G) (g : Gen) : Prop :=
  ∃ h p rest r, h.id = g.id ∧ c.stack = .running h p :: rest ∧ c.signal = .reply r

/-- What the generator `g` yields in the next step, by itself or by what it delegates to. -/
def Config.uttered? (c : Config G) (g : Gen) : Option Val :=
  c.yields?.bind fun q => if q.1.id = g.id then some q.2 else none

/-- A generator runs a machine, whose phase is one of the given ones while it waits. -/
inductive Status.Minds (P : Machine.Phase → Prop) (m : Nat) : Status G → Prop
  | fresh (here : P .start) : Minds P m (.fresh (.library (.machine m .start)))
  | escaped (here : P .escaped) : Minds P m (.suspended (.library (.machine m .escaped)) .direct)
  | resent (here : P .resent) : Minds P m (.suspended (.library (.machine m .resent)) .inner)
  | running : Minds P m .running
  | finished : Minds P m .finished

/-- The generator `g` runs nothing but the machine `m`, in one of the given phases. -/
structure Within (P : Machine.Phase → Prop) (c : Config G) (g : Gen) (m : Nat) : Prop where
  inside : g.id < c.world.gens.size
  status : ∀ t, c.world.gens[g.id]? = some t → t.Minds P m
  body : ∀ a ∈ c.stack, ∀ h, a.active? = some h → h.id = g.id →
    ∃ p, P p ∧ a = .running h (.library (.machine m p))

namespace Within

variable {P : Machine.Phase → Prop}

theorem of_fresh (active : c.Active) (here : P .start)
    (fresh : c.world.status g = .fresh (.library (.machine m .start))) : Within P c g m := by
  have there := World.getElem?_of_status fresh (by simp)
  refine ⟨(Array.getElem?_eq_some_iff.1 there).1, fun t status => ?_, fun a mem h body same => ?_⟩
  · cases there.symm.trans status
    exact .fresh here
  · have running := Manned.running active mem body
    rw [same, there] at running
    cases running

/-- Nothing that others do brings the generator on. -/
theorem idle (within : Within P c g m) (active : c.Active) (stepped : c.step = .ok d)
    (idle : ¬ c.Turns g) : Within P d g m := by
  have moves := Config.moves_step stepped
  have unturned {h : Gen} {p : Routine G} {rest : List (Activation G)} {r : Reply}
      (stack : c.stack = .running h p :: rest) (signal : c.signal = .reply r) : h.id ≠ g.id :=
    fun same => idle ⟨h, p, rest, r, same, stack, signal⟩
  have status {h : Gen} {t : Status G} (now : c.world.status h = t) (same : h.id = g.id)
      (other : t ≠ .finished) : t.Minds P m := by
    refine within.status t ?_
    rw [← same]
    exact World.getElem?_of_status now other
  refine ⟨Nat.lt_of_lt_of_le within.inside moves.size_gens, fun t there => ?_,
    fun a mem h body same => ?_⟩
  · rcases moves.sets active there with before | sets
    · exact within.status t before
    · cases sets with
      | spawned p new => exact absurd within.inside (by omega)
      | ending why => exact .finished
      | begun why => exact .running
      | suspends stack signal turn same => exact absurd same (unturned stack signal)
      | hands stack signal same =>
          obtain ⟨p, -, made⟩ := within.body _ (by rw [stack]; exact .head _) _ rfl same
          cases made
  · rcases Config.pushes_step stepped mem with before | pushes
    · exact within.body a before h body same
    · cases pushes with
      | calls | goes | closing => cases body
      | enters now =>
          cases body
          rcases now with now | ⟨how, now⟩
          · cases status now same (by simp) with
            | fresh here => exact ⟨_, here, rfl⟩
          · cases status now same (by simp) with
            | escaped here => exact ⟨_, here, rfl⟩
            | resent here => exact ⟨_, here, rfl⟩
      | relays now | exits _ now =>
          cases body
          cases status now same (by simp)
      | turns stack signal next =>
          cases body
          exact absurd same (unturned stack signal)
      | delegates stack signal turn passes made =>
          cases body
          exact absurd same (unturned stack signal)
      | regains stack | leaves stack =>
          cases body
          obtain ⟨p, -, made⟩ := within.body _ (by rw [stack]; exact .head _) _ rfl same
          cases made

/-- The generator yields nothing but in its own turns. -/
theorem uttered?_of_idle (within : Within P c g m) (idle : ¬ c.Turns g) : c.uttered? g = none := by
  unfold Config.uttered? Config.yields?
  split
  · rename_i h p rest r stack signal
    have other : h.id ≠ g.id := fun same => idle ⟨h, p, rest, r, same, stack, signal⟩
    split <;> simp [other]
  · rename_i h p i rest v stack signal
    have other : h.id ≠ g.id := by
      intro same
      obtain ⟨p, -, made⟩ := within.body _ (by rw [stack]; exact .head _) h rfl same
      cases made
    simp [other]
  · rfl

theorem turn (within : Within P c g m) (turns : c.Turns g) : ∃ h p rest r, h.id = g.id ∧ P p ∧
    c.stack = .running h (.library (.machine m p)) :: rest ∧ c.signal = .reply r := by
  obtain ⟨h, q, rest, r, same, stack, signal⟩ := turns
  obtain ⟨p, here, made⟩ := within.body _ (by rw [stack]; exact .head _) h rfl same
  cases made
  exact ⟨h, p, rest, r, same, here, stack, signal⟩

section

variable {h : Gen} {p : Routine G} {rest : List (Activation G)} {Q : Machine.Phase → Prop}
  (active : c.Active) (stack : c.stack = .running h p :: rest) (same : h.id = g.id)

include active stack same

theorem status_of_turn : c.world.gens[g.id]? = some .running := by
  rw [← same]
  exact Manned.running active (by rw [stack]; exact .head _) rfl

theorem body_of_turn {a : Activation G} (mem : a ∈ rest) {i : Gen} (body : a.active? = some i) :
    i.id ≠ g.id := by
  intro same'
  have once := active.once
  rw [stack, OneShot.active, List.filterMap_cons] at once
  refine (List.nodup_cons.1 once).1 (List.mem_filterMap.2 ⟨a, mem, ?_⟩)
  simp [body, same, same']

/-- The machine waits for what it has asked for. -/
theorem of_going {q : Machine.Phase} (gens : d.world.gens = c.world.gens) (here : Q q)
    (after : d.stack = .running h (.library (.machine m q)) :: rest) : Within Q d g m := by
  have running := status_of_turn active stack same
  refine ⟨?_, fun t there => ?_, fun a mem i body same' => ?_⟩
  · rw [gens]
    exact (Array.getElem?_eq_some_iff.1 running).1
  · rw [gens, running] at there
    cases there
    exact .running
  · rw [after] at mem
    rcases List.mem_cons.1 mem with rfl | mem
    · cases body
      exact ⟨q, here, rfl⟩
    · exact absurd same' (body_of_turn active stack same mem body)

/-- The machine has left, for now or for good. -/
theorem of_leaving {t : Status G} (gens : d.world.gens = (c.world.setStatus h t).gens)
    (here : t.Minds Q m) (after : d.stack = rest) : Within Q d g m := by
  have running := status_of_turn active stack same
  have inside := (Array.getElem?_eq_some_iff.1 running).1
  refine ⟨by simpa [gens, World.setStatus] using inside, fun u there => ?_, fun a mem i body same' => ?_⟩
  · rw [gens, World.setStatus, Array.getElem?_modify, if_pos same, running] at there
    cases there
    exact here
  · rw [after] at mem
    exact absurd same' (body_of_turn active stack same mem body)

/-- The machine has come to its end. -/
theorem of_ending {turn : Turn Machine.Phase} (ending : turn.next? = none) (t : Store) :
    Within Q (Config.turnOf { c.world with store := t } rest h ((turn.map (.machine m)).map .library)) g m := by
  have ended {w : World G} {signal : Signal} (gens : w.gens = (c.world.setStatus h .finished).gens) :
      Within Q ⟨w, rest, signal⟩ g m :=
    .of_leaving active stack same gens .finished rfl
  have left {w : World G} (gens : w.gens = c.world.gens) (x : Exc) :
      Within Q (Config.leave w rest h x) g m := by
    unfold Config.leave
    dsimp only
    split
    · exact ended (by simp [World.setStatus, gens])
    · exact ended (by simp [World.setStatus, gens])
  cases turn with
  | ask a q => contradiction
  | more q => contradiction
  | done v => exact ended rfl
  | raise x => exact left (w := { c.world with store := t }) rfl x
  | fault f => exact left (w := { c.world with store := (t.fault f).1 }) rfl _

end

end Within

namespace Machine

/-- How the kernel goes on after a turn in which a machine has yielded nothing. -/
theorem Silent.within {turn : Turn Phase} (silent : Silent turn) (active : c.Active) {h : Gen} {p : Routine G}
    {rest : List (Activation G)} (stack : c.stack = .running h p :: rest) (same : h.id = g.id)
    (t : Store) : Within (· ≠ .resent) (Config.turnOf { c.world with store := t } rest h
      ((turn.map (.machine m)).map .library)) g m := by
  have going {q : Phase} (other : q ≠ .resent) {w : World G} {signal : Signal}
      (gens : w.gens = c.world.gens) :
      Within (· ≠ .resent) ⟨w, .running h (.library (.machine m q)) :: rest, signal⟩ g m :=
    .of_going active stack same gens other rfl
  cases silent with
  | call f args other => exact going other rfl
  | advance i j other => exact going other rfl
  | close i other => exact going other rfl
  | done | raise | fault => exact .of_ending active stack same rfl t

theorem Silent.unyielded {turn : Turn Phase} (silent : Silent turn) (v : Val) (how : Suspension) (p : Phase) :
    turn ≠ .ask (.yield v how) p := by
  cases silent <;> simp

end Machine

/-- What a machine yields is the last that the kernel hears of its turn. -/
theorem Config.uttered?_machine {h : Gen} {p : Machine.Phase} {r : Reply} {rest : List (Activation G)}
    (same : h.id = g.id) (stack : c.stack = .running h (.library (.machine m p)) :: rest)
    (signal : c.signal = .reply r) (v : Val) :
    c.uttered? g = some v ↔ ∃ how q, (Machine.step c.world.store m p r).2 = .ask (.yield v how) q := by
  have turn : ((Routine.library (.machine m p)).step c.world r).2 =
      ((Machine.step c.world.store m p r).2.map (.machine m)).map .library := rfl
  unfold Config.uttered? Config.yields?
  rw [stack, signal]
  dsimp only
  rw [turn]
  cases (Machine.step c.world.store m p r).2 with
  | ask a q => cases a <;> simp [Turn.map, same]
  | _ => simp [Turn.map]

/--
The machine `m` yields `v` as a resend of what it has received: its stack is empty then, and a
new continuation has what was on it.
-/
def Resent (c d : Config G) (m : Nat) (v : Val) : Prop :=
  ∃ op, c.received? = some op ∧
    Machine.Resends c.world.store m op (d.world.store, .ask (.yield v .inner) .resent)

/-- Whether a value asks the event loop for something. -/
def Val.IsEscape (v : Val) : Prop := ∃ id action, v = .escape id action

/-- How a machine that has not resent anything goes on. -/
inductive Speaks (c d : Config G) (g : Gen) (m : Nat) : Prop
  | quiet (unsaid : c.uttered? g = none) (within : Within (· ≠ .resent) d g m)
  | escape {v : Val} (said : c.uttered? g = some v) (escape : v.IsEscape)
      (within : Within (· ≠ .resent) d g m)
  | resends {v : Val} (said : c.uttered? g = some v) (resent : Resent c d m v)
      (within : Within (· = .resent) d g m)
      (status : d.world.gens[g.id]? = some (.suspended (.library (.machine m .resent)) .inner))

theorem Within.speaks (within : Within (· ≠ .resent) c g m) (active : c.Active) (stepped : c.step = .ok d) :
    Speaks c d g m := by
  by_cases turns : c.Turns g
  · obtain ⟨h, p, rest, r, same, other, stack, signal⟩ := within.turn turns
    have after := Config.step_machine stepped stack signal
    have said (v : Val) := Config.uttered?_machine same stack signal v
    have spoken := Machine.says_step c.world.store m other r
    generalize Machine.step c.world.store m p r = out at after said spoken
    have suspended {t : Store} {v : Val} {how : Suspension} {q : Machine.Phase}
        (made : out = (t, .ask (.yield v how) q)) :
        c.uttered? g = some v ∧ d = ⟨({ c.world with store := t }).setStatus h
          (.suspended (.library (.machine m q)) how), rest, .reply (.yielded v)⟩ := by
      subst made
      exact ⟨(said v).2 ⟨how, q, rfl⟩, after⟩
    cases spoken with
    | silent silent =>
        refine .quiet ?_ (after ▸ silent.within active stack same _)
        rw [Option.eq_none_iff_forall_not_mem]
        intro v mem
        obtain ⟨how, q, made⟩ := (said v).1 mem
        exact silent.unyielded v how q made
    | escape id action =>
        obtain ⟨said, rfl⟩ := suspended rfl
        exact .escape said ⟨id, action, rfl⟩
          (.of_leaving active stack same rfl (.escaped (by simp)) rfl)
    | @resends op _ received resends =>
        cases resends with
        | intro id invoked brings empty pending frames around taken =>
            obtain ⟨said, rfl⟩ := suspended rfl
            refine .resends said ⟨op, ?_, .intro id invoked brings empty pending frames around taken⟩
              (.of_leaving active stack same rfl (.resent rfl) rfl) ?_
            · rw [Config.received?_machine stack signal, received]
            · have running := Within.status_of_turn active stack same
              simp [World.setStatus, Array.getElem?_modify, same, running]
  · exact .quiet (within.uttered?_of_idle turns) (within.idle active stepped turns)

/-! ## After the resend -/

theorem World.setStatus_setStatus (w : World G) (g : Gen) (t u : Status G) :
    (w.setStatus g t).setStatus g u = w.setStatus g u := by
  unfold World.setStatus
  congr 1
  refine Array.ext_getElem? fun i => ?_
  simp only [Array.getElem?_modify]
  split
  · simp [Function.comp_def]
  · rfl

theorem Store.setStack_of_empty {s : Store} (empty : s.stack m = []) : s.setStack m [] = s := by
  -- what is replaced is what was there
  have same {α : Type} {xs : Array α} {i : Nat} {f : α → α} (fixed : ∀ v ∈ xs[i]?, f v = v) :
      xs.modify i f = xs := by
    refine Array.ext_getElem? fun j => ?_
    rw [Array.getElem?_modify]
    split
    · rename_i here
      subst here
      cases found : xs[i]? with
      | none => rfl
      | some v => exact congrArg some (fixed v found)
    · rfl
  unfold Store.setStack
  split
  · rename_i l owner here
    simp only [Store.stack, here, Store.list, Array.getD_eq_getD_getElem?, List.reverse_eq_nil_iff,
      Array.toList_eq_nil_iff] at empty
    rw [same]
    intro v found
    rw [Option.mem_def] at found
    simpa [found] using empty.symm
  · rfl
  · rename_i unshared_list unshared
    rw [same]
    rintro ⟨frames, owner⟩ found
    cases frames with
    | own frames =>
        rw [Store.stack, found] at empty
        exact congrArg (MachineRecord.mk · owner) (congrArg Stack.own empty.symm)
    | shared v => exact absurd found (unshared v owner)

/-- A machine without a stack hands on what it gets at its resend. -/
theorem Machine.step_resent {s : Store} (empty : s.stack m = []) (r : Reply) :
    step s m .resent r = (s, match r with | .raised x => .raise x | .value v | .yielded v => .done v) := by
  have settled (o : Outcome) : settle s m o = (s, o.finish) := by
    simp [settle, empty, deliver, Store.setStack_of_empty empty]
  cases r with
  | raised x =>
      simp only [step, fail, settled]
      split <;> rfl
  | _ => exact settled _

/-- A machine that has resent its stack is a relay, as long as nobody gives it another one. -/
theorem Within.relays (within : Within (· = .resent) c g m) (active : c.Active) (stepped : c.step = .ok d)
    (empty : c.world.store.stack m = [])
    (alone : ¬ c.Turns g → d.world.store.stack m = c.world.store.stack m) :
    c.uttered? g = none ∧ Within (· = .resent) d g m ∧ d.world.store.stack m = [] := by
  by_cases turns : c.Turns g
  · obtain ⟨h, p, rest, r, same, rfl, stack, signal⟩ := within.turn turns
    have after := Config.step_machine stepped stack signal
    have said (v : Val) := Config.uttered?_machine same stack signal v
    rw [Machine.step_resent empty] at after said
    refine ⟨?_, ?_, ?_⟩
    · rw [Option.eq_none_iff_forall_not_mem]
      intro v mem
      obtain ⟨how, q, made⟩ := (said v).1 mem
      cases r <;> cases made
    · rw [after]
      exact .of_ending active stack same (by cases r <;> rfl) _
    · rw [after]
      cases r with
      | raised x =>
          simp only [Turn.map, Config.turnOf, Config.leave]
          split <;> exact empty
      | _ => exact empty
  · exact ⟨within.uttered?_of_idle turns, within.idle active stepped turns, (alone turns).trans empty⟩

section

variable {w : World G} {h : Gen} {S : List (Activation G)}
  (suspended : w.status h = .suspended (.library (.machine m .resent)) .inner)
  (empty : w.store.stack m = [])

include suspended empty

/-- What is sent into a machine that has resent its stack comes back, and nothing else is run. -/
theorem Config.relay_send (u : Val) :
    Config.Reaches 2 ⟨w, S, .advance h (.send u)⟩ ⟨w.setStatus h .finished, S, .reply (.value u)⟩ := by
  refine .step (d := ⟨w.setStatus h .running, .running h (.library (.machine m .resent)) :: S, .reply (.value u)⟩)
    (by simp [step, advance, suspended, reply]) (.one ?_)
  have turn : (Process.machine m .resent).step w.store (.value u) = (w.store, .done u) := by
    simp only [Process.step, Machine.step_resent empty]
    rfl
  simpa [step, deliver, Routine.step, turn, Turn.map, turnOf, reply, World.setStatus]
    using congrArg World.gens (World.setStatus_setStatus w h .running .finished)

/-- So does what is thrown into it. -/
theorem Config.relay_throw (x : Exc) (going : x.kind ≠ .stopIteration) :
    Config.Reaches 2 ⟨w, S, .advance h (.throw (.exc x))⟩ ⟨w.setStatus h .finished, S, .reply (.raised x)⟩ := by
  refine .step (d := ⟨w.setStatus h .running, .running h (.library (.machine m .resent)) :: S, .reply (.raised x)⟩)
    (by simp [step, advance, suspended, thrownInto, reply]) (.one ?_)
  have turn : (Process.machine m .resent).step w.store (.raised x) = (w.store, .raise x) := by
    simp only [Process.step, Machine.step_resent empty]
    rfl
  simpa [step, deliver, Routine.step, turn, Turn.map, turnOf, leave, going, reply, World.setStatus]
    using congrArg World.gens (World.setStatus_setStatus w h .running .finished)

end

/-! ## Runs of a machine -/

/--
A run from `c` on which nothing but the generator `g` changes the stack of the machine `m`,
with the configurations that it came through, the last one first.
-/
inductive Alone (g : Gen) (m : Nat) (c : Config G) : Trace G → Config G → Prop
  | start : Alone g m c [] c
  | step {trace : Trace G} {d e : Config G} (before : Alone g m c trace d) (stepped : d.step = .ok e)
      (sole : ¬ d.Turns g → e.world.store.stack m = d.world.store.stack m) : Alone g m c (d :: trace) e

/-- What the generator `g` has yielded, in this order. -/
def Trace.uttered (trace : Trace G) (g : Gen) : List Val := trace.reverse.filterMap (·.uttered? g)

/-- Somebody sends or throws something into the generator `g`, or closes it. -/
def Config.Addresses (c : Config G) (g : Gen) : Prop :=
  ∃ h, h.id = g.id ∧ (c.signal = .close h ∨ ∃ i, c.signal = .advance h i)

/-- What there is to know of a machine by what it has yielded. -/
inductive Spoken (g : Gen) (m : Nat) (trace : Trace G) (d : Config G) : Prop
  | going (within : Within (· ≠ .resent) d g m)
      (escapes : ∀ b ∈ trace, ∀ u, b.uttered? g = some u → u.IsEscape)
  | spent {later before : Trace G} {b : Config G} {id : Nat} {q : Resend} (split : trace = later ++ b :: before)
      (said : b.uttered? g = some (.resend id q))
      (escapes : ∀ a ∈ before, ∀ u, a.uttered? g = some u → u.IsEscape)
      (silent : ∀ a ∈ later, a.uttered? g = none) (within : Within (· = .resent) d g m)
      (empty : d.world.store.stack m = [])

namespace Alone

variable {trace : Trace G}

theorem active (run : Alone g m c trace d) (active : c.Active) : d.Active := by
  induction run with
  | start => exact active
  | step before stepped sole ih => exact ih.step (Config.moves_step stepped)

variable (active : c.Active) (fresh : c.world.status g = .fresh (.library (.machine m .start)))

include active fresh

theorem spoken (run : Alone g m c trace d) : Spoken g m trace d := by
  induction run with
  | start => exact .going (.of_fresh active (by simp) fresh) (by simp)
  | @step trace d e before stepped sole ih =>
      have active' := before.active active
      cases ih with
      | going within escapes =>
          cases within.speaks active' stepped with
          | quiet unsaid within =>
              refine .going within (List.forall_mem_cons.2 ⟨fun u said => ?_, escapes⟩)
              rw [unsaid] at said
              cases said
          | escape said escape within =>
              refine .going within (List.forall_mem_cons.2 ⟨fun u said' => ?_, escapes⟩)
              cases said.symm.trans said'
              exact escape
          | resends said resent within status =>
              obtain ⟨op, -, resends⟩ := resent
              cases resends with
              | intro id invoked brings empty pending frames around taken =>
                  have split : d :: trace = [] ++ d :: trace := rfl
                  exact .spent split said escapes (by simp) within empty
      | spent split said escapes silent within empty =>
          subst split
          obtain ⟨unsaid, within, empty⟩ := within.relays active' stepped empty sole
          exact .spent (List.cons_append ..).symm said escapes (List.forall_mem_cons.2 ⟨unsaid, silent⟩)
            within empty

/-- What is not an escape is a resend of the whole stack. -/
theorem speaks (run : Alone g m c trace d) (stepped : d.step = .ok e)
    (sole : ¬ d.Turns g → e.world.store.stack m = d.world.store.stack m) {v : Val}
    (said : d.uttered? g = some v) : v.IsEscape ∨ Resent d e m v ∧
      e.world.gens[g.id]? = some (.suspended (.library (.machine m .resent)) .inner) := by
  have active' := run.active active
  cases run.spoken active fresh with
  | going within escapes =>
      cases within.speaks active' stepped with
      | quiet unsaid within =>
          rw [unsaid] at said
          cases said
      | escape said' escape within =>
          cases said'.symm.trans said
          exact .inl escape
      | resends said' resent within status =>
          cases said'.symm.trans said
          exact .inr ⟨resent, status⟩
  | spent split said' escapes silent within empty =>
      rw [(within.relays active' stepped empty sole).1] at said
      cases said

/-- A machine waits at its resend until something is sent or thrown into it. -/
theorem waits {later before : Trace G} {b : Config G} {v : Val}
    (run : Alone g m c (later ++ b :: before) d) (said : b.uttered? g = some v) (other : ¬ v.IsEscape)
    (unasked : ∀ a ∈ later, ¬ a.Addresses g) :
    d.world.gens[g.id]? = some (.suspended (.library (.machine m .resent)) .inner) := by
  induction later generalizing d with
  | nil =>
      cases run with
      | step before stepped sole =>
          exact ((before.speaks active fresh stepped sole said).resolve_left other).2
  | cons a later ih =>
      cases run with
      | step before stepped sole =>
          have status := ih before fun a mem => unasked a (List.mem_cons_of_mem _ mem)
          have asks := unasked a List.mem_cons_self
          have moves := Config.moves_step stepped
          rcases moves.status_of_idle (before.active active) status (by simp) with
            kept | ⟨h, i, asked, same⟩ | ⟨h, asked, same⟩
          · exact kept
          · exact absurd ⟨h, same, .inr ⟨i, asked⟩⟩ asks
          · exact absurd ⟨h, same, .inl asked⟩ asks

end Alone

/-- What a machine says, and what becomes of what is said to it. -/
structure Outward (g : Gen) (m : Nat) (trace : Trace G) (d : Config G) : Prop where
  /-- It yields escapes, and then one resend at most. -/
  yields : ∃ escapes last, trace.uttered g = escapes ++ Option.toList last ∧
    (∀ v ∈ escapes, v.IsEscape) ∧ ∀ v ∈ last, ∃ id q, v = .resend id q
  /-- By the resend it gives its whole stack away. -/
  resends : ∀ b ∈ trace, ∀ e v, b.step = .ok e → b.uttered? g = some v → v.IsEscape ∨ Resent b e m v
  /-- After the resend it hands on what it gets, without any step but its own. -/
  relays : ∀ later b before v, trace = later ++ b :: before → b.uttered? g = some v → ¬ v.IsEscape →
    (∀ a ∈ later, ¬ a.Addresses g) → ∀ h, h.id = g.id →
      (∀ u, d.signal = .advance h (.send u) →
        Config.Reaches 2 d ⟨d.world.setStatus h .finished, d.stack, .reply (.value u)⟩) ∧
      ∀ x, d.signal = .advance h (.throw (.exc x)) → x.kind ≠ .stopIteration →
        Config.Reaches 2 d ⟨d.world.setStatus h .finished, d.stack, .reply (.raised x)⟩

/-- In a run in which a program builds nothing by hand, a machine is alone with its stack. -/
theorem RunOf.alone {trace : Trace G} (run : RunOf Genuine trace d) (ran : (m, g.id) ∈ trace.ran) :
    ∃ c later, c.Active ∧ c.world.status g = .fresh (.library (.machine m .start)) ∧
      Alone g m c later d := by
  induction run with
  | start fresh => cases ran
  | @step trace d e before genuine stepped ih =>
      have standing := before.standing fun _ _ h => h
      rcases Trace.mem_ran_cons ran with now | ran
      · obtain ⟨m', ran', same⟩ := Option.map_eq_some_iff.1 now
        obtain ⟨rfl, new⟩ := Prod.mk.inj same
        refine ⟨e, [], standing.active.step (Config.moves_step stepped), World.status_of ?_, .start⟩
        simp [Config.gens_of_ran ran' stepped, ← new]
      · obtain ⟨c, later, active, fresh, alone⟩ := ih ran
        refine ⟨c, d :: later, active, fresh, alone.step stepped fun idle => ?_⟩
        -- the machine is run once, so that only its generator makes its steps
        refine (standing.shift genuine stepped).stack_eq standing.sound standing.seated
          (standing.sound.ran m _ ran) fun here => idle ?_
        obtain ⟨a, rest, r, p, stack, signal, machine⟩ := Config.stepped?_eq_some here
        obtain ⟨h, rfl, ran', -⟩ := standing.seated.machine (by rw [stack]; exact .head _) machine
        exact ⟨h, _, rest, r, standing.seated.once m _ _ ran' ran, stack, signal⟩

/-- The outward protocol of a machine: whatever its stack holds, and whatever it gets as replies. -/
theorem Alone.outward {trace : Trace G} (run : Alone g m c trace d) (active : c.Active)
    (fresh : c.world.status g = .fresh (.library (.machine m .start))) : Outward g m trace d := by
  refine ⟨?_, ?_, ?_⟩
  · cases run.spoken active fresh with
    | going within escapes =>
        refine ⟨trace.uttered g, none, by simp, fun v mem => ?_, by simp⟩
        obtain ⟨b, there, said⟩ := List.mem_filterMap.1 mem
        exact escapes b (List.mem_reverse.1 there) v said
    | @spent later before b id q split said escapes silent within empty =>
        refine ⟨before.uttered g, some (.resend id q), ?_, fun v mem => ?_, by simp⟩
        · have nothing : later.reverse.filterMap (·.uttered? g) = [] := by
            rw [List.filterMap_eq_nil_iff]
            exact fun a mem => silent a (List.mem_reverse.1 mem)
          simp [split, Trace.uttered, said, nothing]
        · obtain ⟨a, there, said⟩ := List.mem_filterMap.1 mem
          exact escapes a (List.mem_reverse.1 there) v said
  · intro b mem e v stepped said
    induction run with
    | start => cases mem
    | step before stepped' sole ih =>
        rcases List.mem_cons.1 mem with rfl | mem
        · cases stepped'.symm.trans stepped
          exact (before.speaks active fresh stepped sole said).imp_right And.left
        · exact ih mem
  · rintro later b before v rfl said other unasked h same
    have there := run.waits active fresh said other unasked
    have suspended : d.world.status h = .suspended (.library (.machine m .resent)) .inner :=
      (World.status_congr _ same).trans (World.status_of there)
    have empty : d.world.store.stack m = [] := by
      cases run.spoken active fresh with
      | going within escapes => exact absurd (escapes b (by simp) v said) other
      | spent split said escapes silent within empty => exact empty
    obtain ⟨w, S, signal⟩ := d
    refine ⟨fun u sent => ?_, fun x thrown going => ?_⟩
    · cases sent
      exact Config.relay_send suspended empty u
    · cases thrown
      exact Config.relay_throw suspended empty x going

/-- The next step is the resend of a machine that the program has run. -/
def Config.resending (trace : Trace G) (c : Config G) : Bool :=
  match c.stack, c.yields? with
  | .running g (.library (.machine m _)) :: _, some (h, .resend _ _) =>
      decide ((m, g.id) ∈ trace.ran) && h.id == g.id
  | _, _ => false

open Script in
/-- A machine without an owner for what a computation performs resends it. -/
theorem Alone.outward_crossing : ∃ (g : Gen) (m id : Nat) (q : Resend) (c d : Config language)
    (trace : Trace language), c.Active ∧ c.world.status g = .fresh (.library (.machine m .start)) ∧
      Alone g m c trace d ∧ .resend id q ∈ trace.uttered g ∧ Outward g m trace d := by
  obtain ⟨trace, d, run, found⟩ : ∃ trace d, RunOf Genuine trace d ∧ d.resending trace = true :=
    exists_run (fresh_begin crossing) 115 (by decide +kernel)
  unfold Config.resending at found
  split at found
  · rename_i g m p rest h id q stack yields
    simp only [Bool.and_eq_true, decide_eq_true_eq, beq_iff_eq] at found
    obtain ⟨ran, same⟩ := found
    have said : d.uttered? g = some (.resend id q) := by simp [Config.uttered?, yields, same]
    obtain ⟨r, signal⟩ : ∃ r, d.signal = .reply r := by
      unfold Config.yields? at yields
      split at yields
      · exact ⟨_, ‹_›⟩
      · exact ⟨_, ‹_›⟩
      · cases yields
    obtain ⟨e, stepped⟩ : ∃ e, d.step = .ok e := by
      obtain ⟨w, S, _⟩ := d
      cases stack
      cases signal
      exact ⟨_, rfl⟩
    obtain ⟨c, later, active, fresh, alone⟩ := run.alone ran
    have alone' := alone.step stepped fun idle => absurd ⟨g, _, rest, r, rfl, stack, signal⟩ idle
    refine ⟨g, m, id, q, c, e, d :: later, active, fresh, alone', ?_, alone'.outward active fresh⟩
    exact List.mem_filterMap.2 ⟨d, by simp, said⟩
  · cases found

end OneShot
