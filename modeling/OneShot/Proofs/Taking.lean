import OneShot.Proofs.Routines

/-!
# Taking continuations

A continuation is taken by calling it, by resuming it or throwing into it, by
marking it consumed, and by a machine that dispatches a resend which carries it.
One step of the kernel takes at most the one continuation that it attempts to
take, and leaves all others as they were.
-/

namespace OneShot

namespace Store

/-- From `s` to `t` nothing is taken that was there already, except `k`. -/
structure Takes (s t : Store) (k : Option Cont) : Prop where
  grows : s.conts.size ≤ t.conts.size
  taken : ∀ j : Cont, j.index < s.conts.size →
    t.isTaken j = (s.isTaken j || k.any (·.index == j.index))

theorem isTaken_of_conts {s t : Store} (h : t.conts = s.conts) (k : Cont) :
    t.isTaken k = s.isTaken k := by
  simp [isTaken, h]

theorem isTaken_of_index {s : Store} {j k : Cont} (h : j.index = k.index) :
    s.isTaken j = s.isTaken k := by
  simp [isTaken, h]

/-- What is not there counts as taken. -/
theorem lt_of_pending {s : Store} {k : Cont} (h : s.isTaken k = false) :
    k.index < s.conts.size := by
  rcases Nat.lt_or_ge k.index s.conts.size with inside | outside
  · exact inside
  · simp [isTaken, Array.getElem?_eq_none outside] at h

namespace Takes

theorem of_conts {s t : Store} (h : t.conts = s.conts) : Takes s t none :=
  ⟨Nat.le_of_eq (by rw [h]), fun j _ => by simp [isTaken_of_conts h]⟩

theorem of_engine {s t : Store} (h : t.engine = s.engine) : Takes s t none :=
  of_conts (conts_of_engine h)

theorem of_quietly {s t : Store} (h : Quietly s t) : Takes s t none := of_engine h.engine

theorem trans {s t u : Store} {k : Option Cont} (first : Takes s t k)
    (second : Takes t u none) : Takes s u k := by
  refine ⟨Nat.le_trans first.grows second.grows, fun j hj => ?_⟩
  have hjt : j.index < t.conts.size := Nat.lt_of_lt_of_le hj first.grows
  rw [second.taken j hjt, first.taken j hj]
  simp

theorem newCont (s : Store) (frames : List Val) (inner : Option Val) :
    Takes s (s.newCont frames inner).1 none := by
  refine ⟨by simp [Store.newCont], fun j hj => ?_⟩
  simp [Store.newCont, isTaken, Array.getElem?_push, Nat.ne_of_lt hj]

theorem setFrames (s : Store) (k : Cont) (frames : List Val) :
    Takes s (s.setFrames k frames) none := by
  refine ⟨by simp [Store.setFrames], fun j _ => ?_⟩
  simp only [isTaken, Store.setFrames, Array.getElem?_modify]
  split
  · cases s.conts[j.index]? <;> simp
  · simp

theorem take (s : Store) (k : Cont) : Takes s (s.take k).1 (some k) := by
  unfold Store.take
  split
  · rename_i taken
    refine ⟨Nat.le_refl _, fun j _ => ?_⟩
    by_cases same : k.index = j.index
    · simp [← isTaken_of_index same, taken]
    · simp [same]
  · refine ⟨by simp, fun j hj => ?_⟩
    simp only [isTaken, Array.getElem?_modify]
    by_cases same : k.index = j.index
    · simp [same, hj]
    · simp [same]

end Takes
end Store

open Store (Takes)

/-! ## Machines -/

/-- The continuation that a resend carries. -/
def Val.resent? : Val → Option Cont
  | .resend _ ⟨_, _, .cont k, _⟩ => some k
  | _ => Option.none

namespace Machine

/-- What a machine got from what the frame on top held. -/
def received? : Phase → Reply → Option Val
  | .advancing _, .yielded op => some op
  | .throwing _, .value op | .throwing _, .yielded op => some op
  | _, _ => none

@[simp] theorem conts_setStack (s : Store) (m : Nat) (frames : List Val) :
    (s.setStack m frames).conts = s.conts := by
  unfold Store.setStack
  split <;> rfl

@[simp] theorem conts_deliver (s : Store) (o : Outcome) (stack : List Val) :
    (deliver s o stack).1.conts = s.conts := by
  fun_induction deliver s o stack with
  | case1 | case3 | case4 | case5 | case6 | case9 => rfl
  | case2 s rest content tag v ih => exact ih
  | case7 s rest tag content v _ t x made ih =>
      rw [ih]
      exact Store.conts_of_engine (congrArg (·.1.engine) made).symm
  | case8 s rest tag content v _ _ t x made ih =>
      rw [ih]
      exact Store.conts_of_engine (congrArg (·.1.engine) made).symm

@[simp] theorem conts_settle (s : Store) (m : Nat) (o : Outcome) :
    (settle s m o).1.conts = s.conts := by
  simp [settle]

@[simp] theorem conts_fail (s : Store) (m : Nat) (x : Exc) :
    (fail s m x).1.conts = s.conts := by
  unfold fail
  split <;> simp

theorem conts_popThen {s : Store} {m : Nat} {next : Store → Store × Turn Phase}
    (h : ∀ t, (next t).1.conts = t.conts) : (popThen s m next).1.conts = s.conts := by
  unfold popThen
  split
  · rfl
  · simp [h]

@[simp] theorem conts_finished (s : Store) (m : Nat) (v : Val) :
    (finished s m v).1.conts = s.conts :=
  conts_popThen fun _ => conts_settle _ _ _

@[simp] theorem conts_broken (s : Store) (m : Nat) (x : Exc) :
    (broken s m x).1.conts = s.conts := by
  unfold broken
  split
  · exact conts_popThen fun _ => conts_fail _ _ _
  · rfl

@[simp] theorem conts_closeNext (s : Store) (x : Exc) (rest : List Val) :
    (closeNext s x rest).1.conts = s.conts := by
  cases rest <;> rfl

theorem conts_start (s : Store) (m : Nat) : (start s m).1.conts = s.conts := by
  have shared (v : Val) : (startShared s v).1.conts = s.conts := by
    have kept := Store.conts_of_engine (Data.quiet_item v (.int (-1)) s).engine
    unfold startShared
    split
    · split <;> (rename_i h; rw [h] at kept; exact kept)
    · rfl
  unfold start
  split
  · exact conts_settle _ _ _
  · exact conts_settle _ _ _
  · exact shared _
  · rfl

theorem takes_dispatch (s : Store) (m : Nat) (e : Val) (args : Arguments) (context : Val)
    (inner : Option Cont) : Takes s (dispatch s m e args context inner).1 none := by
  have captured (below frames : List Val) :
      Takes s (capture (s.setStack m below) frames inner).1 none :=
    (Takes.of_conts (conts_setStack s m below)).trans (.newCont _ _ _)
  unfold dispatch
  split
  · exact .of_conts rfl
  · split
    · exact (captured [] (s.stack m)).trans (.of_engine (by simp))
    · rename_i slice _
      exact (captured slice.below slice.frames).trans (.of_engine (by simp))

theorem takes_receive (s : Store) (m : Nat) (content op : Val) :
    Takes s (receive s m content op).1 op.resent? := by
  unfold receive
  split
  · dsimp only
    split <;> exact .of_conts (by simp)
  · exact .of_conts rfl
  · exact takes_dispatch _ _ _ _ _ _
  · rename_i e args k context
    have taking := Takes.take s k
    split
    · rename_i t h
      rw [h] at taking
      exact taking.trans (takes_dispatch _ _ _ _ _ _)
    · rename_i t h
      rw [h] at taking
      exact taking.trans (.of_engine rfl)
  · rename_i id r other
    have none_resent : (Val.resend id r).resent? = none := by
      unfold Val.resent?
      split
      · rename_i h
        cases h
        exact (other _ _ _ _ rfl).elim
      · rfl
    rw [none_resent]
    exact .of_conts rfl
  · exact .of_conts rfl
  · rename_i other _
    have none_resent : op.resent? = none := by
      unfold Val.resent?
      split
      · exact (other _ _ rfl).elim
      · rfl
    rw [none_resent]
    exact .of_conts (conts_popThen fun _ => rfl)

/-- A machine takes only the continuation of a resend that it receives. -/
theorem takes_step (s : Store) (m : Nat) (p : Phase) (r : Reply) :
    Takes s (step s m p r).1 ((received? p r).bind Val.resent?) := by
  have called (v : Val) : (step s m .calling (.value v)).1.conts = s.conts := by
    simp only [step]
    split <;> simp [Store.freshTag]
  cases p with
  | start => cases r <;> exact .of_conts (by simp [step, conts_start])
  | calling =>
      cases r with
      | value v => exact .of_conts (called v)
      | yielded v => exact .of_conts (called v)
      | raised x => exact .of_conts (by simp [step])
  | advancing content =>
      cases r with
      | value v => exact .of_conts (by simp [step])
      | yielded op => exact takes_receive s m content op
      | raised x =>
          refine .of_conts ?_
          simp only [step]
          split <;> simp
  | throwing content =>
      cases r with
      | value op => exact takes_receive s m content op
      | yielded op => exact takes_receive s m content op
      | raised x => exact .of_conts (by simp [step])
  | escaped =>
      cases r with
      | value v => exact .of_conts (by simp [step])
      | yielded v => exact .of_conts (by simp [step])
      | raised x =>
          refine .of_conts ?_
          simp only [step]
          split <;> simp
  | resent => cases r <;> exact .of_conts (by simp [step])
  | discarding op => cases r <;> exact .of_conts (by simp [step, Store.invalidInvocationError, Store.newException])
  | closing rest x => cases r <;> exact .of_conts (by simp [step])

end Machine

/-! ## Library routines -/

namespace Process

/-- What a routine got from what it has advanced, if it is a machine. -/
def received? : Process → Reply → Option Val
  | .machine _ p, r => Machine.received? p r
  | _, _ => none

/-- A routine takes a continuation only if it is a machine that receives a resend. -/
theorem takes_step (s : Store) (p : Process) (r : Reply) :
    Takes s (step s p r).1 ((received? p r).bind Val.resent?) := by
  by_cases still : p.moves = false
  · have quiet := Takes.of_quietly (quiet_step still s r)
    cases p with
    | machine m phase => contradiction
    | _ => exact quiet
  · cases p with
    | machine m phase => exact Machine.takes_step s m phase r
    | execute phase =>
        cases phase <;> first | exact absurd rfl still | skip
        cases r with
        | value v => cases v <;> exact .of_conts rfl
        | yielded v => exact .of_conts rfl
        | raised x => exact .of_conts rfl
    | executeAsync phase =>
        cases phase <;> first | exact absurd rfl still | skip
        cases r with
        | value v => cases v <;> exact .of_conts rfl
        | yielded v => exact .of_conts rfl
        | raised x => exact .of_conts rfl
    | applied h t =>
        cases r with
        | value v => cases v <;> exact .of_conts rfl
        | yielded v => exact .of_conts rfl
        | raised x => exact .of_conts rfl
    | collecting g seen purpose =>
        cases purpose with
        | frames k =>
            cases r with
            | value v => exact .setFrames s k _
            | yielded v => exact .of_conts rfl
            | raised x => exact .of_conts rfl
        | _ => exact absurd rfl still
    | collected vs purpose =>
        cases purpose with
        | frames k => exact .setFrames s k _
        | _ => exact absurd rfl still
    | _ => exact absurd rfl still

end Process

/-! ## Calls -/

theorem RecordKind.takes_start (s : Store) (r : RecordKind) (args : List Val) :
    Takes s (r.start s args).1 none := by
  have built (r : RecordKind) (args : List Val) :
      (Start.ofChange (Record.build r args) s).1.conts = s.conts := by
    by_cases h : r = .machine
    · subst h
      cases args with
      | nil => rfl
      | cons frames rest =>
          unfold Record.build
          split <;> rfl
    · exact Store.conts_of_engine (Start.quiet_ofChange (Record.quiet_build h args) s).engine
  unfold RecordKind.start
  split
  · exact .of_conts (congrArg Store.conts (Purpose.start_fst _ _ _))
  · exact .of_conts (congrArg Store.conts (Purpose.start_fst _ _ _))
  · rename_i frames
    refine (Takes.newCont s [] none).trans (.of_conts ?_)
    exact congrArg Store.conts (Purpose.start_fst _ _ _)
  · rename_i frames inner
    refine (Takes.newCont s [] (some inner)).trans (.of_conts ?_)
    exact congrArg Store.conts (Purpose.start_fst _ _ _)
  · exact .of_quietly (Handler.quiet_start _ _ _)
  · exact .of_conts (built _ _)

/-- The call of anything but a function of the program takes what its signal says. -/
theorem takes_invoke (s : Store) {f : Val} (hf : ∀ id name, f ≠ .closure id name)
    (args : List Val) (caller : Caller) :
    Takes s (invoke s f args caller).1 (Signal.call f args caller).taken? := by
  have calls := calls_invoke s hf args caller
  unfold Signal.Calls at calls
  cases taken : (Signal.call f args caller).taken? with
  | some k =>
      rw [taken] at calls
      exact (Takes.take s k).trans (.of_quietly calls)
  | none =>
      rw [taken] at calls
      cases built : (Signal.call f args caller).builds with
      | false => exact .of_quietly (calls built)
      | true =>
          unfold Signal.builds at built
          split at built
          · rename_i r _ _ same
            cases same
            exact RecordKind.takes_start s r args
          · contradiction

/-! ## The kernel -/

variable {G : Guest}

/-- The machine that a routine is, and what it waits for. -/
def Routine.machine? : Routine G → Option (Nat × Machine.Phase)
  | .library (.machine m p) => some (m, p)
  | _ => none

/-- The machine that waits for a reply in an activation. -/
def Activation.machine? : Activation G → Option (Nat × Machine.Phase)
  | .calling r | .running _ r => r.machine?
  | _ => none

namespace Config

/-- What the topmost machine is about to receive. -/
def received? (c : Config G) : Option Val :=
  match c.stack, c.signal with
  | a :: _, .reply r => a.machine?.bind fun p => Machine.received? p.2 r
  | _, _ => none

/-- The continuation that the next step attempts to take. -/
def attempt? (c : Config G) : Option Cont :=
  (c.received?.bind Val.resent?).or c.signal.taken?

@[simp] theorem conts_refuse (w : World G) (stack : List (Activation G)) (f : Fault) :
    (refuse w stack f).world.store.conts = w.store.conts := rfl

@[simp] theorem conts_leave (w : World G) (stack : List (Activation G)) (g : Gen) (x : Exc) :
    (leave w stack g x).world.store.conts = w.store.conts := by
  unfold leave
  dsimp only
  split <;> rfl

theorem conts_await (w : World G) (stack : List (Activation G)) (g : Gen) (r : Routine G)
    (v : Val) : (await w stack g r v).world.store.conts = w.store.conts := by
  unfold await
  split
  · split
    · split <;> rfl
    · rfl
  · rfl

theorem conts_turnOf (w : World G) (stack : List (Activation G)) (g : Gen)
    (t : Turn (Routine G)) : (turnOf w stack g t).world.store.conts = w.store.conts := by
  unfold turnOf
  split
  case h_6 => split <;> rfl
  case h_7 => exact conts_await _ _ _ _ _
  case h_9 => exact conts_leave _ _ _ _
  case h_10 => exact conts_leave _ _ _ _
  all_goals rfl

theorem conts_turnOfCall (w : World G) (stack : List (Activation G)) (t : Turn (Routine G)) :
    (turnOfCall w stack t).world.store.conts = w.store.conts := by
  unfold turnOfCall
  split <;> rfl

theorem conts_advance (w : World G) (stack : List (Activation G)) (g : Gen) (i : Input) :
    (advance w stack g i).world.store.conts = w.store.conts := by
  have thrown (how : Suspension) (v : Val) :
      (thrownInto w how v).1.store.conts = w.store.conts := by
    unfold thrownInto
    split
    · split <;> rfl
    · split <;> rfl
  unfold advance
  split
  case h_4 | h_5 => split <;> rfl
  case h_6 | h_7 =>
      split
      · exact conts_leave _ _ _ _
      · rfl
  case h_11 r how v _ =>
      have kept := thrown how v
      split <;> (rename_i made; rw [made] at kept; exact kept)
  case h_13 =>
      dsimp only
      split
      · split <;> rfl
      · rfl
  all_goals rfl

theorem conts_close (w : World G) (stack : List (Activation G)) (g : Gen) :
    (close w stack g).world.store.conts = w.store.conts := by
  unfold close
  split <;> rfl

theorem takes_routine (w : World G) (p : Routine G) (r : Reply) :
    Takes w.store (p.step w r).1.store
      ((p.machine?.bind fun q => Machine.received? q.2 r).bind Val.resent?) := by
  cases p with
  | guest b => exact .of_conts rfl
  | library p =>
      have taking := Process.takes_step w.store p r
      cases p <;> exact taking

theorem takes_call (w : World G) (stack : List (Activation G)) (f : Val) (args : List Val)
    (caller : Caller) :
    Takes w.store (call w stack f args caller).world.store
      (Signal.call f args caller).taken? := by
  by_cases closure : ∃ id name, f = .closure id name
  · obtain ⟨id, name, rfl⟩ := closure
    refine .of_conts ?_
    simp only [call]
    split <;> rfl
  · have not_closure : ∀ id name, f ≠ .closure id name := fun id name h => closure ⟨id, name, h⟩
    have taking := takes_invoke w.store not_closure args caller
    unfold call
    split
    · exact absurd rfl (not_closure _ _)
    · refine taking.trans (.of_conts ?_)
      dsimp only
      split <;> rfl

@[simp] theorem attempt?_call (w : World G) (stack : List (Activation G)) (f : Val)
    (args : List Val) (caller : Caller) :
    attempt? ⟨w, stack, .call f args caller⟩ = (Signal.call f args caller).taken? := by
  cases stack <;> rfl

@[simp] theorem attempt?_advance (w : World G) (stack : List (Activation G)) (g : Gen)
    (i : Input) : attempt? ⟨w, stack, .advance g i⟩ = none := by
  cases stack <;> rfl

@[simp] theorem attempt?_close (w : World G) (stack : List (Activation G)) (g : Gen) :
    attempt? ⟨w, stack, .close g⟩ = none := by
  cases stack <;> rfl

@[simp] theorem attempt?_reply (w : World G) (a : Activation G) (stack : List (Activation G))
    (r : Reply) : attempt? ⟨w, a :: stack, .reply r⟩ =
      (a.machine?.bind fun p => Machine.received? p.2 r).bind Val.resent? :=
  Option.or_none

/-- A step takes nothing but the continuation that it attempts to take. -/
theorem takes_step {c d : Config G} (h : c.step = .ok d) :
    Takes c.world.store d.world.store c.attempt? := by
  obtain ⟨w, stack, signal⟩ := c
  cases signal with
  | call f args caller =>
      cases h
      rw [attempt?_call]
      exact takes_call w stack f args caller
  | advance g i =>
      cases h
      rw [attempt?_advance]
      exact .of_conts (conts_advance w stack g i)
  | close g =>
      cases h
      rw [attempt?_close]
      exact .of_conts (conts_close w stack g)
  | reply r =>
      cases stack with
      | nil => cases h
      | cons a stack =>
          cases h
          rw [attempt?_reply]
          cases a with
          | calling p => exact (takes_routine w p r).trans (.of_conts (conts_turnOfCall _ _ _))
          | running g p => exact (takes_routine w p r).trans (.of_conts (conts_turnOf _ _ _ _))
          | relaying g p d => cases r <;> exact .of_conts rfl
          | closing g =>
              refine .of_conts ?_
              cases r with
              | raised x =>
                  simp only [deliver]
                  split <;> rfl
              | _ => rfl
          | exiting g p x => cases r <;> exact .of_conts rfl

end Config
end OneShot
