import OneShot.Kernel
import OneShot.Proofs.Quiet

/-!
# Quiet routines and calls

Most routines of the library and most calls leave the engine alone.  The others
are known by what they are: machines, whatever makes one, and the building of
records by hand; and the calls that take a continuation, which do nothing else.
-/

namespace OneShot

open Store (Quietly)

/-! ## Routines -/

theorem Driver.quiet_abandon {σ : Type} (waiting : List Val → σ) (s : Store) (op : Val)
    (rest : List Val) : Quietly s (abandon waiting s op rest).1 := by
  have composed (effect context : Val) : Quietly s (uncaught s op effect context).1 := by
    have noted := Quietly.note s .driver
      fun _ => "uncaught effect " ++ s.str effect ++ " reached the top"
    have kept := noted.trans (quiet_uncaughtEffectError op effect context _)
    unfold uncaught
    dsimp only
    split <;> (rename_i made; rw [made] at kept; exact kept)
  cases rest with
  | nil =>
      change Quietly s (escapedError s op).1
      unfold escapedError
      split
      · exact composed _ _
      · exact composed _ _
      · exact .newException _ _ _ _
      · exact .newException _ _ _ _
  | cons v rest => exact .refl s

theorem Execute.quiet_step {p : Phase} (h : p ≠ .converting) (s : Store) (r : Reply) :
    Quietly s (step s p r).1 := by
  unfold step
  split
  case h_2 => exact absurd rfl h
  case h_4 =>
      dsimp only
      exact .note _ _ _
  case h_5 => exact Driver.quiet_abandon _ _ _ _
  case h_6 => exact Driver.quiet_abandon _ _ _ _
  all_goals exact .refl s

theorem ExecuteAsync.quiet_step {p : Phase} (h : p ≠ .converting) (s : Store) (r : Reply) :
    Quietly s (step s p r).1 := by
  have failed (g : Gen) (n : Nat) (x : Exc) : Quietly s (awaitFailed s g n x).1 := by
    unfold awaitFailed
    split
    · dsimp only
      exact .note _ _ _
    · exact .refl s
  unfold step
  split
  case h_2 => exact absurd rfl h
  case h_4 =>
      dsimp only
      exact .note _ _ _
  case h_5 =>
      dsimp only
      exact .note _ _ _
  case h_6 => exact Driver.quiet_abandon _ _ _ _
  case h_8 => exact failed _ _ _
  case h_10 => exact failed _ _ _
  case h_12 => exact Driver.quiet_abandon _ _ _ _
  all_goals exact .refl s

theorem Loop.quiet_step (s : Store) (p : Phase) (r : Reply) : Quietly s (step s p r).1 := by
  cases p <;> cases r <;> exact .same rfl rfl

theorem Gather.quiet_step (s : Store) (p : Phase) (r : Reply) : Quietly s (step s p r).1 := by
  have asked (t : Store) (q : Progress) : Quietly t (next t q).1 := by
    unfold next
    split <;> exact .same rfl rfl
  have answered (q : Progress) (t : Task) (parts : List Val) :
      Quietly s (answer s q t parts).1 := by
    have kept := asked (s.newList parts.toArray).1
      { q with answers := (t.place, (s.newList parts.toArray).2) :: q.answers }
    exact ⟨kept.engine, kept.numbers⟩
  cases p with
  | start queue =>
      have kept := asked { s with looping := true } ⟨queue, [], s.looping⟩
      exact ⟨kept.engine, kept.numbers⟩
  | running t q =>
      cases r with
      | value v => exact answered q t _
      | yielded v => exact asked s _
      | raised x => exact answered q t _

theorem StateLoop.step_fst (s : Store) (p : Phase) (r : Reply) : (step s p r).1 = s := by
  cases p <;> cases r <;> rfl

theorem AwaitClause.quiet_step (s : Store) (p : Phase) (r : Reply) :
    Quietly s (step s p r).1 := by
  unfold step
  split
  all_goals try exact .refl s
  · exact ⟨rfl, Nat.le_add_right s.nextId 2⟩
  · split <;> exact .refl s

namespace Process

/-- Whether a routine may change the engine. -/
def moves : Process → Bool
  | .machine .. | .applied .. | .execute .converting | .executeAsync .converting => true
  | .collecting _ _ (.frames _) | .collected _ (.frames _) => true
  | _ => false

theorem quiet_closeNext (s : Store) (rest : List Val) : Quietly s (closeNext s rest).1 := by
  cases rest <;> exact .refl s

theorem quiet_raceNext (s : Store) (k : Val) (won lost : Nat) (outer : Bool) (n : Nat) :
    Quietly s (raceNext s k won lost outer n).1 := by
  cases n with
  | zero => exact .same rfl rfl
  | succ n => exact .refl s

theorem quiet_turn {a : Change Val} (h : a.Quiet) (s : Store) :
    Quietly s (match a.run s with
      | (.ok v, s) => (s, Turn.done v)
      | (.error x, s) => (s, .raise x) : Store × Turn Process).1 := by
  have kept := h s
  split <;> (rename_i made; rw [made] at kept; exact kept)

theorem quiet_use {p : Purpose} (h : ∀ k, p ≠ .frames k) (s : Store) (vs : List Val) :
    Quietly s (use s vs p).1 := by
  cases p with
  | arguments r effect rest => exact quiet_turn (Record.quiet_invocation _ _ _ _) s
  | frames k => exact absurd rfl (h k)
  | clauses onReturn =>
      exact (Quietly.newTable s []).trans (quiet_turn (Handler.quiet_make onReturn _) _)
  | closing => exact quiet_closeNext _ _

theorem quiet_step {p : Process} (still : p.moves = false) (s : Store) (r : Reply) :
    Quietly s (step s p r).1 := by
  cases p with
  | machine m phase => contradiction
  | execute phase =>
      refine Execute.quiet_step (fun same => ?_) s r
      subst same
      contradiction
  | executeAsync phase =>
      refine ExecuteAsync.quiet_step (fun same => ?_) s r
      subst same
      contradiction
  | loop phase => exact Loop.quiet_step s phase r
  | gather phase => exact Gather.quiet_step s phase r
  | state phase =>
      have same : (step s (.state phase) r).1 = s := StateLoop.step_fst s phase r
      rw [same]
      exact .refl s
  | awaitClause phase => exact AwaitClause.quiet_step s phase r
  | performing e args caller => exact .invocation s e args caller
  | converting =>
      cases r with
      | value v =>
          simp only [step]
          split <;> exact .refl s
      | yielded v => exact .refl s
      | raised x => exact .refl s
  | applied h t => contradiction
  | stepped =>
      simp only [step]
      split <;> exact .same rfl rfl
  | collecting g seen purpose =>
      cases r with
      | value v =>
          refine quiet_use (fun k same => ?_) s seen.reverse
          subst same
          contradiction
      | yielded v =>
          simp only [step]
          split <;> exact .refl s
      | raised x => exact .refl s
  | collected vs purpose =>
      refine quiet_use (fun k same => ?_) s vs
      subst same
      contradiction
  | closing contents =>
      cases r with
      | value v => exact quiet_closeNext s contents
      | yielded v => exact .refl s
      | raised x => exact .refl s
  | launched =>
      cases r with
      | value v => cases v <;> exact .refl s
      | yielded v => exact .refl s
      | raised x => exact .refl s
  | racing k n =>
      have kept := quiet_raceNext { s with looping := false } k 0 0 s.looping n
      exact ⟨kept.engine, kept.numbers⟩
  | raced k n won lost outer =>
      cases r with
      | value v => exact quiet_raceNext s k _ _ outer n
      | yielded v => exact .refl s
      | raised x => exact quiet_raceNext s k _ _ outer n
  | thrown =>
      cases r with
      | value v => exact .next rfl rfl
      | yielded v => exact .refl s
      | raised x => exact .refl s
  | yielded => cases r <;> exact .same rfl rfl
  | _ => cases r <;> exact .refl s

end Process

/-! ## Calls -/

/-- What a call takes a continuation for: to send it a value or to raise an error in it. -/
structure Signal.Request where
  cont : Cont
  value : Val
  error : Val

namespace Signal

/-- The request that a call makes, if it calls, resumes or throws into a continuation. -/
def request? : Signal → Option Request
  | .call (.cont k) [] _ => some ⟨k, .none, .none⟩
  | .call (.cont k) [v] _ => some ⟨k, v, .none⟩
  | .call (.native (.service .resume)) [.cont k] _ => some ⟨k, .none, .none⟩
  | .call (.native (.service .resume)) [.cont k, v] _ => some ⟨k, v, .none⟩
  | .call (.native (.service .throwInto)) [.cont k, x] _ => some ⟨k, .none, x⟩
  | _ => none

/-- The continuation that a call takes. -/
def taken? : Signal → Option Cont
  | .call (.native (.op .markConsumed)) [.cont k] _ => some k
  | signal => signal.request?.map (·.cont)

/-- Whether a call builds a record that the engine keeps. -/
def builds : Signal → Bool
  | .call (.native (.service (.build r))) _ _ =>
      r == .machine || r == .continuation || r == .rehandled
  | _ => false

end Signal

theorem Cont.quiet_request (s : Store) (k : Cont) (value error : Val) (text : Store → String) :
    Quietly (s.take k).1 (k.request s value error text).1 := by
  unfold Cont.request
  split
  · rename_i t made
    rw [made]
    exact .next rfl rfl
  · rename_i t made
    rw [made]
    have noted := Quietly.note t .continuation fun _ => t.repr (.cont k) ++ " resumed with " ++ text t
    exact noted.trans (.freshId _)

theorem Start.quiet_ofChange {a : Change Val} (h : a.Quiet) (s : Store) :
    Quietly s (ofChange a s).1 := by
  have kept := h s
  unfold ofChange
  split <;> (rename_i made; rw [made] at kept; exact kept)

theorem Purpose.start_fst (s : Store) (p : Purpose) (v : Val) : (p.start s v).1 = s := by
  unfold Purpose.start
  split <;> rfl

/-- Marking a continuation consumed is a take without a request. -/
theorem Op.start_markConsumed (s : Store) (k : Cont) :
    Start.ofChange (Op.apply .markConsumed [.cont k]) s =
      if s.isTaken k then
        ((s.doubleResumeError (.cont k)).1, .raise (s.doubleResumeError (.cont k)).2)
      else ((s.take k).1, .done .none) := by
  unfold Start.ofChange Op.apply
  cases h : s.isTaken k with
  | true => simp [Change.run_bind, Store.take_of_isTaken h]
  | false => simp [Change.run_bind, h]

theorem Op.quiet_markConsumed {args : List Val} (h : ∀ k, args ≠ [.cont k]) :
    (Op.apply .markConsumed args).Quiet := by
  match args, h with
  | [], _ => exact Change.Quiet.fail _
  | [v], h =>
      cases v with
      | cont k => exact absurd rfl (h k)
      | _ => exact Change.Quiet.fail _
  | v :: w :: rest, _ => cases v <;> exact Change.Quiet.fail _

/-- Apart from the continuation that it takes, a call is quiet unless it builds something. -/
def Signal.Calls (signal : Signal) (s t : Store) : Prop :=
  match signal.taken? with
  | some k => Quietly (s.take k).1 t
  | none => signal.builds = false → Quietly s t

theorem Signal.Calls.of_quietly {signal : Signal} {s t : Store} (none_taken : signal.taken? = none)
    (h : signal.builds = false → Quietly s t) : signal.Calls s t := by
  unfold Signal.Calls
  rw [none_taken]
  exact h

theorem Op.calls_start (s : Store) (o : Op) (args : List Val) (caller : Caller) :
    (Signal.call (.native (.op o)) args caller).Calls s (Start.ofChange (o.apply args) s).1 := by
  by_cases mark : ∃ k, o = .markConsumed ∧ args = [.cont k]
  · obtain ⟨k, rfl, rfl⟩ := mark
    change Quietly (s.take k).1 _
    rw [Op.start_markConsumed]
    split
    · rename_i taken
      rw [Store.take_of_isTaken taken]
      exact .next rfl rfl
    · exact .refl _
  · refine .of_quietly ?_ fun _ => Start.quiet_ofChange ?_ s
    · unfold Signal.taken?
      split
      · rename_i k _ same
        simp only [Signal.call.injEq, Val.native.injEq, Native.op.injEq] at same
        exact absurd ⟨k, same.1, same.2.1⟩ mark
      · rfl
    · by_cases h : o = .markConsumed
      · subst h
        exact Op.quiet_markConsumed fun k same => mark ⟨k, rfl, same⟩
      · exact Op.quiet_apply h args

theorem Service.startLoop_fst (s : Store) (p : Process) : (startLoop s p).1 = s := by
  unfold startLoop
  split <;> rfl

theorem Service.run_fst (s : Store) (v : Val) (args : List Val) : (run s v args).1 = s := by
  unfold run
  split <;> rfl

theorem Handler.quiet_start (s : Store) (onReturn table : Val) :
    Quietly s (Handler.start s onReturn table).1 := by
  unfold Handler.start
  split
  · exact .refl s
  · exact Start.quiet_ofChange (Handler.quiet_make _ _) s

theorem Computation.convert_fst (s : Store) (c : Val) : (convert s c).1 = s := by
  unfold convert
  split
  · rfl
  · split <;> rfl

theorem RecordKind.quiet_start {r : RecordKind} (hm : r ≠ .machine) (hc : r ≠ .continuation)
    (hr : r ≠ .rehandled) (s : Store) (args : List Val) : Quietly s (r.start s args).1 := by
  have started (p : Purpose) (v : Val) : Quietly s (p.start s v).1 := by
    rw [Purpose.start_fst]
    exact .refl s
  unfold RecordKind.start
  split
  · exact started _ _
  · exact started _ _
  · exact absurd rfl hc
  · exact absurd rfl hr
  · exact Handler.quiet_start _ _ _
  · exact Start.quiet_ofChange (Record.quiet_build hm _) s

/-- Services other than a resume, a throw and the building of records are quiet. -/
theorem Service.quiet_start (s : Store) {f : Service} (hr : f ≠ .resume) (ht : f ≠ .throwInto)
    (hb : ∀ r, f ≠ .build r) (args : List Val) : Quietly s (f.start s args).1 := by
  have kept {t : Store} (same : t = s) : Quietly s t := same ▸ .refl s
  unfold Service.start
  split
  case h_1 r => exact absurd rfl (hb r)
  case h_2 => exact Handler.quiet_start _ _ _
  case h_3 => exact kept (Computation.convert_fst _ _)
  case h_7 => exact kept (startLoop_fst _ _)
  case h_9 => exact kept (startLoop_fst _ _)
  case h_10 => exact kept (run_fst _ _ _)
  case h_11 => exact kept (run_fst _ _ _)
  case h_12 => exact kept (Purpose.start_fst _ _ _)
  case h_13 => exact absurd rfl hr
  case h_14 => exact absurd rfl hr
  case h_15 => exact absurd rfl ht
  case h_17 => split <;> exact .same rfl rfl
  case h_18 => split <;> exact .same rfl rfl
  case h_24 site e args =>
      have context := Site.quiet_siteContext site s
      split
      · rename_i made
        rw [made] at context
        exact context.trans ⟨rfl, Nat.le_add_right _ 2⟩
      · rename_i made
        rw [made] at context
        exact context
  all_goals first | exact .refl s | exact .same rfl rfl | exact .next rfl rfl

theorem Service.calls_start (s : Store) (f : Service) (args : List Val) (caller : Caller) :
    (Signal.call (.native (.service f)) args caller).Calls s (f.start s args).1 := by
  by_cases hr : f = .resume
  · subst hr
    match args with
    | [] => exact fun _ => .refl s
    | [v] => cases v <;> first | exact Cont.quiet_request _ _ _ _ _ | exact fun _ => .refl s
    | [v, w] => cases v <;> first | exact Cont.quiet_request _ _ _ _ _ | exact fun _ => .refl s
    | v :: w :: u :: rest => cases v <;> exact fun _ => .refl s
  · by_cases ht : f = .throwInto
    · subst ht
      match args with
      | [] => exact fun _ => .refl s
      | [v] => cases v <;> exact fun _ => .refl s
      | [v, w] => cases v <;> first | exact Cont.quiet_request _ _ _ _ _ | exact fun _ => .refl s
      | v :: w :: u :: rest => cases v <;> exact fun _ => .refl s
    · refine .of_quietly ?_ fun unbuilt => ?_
      · cases f <;> first | rfl | exact absurd rfl hr | exact absurd rfl ht
      · by_cases hb : ∃ r, f = .build r
        · obtain ⟨r, rfl⟩ := hb
          simp only [Signal.builds, Bool.or_eq_false_iff, beq_eq_false_iff_ne, ne_eq] at unbuilt
          exact RecordKind.quiet_start unbuilt.1.1 unbuilt.1.2 unbuilt.2 s args
        · exact quiet_start s hr ht (fun r same => hb ⟨r, same⟩) args

theorem Native.calls_start (s : Store) (f : Native) (args : List Val) (caller : Caller) :
    (Signal.call (.native f) args caller).Calls s (f.start s args).1 := by
  cases f with
  | op o => exact Op.calls_start s o args caller
  | service f => exact Service.calls_start s f args caller
  | _ =>
      refine .of_quietly rfl fun _ => ?_
      unfold Native.start
      split
      · exact .refl s
      · split <;> first | contradiction | exact .refl s | exact .next rfl rfl | (split <;> exact .refl s)

/-- The call of anything but a function of the program. -/
theorem calls_invoke (s : Store) {f : Val} (hf : ∀ id name, f ≠ .closure id name)
    (args : List Val) (caller : Caller) :
    (Signal.call f args caller).Calls s (invoke s f args caller).1 := by
  cases f with
  | closure id name => exact absurd rfl (hf id name)
  | native f => exact Native.calls_start s f args caller
  | effect e => exact fun _ => .invocation s e args caller
  | handler h =>
      intro _
      simp only [invoke]
      split
      · exact .refl s
      · exact .next rfl rfl
  | cont k =>
      match args with
      | [] => exact Cont.quiet_request s k _ _ _
      | [v] => exact Cont.quiet_request s k _ _ _
      | v :: w :: rest =>
          have surplus : ∃ fault, callSignature.fault? (rest.length + 1 + 1) = some fault := by
            simp [callSignature, Signature.fault?]
          obtain ⟨fault, surplus⟩ := surplus
          intro _
          simp only [invoke, List.length_cons, surplus]
          exact .refl s
  | _ => exact fun _ => .refl s

end OneShot
