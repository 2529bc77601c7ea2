import OneShot.Proofs.Routines
import OneShot.Proofs.Frames.Turns

/-!
# What processes go on as

A process of the library goes on as one of its kind.  A machine is begun only by
running it, the frames of a continuation that is there already are filled in
only if it was built by hand, and the tag of a handler frame is new when the
handler is applied.
-/

namespace OneShot

theorem Turn.next?_map {σ τ : Type} {f : σ → τ} {t : Turn σ} {q : τ}
    (h : (t.map f).next? = some q) : ∃ p, t.next? = some p ∧ q = f p := by
  cases t with
  | ask a p =>
      cases h
      exact ⟨p, rfl, rfl⟩
  | more p =>
      cases h
      exact ⟨p, rfl, rfl⟩
  | _ => cases h

namespace Process

/-- Whether a process is neither a machine nor fills in the frames of a continuation. -/
def plain : Process → Bool
  | .machine .. => false
  | .collect _ (.frames _) | .collecting _ _ (.frames _) | .collected _ (.frames _) => false
  | _ => true

/-- The tag of a handler frame that a process is going to put on a stack. -/
def tag? : Process → Option Tag
  | .applying _ t _ | .applied _ t => some t
  | _ => none

theorem next?_ofChange (a : Change Val) (s : Store) : (ofChange a s).2.next? = none := by
  unfold ofChange
  split <;> rfl

theorem plain_use {s : Store} {vs : List Val} {p : Purpose} {q : Process}
    (h : (use s vs p).2.next? = some q) : q.plain ∧ q.tag? = none := by
  cases p with
  | arguments r effect rest =>
      have ends := next?_ofChange (Record.invocation r effect vs rest) s
      exact absurd (ends.symm.trans h) (by simp)
  | frames k => cases h
  | clauses onReturn =>
      have ends := next?_ofChange (Handler.make onReturn (s.newTable []).2) (s.newTable []).1
      exact absurd (ends.symm.trans h) (by simp)
  | closing =>
      change (closeNext s _).2.next? = some q at h
      unfold closeNext at h
      split at h <;> cases h
      exact ⟨rfl, rfl⟩

/-- A plain process stays plain, and a tag is passed on by the one that has it. -/
theorem plain_step {s : Store} {p q : Process} {r : Reply} (plain : p.plain)
    (h : (step s p r).2.next? = some q) : q.plain ∧ (q.tag? = none ∨ q.tag? = p.tag?) := by
  have raced {t : Store} {k : Val} {won lost n : Nat} {outer : Bool}
      (h : (raceNext t k won lost outer n).2.next? = some q) :
      q.plain ∧ (q.tag? = none ∨ q.tag? = p.tag?) := by
    cases n <;> cases h
    exact ⟨rfl, .inl rfl⟩
  cases p with
  | machine m phase => contradiction
  | execute phase =>
      obtain ⟨p, -, rfl⟩ := Turn.next?_map h
      exact ⟨rfl, .inl rfl⟩
  | executeAsync phase =>
      obtain ⟨p, -, rfl⟩ := Turn.next?_map h
      exact ⟨rfl, .inl rfl⟩
  | loop phase =>
      obtain ⟨p, -, rfl⟩ := Turn.next?_map h
      exact ⟨rfl, .inl rfl⟩
  | gather phase =>
      obtain ⟨p, -, rfl⟩ := Turn.next?_map h
      exact ⟨rfl, .inl rfl⟩
  | state phase =>
      obtain ⟨p, -, rfl⟩ := Turn.next?_map h
      exact ⟨rfl, .inl rfl⟩
  | awaitClause phase =>
      obtain ⟨p, -, rfl⟩ := Turn.next?_map h
      exact ⟨rfl, .inl rfl⟩
  | applying i t c =>
      cases h
      exact ⟨rfl, .inr rfl⟩
  | stepped =>
      simp only [step] at h
      split at h <;> cases h
  | converting =>
      cases r <;> simp only [step] at h <;> first | cases h | (split at h <;> cases h)
  | applied i t =>
      cases r with
      | value v =>
          cases v <;> cases h
          exact ⟨rfl, .inl rfl⟩
      | _ => cases h
  | collect g purpose =>
      cases h
      cases purpose <;> exact ⟨plain, .inl rfl⟩
  | collecting g seen purpose =>
      cases r with
      | value v =>
          obtain ⟨plain, untagged⟩ := plain_use h
          exact ⟨plain, .inl untagged⟩
      | yielded v =>
          simp only [step] at h
          split at h <;> cases h
          cases purpose <;> exact ⟨plain, .inl rfl⟩
      | raised x => cases h
  | collected vs purpose =>
      obtain ⟨plain, untagged⟩ := plain_use h
      exact ⟨plain, .inl untagged⟩
  | closing contents =>
      cases r with
      | value v =>
          change (closeNext s contents).2.next? = some q at h
          cases contents <;> cases h
          exact ⟨rfl, .inl rfl⟩
      | _ => cases h
  | launched =>
      cases r with
      | value v =>
          cases v <;> cases h
          exact ⟨rfl, .inl rfl⟩
      | _ => cases h
  | racing k n => exact raced h
  | raced k n won lost outer =>
      cases r with
      | value v => exact raced h
      | yielded v => cases h
      | raised x => exact raced h
  | _ => cases r <;> cases h <;> exact ⟨rfl, .inl rfl⟩

end Process

/-! ## What a call enters -/

namespace Signal

/-- The machine that a call makes a generator of. -/
def ran? : Signal → Option Nat
  | .call (.native (.service .runMachine)) [.machine m] _ => some m
  | .call (.native (.service .runState)) [.machine m] _ => some m
  | _ => none

end Signal

/-- What a call, by the given signal, begins: a machine is begun only by running it. -/
def Start.Begins (signal : Signal) (s t : Store) : Start → Prop
  | .enter p => p.plain ∧ ∀ u, p.tag? = some u → u.id = s.nextId ∧ t.nextId = s.nextId + 1
  | .spawn _ _ p => p.tag? = none ∧ (p.plain ∨ ∃ m, p = .machine m .start ∧ signal.ran? = some m)
  | _ => True

section Calls

variable {signal : Signal} {s t : Store}

theorem Start.begins_ofChange (a : Change Val) : (ofChange a s).2.Begins signal s t := by
  unfold ofChange
  split <;> trivial

theorem Start.begins_enter {p : Process} (plain : p.plain) (untagged : p.tag? = none) :
    Begins signal s t (.enter p) := by
  refine ⟨plain, fun u tagged => ?_⟩
  rw [untagged] at tagged
  contradiction

theorem Cont.begins_request (k : Cont) (value error : Val) (text : Store → String) :
    (k.request s value error text).2.Begins signal s t := by
  unfold request
  split
  · trivial
  · exact ⟨rfl, .inl rfl⟩

theorem Purpose.begins_start {p : Purpose} (h : ∀ k, p ≠ .frames k) (u : Store) (v : Val) :
    (p.start u v).2.Begins signal s t := by
  unfold start
  split
  · refine Start.begins_enter ?_ rfl
    cases p <;> first | rfl | exact absurd rfl (h _)
  · refine Start.begins_enter ?_ rfl
    cases p <;> first | rfl | exact absurd rfl (h _)
  · trivial

theorem Handler.begins_start (onReturn table : Val) :
    (Handler.start s onReturn table).2.Begins signal s t := by
  unfold start
  split
  · exact Start.begins_enter rfl rfl
  · exact Start.begins_ofChange _

theorem Computation.begins_convert (c : Val) : (convert s c).2.Begins signal s t := by
  unfold convert
  split
  · trivial
  · split
    · exact Start.begins_enter rfl rfl
    · trivial

theorem RecordKind.begins_start {r : RecordKind} (hc : r ≠ .continuation) (hr : r ≠ .rehandled)
    (args : List Val) : (r.start s args).2.Begins signal s t := by
  unfold RecordKind.start
  split
  · exact Purpose.begins_start (by simp) s _
  · exact Purpose.begins_start (by simp) s _
  · exact absurd rfl hc
  · exact absurd rfl hr
  · exact Handler.begins_start _ _
  · exact Start.begins_ofChange _

theorem Service.begins_startLoop {p : Process} (plain : p.plain) (untagged : p.tag? = none) :
    (startLoop s p).2.Begins signal s t := by
  unfold startLoop
  split
  · trivial
  · exact Start.begins_enter plain untagged

theorem Service.begins_run {v : Val} {args : List Val}
    (h : ∀ m, v = .machine m → args = [] → signal.ran? = some m) :
    (run s v args).2.Begins signal s t := by
  unfold run
  split
  · exact ⟨rfl, .inr ⟨_, rfl, h _ rfl rfl⟩⟩
  · exact ⟨rfl, .inl rfl⟩
  · trivial

end Calls

theorem Service.begins_start (s : Store) (f : Service) (args : List Val) (caller : Caller)
    (unbuilt : (Signal.call (.native (.service f)) args caller).builds = false) :
    (f.start s args).2.Begins (.call (.native (.service f)) args caller) s (f.start s args).1 := by
  unfold start
  split
  case h_1 r =>
      refine RecordKind.begins_start ?_ ?_ args
      · rintro rfl
        contradiction
      · rintro rfl
        contradiction
  case h_2 => exact Handler.begins_start _ _
  case h_3 => exact Computation.begins_convert _
  case h_7 => exact begins_startLoop rfl rfl
  case h_9 => exact begins_startLoop rfl rfl
  case h_10 =>
      refine begins_run ?_
      rintro m rfl rfl
      rfl
  case h_11 =>
      refine begins_run ?_
      rintro m rfl rfl
      rfl
  case h_12 => exact Purpose.begins_start (by simp) _ _
  case h_13 => exact Cont.begins_request _ _ _ _
  case h_14 => exact Cont.begins_request _ _ _ _
  case h_15 => exact Cont.begins_request _ _ _ _
  case h_17 =>
      split
      · exact Start.begins_enter rfl rfl
      · trivial
  case h_18 =>
      split
      · exact Start.begins_enter rfl rfl
      · trivial
  case h_24 => split <;> trivial
  case h_26 => exact ⟨rfl, .inl rfl⟩
  case h_28 => exact ⟨rfl, .inl rfl⟩
  case h_6 => exact ⟨rfl, .inl rfl⟩
  all_goals first | trivial | exact Start.begins_enter rfl rfl

theorem Native.begins_start (s : Store) (f : Native) (args : List Val) (caller : Caller)
    (unbuilt : (Signal.call (.native f) args caller).builds = false) :
    (f.start s args).2.Begins (.call (.native f) args caller) s (f.start s args).1 := by
  cases f with
  | op o => exact Start.begins_ofChange _
  | service f => exact Service.begins_start s f args caller unbuilt
  | report k =>
      unfold Native.start
      split
      · trivial
      · dsimp only
        cases Report.ofKind k args <;> trivial
  | _ =>
      unfold Native.start
      split
      · trivial
      · split <;> first
          | contradiction
          | trivial
          | exact ⟨rfl, .inl rfl⟩
          | (split <;> trivial)

/-- The call of anything but a function of the program. -/
theorem begins_invoke (s : Store) (f : Val) (args : List Val) (caller : Caller)
    (unbuilt : (Signal.call f args caller).builds = false) :
    (invoke s f args caller).2.Begins (.call f args caller) s (invoke s f args caller).1 := by
  cases f with
  | native f => exact Native.begins_start s f args caller unbuilt
  | cont k =>
      simp only [invoke]
      split
      · trivial
      · exact Cont.begins_request _ _ _ _
  | handler h =>
      simp only [invoke]
      split
      · trivial
      · refine ⟨rfl, fun u tagged => ?_⟩
        cases tagged
        exact ⟨rfl, rfl⟩
  | _ => trivial

end OneShot
