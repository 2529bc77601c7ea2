import OneShot.Data
import OneShot.Error
import OneShot.Turn

/-!
# Machines

A machine runs a stack of frames.  It advances the generator on top; what the
generator yields is answered by the innermost handler frame that owns it, or
else the whole stack is captured and the invocation resent outward.  An outcome
(a value or a failure) travels down the stack: a value passes a handler frame
through its return handler, a failure passes it unchanged.

`step` is one turn of a machine.  Its stack lives in the store, so that what a
continuation captured can be pushed back by another machine.  While a machine
waits, its stack may change under it, if it is run twice at once: so each turn
goes by the stack as it is then.
-/

namespace OneShot

/-- What is delivered to the topmost frame. -/
inductive Outcome where
  | ok (v : Val)
  | failed (v : Val)

namespace Outcome

def input : Outcome → Input
  | .ok v => .send v
  | .failed v => .throw v

def finish {σ : Type} : Outcome → Turn σ
  | .ok v => .done v
  | .failed v => .raiseValue v

end Outcome

/-- A stack cut at the frame of a handler. -/
structure Slice where
  /-- The frames from the top down to the handler frame. -/
  frames : List Val
  handler : Handler
  clause : Val
  below : List Val

/-- Cuts a stack at the innermost handler frame that owns an effect. -/
def cut (e : Effect) : List Val → Option Slice
  | [] => none
  | .frame (.handler (.handler h) t) :: rest =>
    match h.clause? e with
    | some clause => some ⟨[.frame (.handler (.handler h) t)], h, clause, rest⟩
    | none => (cut e rest).map fun c =>
      { c with frames := .frame (.handler (.handler h) t) :: c.frames }
  | v :: rest => (cut e rest).map fun c => { c with frames := v :: c.frames }

/--
What goes wrong in the search for the owner of an effect: a handler frame that
holds no handler, or something that cannot be looked up.
-/
def searchFault? (e : Val) : List Val → Option Fault
  | [] => none
  | .frame (.handler content _) :: rest =>
    match content, Store.unhashable? e with
    | .handler _, some t => some (.unhashable t)
    | .handler h, none =>
      match e with
      | .effect e => if h.owns e then none else searchFault? (.effect e) rest
      | e => searchFault? e rest
    | v, _ => some (.noField v "clauses")
  | _ :: rest => searchFault? e rest

theorem frames_append_below {e : Effect} {stack : List Val} {c : Slice}
    (h : cut e stack = some c) : c.frames ++ c.below = stack := by
  induction stack generalizing c with
  | nil => simp [cut] at h
  | cons v rest ih =>
    unfold cut at h
    split at h
    · contradiction
    · rename_i l t rest' heq
      cases heq
      split at h
      · cases h; rfl
      · simp only [Option.map_eq_some_iff] at h
        obtain ⟨d, hd, rfl⟩ := h
        simp [ih hd]
    · rename_i heq
      cases heq
      simp only [Option.map_eq_some_iff] at h
      obtain ⟨d, hd, rfl⟩ := h
      simp [ih hd]

theorem cut_eq_none_iff {e : Effect} {stack : List Val} :
    cut e stack = none ↔
      ∀ h t, Val.frame (.handler (.handler h) t) ∈ stack → h.owns e = false := by
  induction stack with
  | nil => simp [cut]
  | cons v rest ih =>
    unfold cut
    split
    · contradiction
    · rename_i l t rest' heq
      cases heq
      cases hc : l.clause? e with
      | some clause =>
        simp only [reduceCtorEq, false_iff]
        intro no
        simpa [Handler.owns, hc] using no l t (by simp)
      | none =>
        simp only [Option.map_eq_none_iff, ih, List.mem_cons, Val.frame.injEq,
          Frame.handler.injEq, Val.handler.injEq]
        constructor
        · rintro all h j (⟨rfl, rfl⟩ | mem)
          · simp [Handler.owns, hc]
          · exact all h j mem
        · exact fun all h j mem => all h j (.inr mem)
    · rename_i other heq
      cases heq
      simp only [Option.map_eq_none_iff, ih, List.mem_cons]
      constructor
      · rintro all h j (rfl | mem)
        · exact (other h j rfl).elim
        · exact all h j mem
      · exact fun all h j mem => all h j (.inr mem)

namespace Machine

inductive Phase where
  | start
  /-- Waits for a clause or a return handler. -/
  | calling
  /-- Waits for what the frame on top held. -/
  | advancing (content : Val)
  /-- Waits for a throw into a continuation that the frame on top held. -/
  | throwing (content : Val)
  /-- Has passed an escape on. -/
  | escaped
  /-- Has resent an invocation together with its whole stack. -/
  | resent
  /-- Waits for what yielded `op` to be closed. -/
  | discarding (op : Val)
  /-- Waits for the contents of its stack to be closed before raising `x`. -/
  | closing (rest : List Val) (x : Exc)

/--
Delivers an outcome to a stack: what is left of it, and what to do next.  A
frame fails if it holds what cannot be advanced; what is no frame, or a handler
frame without a handler, is the end of the machine.
-/
def deliver (s : Store) (o : Outcome) : List Val → Store × List Val × Turn Phase
  | [] => (s, [], o.finish)
  | .frame (.handler content _) :: rest =>
    match o, content with
    | .failed _, _ => deliver s o rest
    | .ok v, .handler h => (s, rest, .ask (.call h.onReturn [v]) .calling)
    | .ok _, v => (s, rest, .fault (.noField v "return_handler"))
  | .frame (.generator content t) :: rest =>
    let stack := .frame (.generator content t) :: rest
    match content, o with
    | .gen g, o => (s, stack, .ask (.advance g o.input) (.advancing content))
    | .cont k, .failed v =>
      (s, stack, .ask (.call (.native (.service .throwInto)) [.cont k, v]) (.throwing content))
    | c, .ok _ =>
      let (s, x) := s.fault (.noField c "send")
      deliver s (.failed (.exc x)) rest
    | c, .failed _ =>
      let (s, x) := s.fault (.noField c "throw")
      deliver s (.failed (.exc x)) rest
  | v :: rest => (s, v :: rest, .fault (.noField v "generator"))

def settle (s : Store) (m : Nat) (o : Outcome) : Store × Turn Phase :=
  let (s, stack, turn) := deliver s o (s.stack m)
  (s.setStack m stack, turn)

/-- An exception becomes a failure if it is an `exception`, and else ends the machine. -/
def fail (s : Store) (m : Nat) (x : Exc) : Store × Turn Phase :=
  if x.isException then settle s m (.failed (.exc x)) else (s, .raise x)

/-- Takes off the topmost frame and goes on; it may have been taken off already. -/
def popThen (s : Store) (m : Nat) (next : Store → Store × Turn Phase) : Store × Turn Phase :=
  match s.stack m with
  | [] => (s, .fault .popEmpty)
  | _ :: rest => next (s.setStack m rest)

/-- A stack that is no list can only be looked at: for its truth, and for its last element. -/
def startShared (s : Store) (v : Val) : Store × Turn Phase :=
  if s.truth v then
    match (Data.item v (.int (-1))).run s with
    | (.ok top, s) => (s, .fault (.noField top "generator"))
    | (.error x, s) => (s, .raise x)
  else (s, .done .none)

def start (s : Store) (m : Nat) : Store × Turn Phase :=
  match s.machines[m]? with
  | some ⟨.own _, _⟩ | some ⟨.shared (.list _), _⟩ => settle s m (.ok .none)
  | some ⟨.shared v, _⟩ => startShared s v
  | none => (s, .done .none)

/-- Captures the given frames, on top of which come those of a resent continuation. -/
def capture (s : Store) (frames : List Val) (inner : Option Cont) : Store × Cont :=
  s.newCont ((inner.elim [] s.frames) ++ frames) (inner.map .cont)

/-- Answers an invocation by the innermost owner on the stack, or resends it. -/
def dispatch (s : Store) (m : Nat) (e : Val) (args : Arguments) (context : Val)
    (inner : Option Cont) : Store × Turn Phase :=
  match searchFault? e (s.stack m) with
  | some f => (s, .fault f)
  | none =>
    match (match e with | .effect e => cut e (s.stack m) | _ => none) with
    | none =>
      let (s, k) := capture (s.setStack m []) (s.stack m) inner
      let s := s.note .handler fun _ =>
        match inner with
        | none => s.repr (.machine m) ++ " resends " ++ s.str e
        | some _ => s.repr (.machine m) ++ " passes resent " ++ s.str e ++ " outward"
      let (s, id) := s.freshId
      (s, .ask (.yield (.resend id ⟨e, args, .cont k, context⟩) .inner) .resent)
    | some slice =>
      let (s, k) := capture (s.setStack m slice.below) slice.frames inner
      let s := s.note .handler fun _ =>
        s.repr (.handler slice.handler) ++
          (if inner.isSome then " handles resent " else " handles ") ++ s.str e
      (s, .ask (.call slice.clause (.cont k :: args.values)) .calling)

/-- What a machine does with a value that it got from what the frame on top held. -/
def receive (s : Store) (m : Nat) (content : Val) : Val → Store × Turn Phase
  | .resumption _ ⟨.cont k, value, error⟩ =>
    let s := s.setStack m (s.frames k ++ s.stack m)
    match error with
    | .none => settle s m (.ok value)
    | e => settle s m (.failed e)
  | .resumption _ r => (s, .fault (.noField r.cont "frames"))
  | .invocation _ i => dispatch s m i.effect i.args i.context none
  | .resend _ ⟨e, args, .cont k, context⟩ =>
    match s.take k with
    | (s, true) => dispatch s m e args context (some k)
    | (s, false) =>
      let (s, x) := s.doubleResumeError (.cont k)
      (s, .raise x)
  | .resend _ r => (s, .fault (.noField r.cont "mark_consumed"))
  | .escape id action => (s, .ask (.yield (.escape id action) .direct) .escaped)
  | op => popThen s m fun s => (s, .ask (.closing content) (.discarding op))

def closeNext (s : Store) (x : Exc) : List Val → Store × Turn Phase
  | [] => (s, .raise x)
  | v :: rest => (s, .ask (.closing v) (.closing rest x))

/-- What a machine does when what the frame on top held has come to its end. -/
def finished (s : Store) (m : Nat) (v : Val) : Store × Turn Phase :=
  popThen s m fun s => settle s m (.ok v)

def broken (s : Store) (m : Nat) (x : Exc) : Store × Turn Phase :=
  if x.isException then popThen s m fun s => fail s m x else (s, .raise x)

def step (s : Store) (m : Nat) : Phase → Reply → Store × Turn Phase
  | .start, .raised x => (s, .raise x)
  | .start, _ => start s m
  | .calling, .raised x => fail s m x
  | .calling, .value v | .calling, .yielded v =>
    match v.generator? with
    | some g =>
      let (s, t) := s.freshTag
      settle (s.setStack m (.frame (.generator (.gen g) t) :: s.stack m)) m (.ok .none)
    | none => settle s m (.ok v)
  | .advancing c, .yielded op => receive s m c op
  | .advancing _, .value v => finished s m v
  | .advancing _, .raised x =>
    if x.kind = .stopIteration then finished s m x.stopValue else broken s m x
  | .throwing _, .raised x => broken s m x
  | .throwing c, .value op | .throwing c, .yielded op => receive s m c op
  | .escaped, .raised x =>
    if x.kind.isA .generatorExit then closeNext s x ((s.stack m).filterMap Val.framed?)
    else fail s m x
  | .resent, .raised x => fail s m x
  | .escaped, .value v | .escaped, .yielded v => settle s m (.ok v)
  | .resent, .value v | .resent, .yielded v => settle s m (.ok v)
  | .discarding _, .raised x => (s, .raise x)
  | .discarding op, _ =>
    let (s, x) := s.invalidInvocationError op .none
    settle s m (.failed (.exc x))
  | .closing _ _, .raised x => (s, .raise x)
  | .closing rest x, _ => closeNext s x rest

end Machine

end OneShot
