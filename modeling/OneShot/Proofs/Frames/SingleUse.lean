import OneShot.Proofs.Frames.Returning
import OneShot.Proofs.Frames.Spacing
import OneShot.Proofs.Frames.Withholding

/-!
# The use of a handler

A handler frame is made once for a computation.  Its return handler is called at most
once, with what the generator directly above the frame has come to, and from then on
the frame is nowhere.  While a clause of the handler has its continuation, the frame is
in that, and on no stack before the continuation is resumed.
-/

namespace OneShot

variable {G : Guest} {trace : Trace G} {c d : Config G}

/-! ## Calls of machines -/

/-- The generator directly above a handler frame has come to a value, which the return handler is called with. -/
inductive Config.Returns (c d : Config G) (h : Handler) (t : Tag) (v : Val) : Prop
  | intro {g i : Gen} {m : Nat} {u : Tag} {r : Reply} {rest : List (Activation G)}
      (stack : c.stack = .running g (.library (.machine m (.advancing (.gen i)))) :: rest)
      (signal : c.signal = .reply r) (ends : r.ended = .value v)
      (frames : c.world.store.stack m = .frame (.generator (.gen i) u) ::
        .frame (.handler (.handler h) t) :: d.world.store.stack m)
      (called : d.signal = .call h.onReturn [v] .machine)

/--
A machine has received an effect, and calls the clause of the handler frame that owns
it.  It takes off the frames from the topmost one to that of the handler; they come last
in the new continuation `k`.
-/
inductive Config.Answers (c d : Config G) (h : Handler) (t : Tag) (k : Cont) : Prop
  | intro {m : Nat} {op f : Val} {i : Invocation} {e : Effect} {brought above : List Val}
      (machine : c.stepped? = some m) (received : c.received? = some op)
      (invoked : op.invoked? = some i) (effect : i.effect = .effect e)
      (clause : h.clause? e = some f) (fresh : k.index = c.world.store.conts.size)
      (pending : d.world.store.isTaken k = false)
      (stack : c.world.store.stack m =
        above ++ .frame (.handler (.handler h) t) :: d.world.store.stack m)
      (frames : d.world.store.frames k =
        brought ++ above ++ [.frame (.handler (.handler h) t)])
      (called : d.signal = .call f (.cont k :: i.args.values) .machine)

namespace Machine

/-- Something is called only for a value that has come to a handler frame. -/
theorem Delivered.handler_of_call {o : Outcome} {base left : List Val} {turn : Turn Phase}
    (h : Delivered o base left turn) {f : Val} {args : List Val} {p : Phase}
    (called : turn = .ask (.call f args) p) : ∃ h t v, o = .ok v ∧
      base = .frame (.handler (.handler h) t) :: left ∧ f = h.onReturn ∧ args = [v] := by
  induction h with
  | finish o =>
      cases o with
      | ok v => contradiction
      | failed v => cases v <;> contradiction
  | returns h t v rest =>
      cases called
      exact ⟨h, t, v, rfl, rfl, rfl, rfl⟩
  | passes h t below ih =>
      obtain ⟨_, _, _, other, -⟩ := ih called
      contradiction
  | advances o g t rest => cases called

/-- What comes to a stack without a handler on top leaves that as it is. -/
theorem Delivered.kept_of_clear {o : Outcome} {base left : List Val} {turn : Turn Phase}
    (h : Delivered o base left turn) (clear : Clear base) : left = base := by
  cases h with
  | finish o => rfl
  | returns h t v rest => exact absurd ⟨h, t, rfl⟩ (clear _ rfl)
  | passes h t below => exact absurd ⟨h, t, rfl⟩ (clear _ rfl)
  | advances o g t rest => rfl

section Steps

variable {s : Store} {m : Nat} {old : List Val} {owner : Val}

theorem handler_of_settle {base : List Val} (own : s.machines[m]? = some ⟨.own old, owner⟩)
    (proper : ∀ v ∈ base, v.Proper) {o : Outcome} {f : Val} {args : List Val} {p : Phase}
    (called : (settle (s.setStack m base) m o).2 = .ask (.call f args) p) :
    ∃ h t v, o = .ok v ∧ base = .frame (.handler (.handler h) t) ::
      (settle (s.setStack m base) m o).1.stack m ∧ f = h.onReturn ∧ args = [v] := by
  have own' := Store.machines_setStack own base
  obtain ⟨left, turn, settled, delivered⟩ := settle_proper own' proper o
  rw [settled] at called ⊢
  rw [Store.stack_setStack own']
  exact delivered.handler_of_call called

/-- If the end of a generator has a machine call something, it is a return handler, with the value of the generator. -/
theorem ended_of_call (own : s.machines[m]? = some ⟨.own old, owner⟩)
    (proper : ∀ v ∈ old, v.Proper) {content : Val} {r : Reply} (final : r.Final) {f : Val}
    {args : List Val} {p : Phase}
    (called : (step s m (.advancing content) r).2 = .ask (.call f args) p) :
    ∃ top h t v, r.ended = .value v ∧ old = top :: .frame (.handler (.handler h) t) ::
      (step s m (.advancing content) r).1.stack m ∧ f = h.onReturn ∧ args = [v] := by
  have stack := Store.stack_of_own own
  have value {v : Val} (ends : r.ended = .value v) : ∃ top h t v, r.ended = .value v ∧
      old = top :: .frame (.handler (.handler h) t) ::
        (step s m (.advancing content) r).1.stack m ∧ f = h.onReturn ∧ args = [v] := by
    rw [step_ended ends, finished, popThen, stack] at called ⊢
    cases old with
    | nil => contradiction
    | cons top rest =>
        have proper' : ∀ v ∈ rest, v.Proper := fun v mem => proper v (.tail _ mem)
        obtain ⟨h, t, w, same, below, callee, given⟩ := handler_of_settle own proper' called
        cases same
        exact ⟨top, h, t, v, ends, congrArg _ below, callee, given⟩
  cases r with
  | value v => exact value rfl
  | yielded v => exact absurd rfl (final v)
  | raised x =>
      by_cases stop : x.kind = .stopIteration
      · exact value (v := x.stopValue) (by simp only [Reply.ended, if_pos stop])
      · -- a failure that goes down the stack has nothing called
        simp only [step, if_neg stop, broken] at called
        split at called
        · rename_i exception
          rw [popThen, stack] at called
          cases old with
          | nil => contradiction
          | cons top rest =>
              have proper' : ∀ v ∈ rest, v.Proper := fun v mem => proper v (.tail _ mem)
              simp only [fail, exception, if_true] at called
              obtain ⟨_, _, _, other, -⟩ := handler_of_settle own proper' called
              contradiction
        · contradiction

end Steps

variable {s t : Store} {m : Nat} {p : Phase} {r : Reply}

/-- Unless a machine captures something, it calls something only if a generator has ended. -/
theorem Delivers.final_of_call {u : Store} {o : Outcome} {base left : List Val}
    {turn : Turn Phase} (delivers : Delivers s m p r u o base) (delivered : Delivered o base left turn)
    (slices : s.Slices) (top : Clear (s.stack m) ∨ ∃ op, p = .discarding op) {f : Val}
    {args : List Val} {q : Phase} (called : turn = .ask (.call f args) q) :
    ∃ content, p = .advancing content ∧ r.Final := by
  obtain ⟨h, t, v, ok, whole, -⟩ := delivered.handler_of_call called
  have on_top : ¬ Clear base := fun clear => clear _ (by rw [whole]; rfl) ⟨h, t, rfl⟩
  have waiting (busy : ∀ op, p ≠ .discarding op) : Clear (s.stack m) :=
    top.resolve_right fun ⟨op, same⟩ => busy op same
  cases delivers with
  | start r => exact absurd (waiting fun op => by simp) on_top
  | answered r v waits =>
      refine absurd (waiting fun op same => ?_) on_top
      rcases waits with rfl | rfl | rfl <;> contradiction
  | raised x waits => contradiction
  | discarded op r x => contradiction
  | pushed value made => exact absurd (clear_generator _ _ _) on_top
  | broken content x stack => contradiction
  | ended content w stack value => exact ⟨content, rfl, value⟩
  | resumed content id k v e =>
      exact absurd ((slices k).2.append (waiting fun op => by simp)) on_top

/-- A machine that is asked for a resumption puts the frames of the continuation on its stack. -/
theorem Does.pushes {op : Val} {content : Val} {moved : Turn Phase} {q : Nat × Cont}
    (does : Does s m (.advancing content) (.yielded op) t moved) (own : s.Own)
    (inside : m < s.machines.size) (slices : s.Slices) (top : Clear (s.stack m))
    (resumed : op.resumed? = some q) : t.stack m = s.frames q.2 ++ s.stack m := by
  cases does with
  | @settles _ _ o base left u _ _ delivers delivered after =>
      rw [(delivers.sets own inside after).stack_eq]
      cases delivers with
      | answered r v waits => simp at waits
      | ended content w stack value => exact absurd rfl (value op)
      | resumed content id k v e =>
          cases resumed
          exact delivered.kept_of_clear ((slices k).2.append top)
  | halts left after ending unasked begun =>
      exact absurd (unasked.symm.trans resumed) (by simp)
  | escapes content id action => contradiction
  | closes contents => rcases contents with ⟨same, -⟩ | same <;> contradiction
  | discards stack unasked => exact absurd (unasked.symm.trans resumed) (by simp)
  | captures invoked stack brings after directs =>
      exact absurd (brings.origin.2.2.symm.trans resumed) (by simp)

theorem Followed.caller {w : World G} {g : Gen} {rest : List (Activation G)} {turn : Turn Phase}
    (followed : Followed w g m rest t turn d) {f : Val} {args : List Val} {caller : Caller}
    (called : d.signal = .call f args caller) : caller = .machine := by
  cases followed with
  | calls f' args' p =>
      cases called
      rfl
  | _ => cases called

end Machine

/-- Each call of a machine is that of a return handler, or that of a clause. -/
theorem Standing.calls (standing : Standing trace c) (spacing : Spacing trace c)
    (stepped : c.step = .ok d) {m : Nat} {f : Val} {args : List Val} {caller : Caller}
    (machine : c.stepped? = some m) (called : d.signal = .call f args caller) :
    (∃ h t v, c.Returns d h t v) ∨ ∃ h t k, c.Answers d h t k := by
  have own := standing.sound.own
  obtain ⟨a, rest, r, p, stack, signal, here⟩ := Config.stepped?_eq_some machine
  have mem : a ∈ c.stack := by simp [stack]
  obtain ⟨g, rfl, ran, -⟩ := standing.seated.machine mem here
  have inside := standing.sound.ran m _ ran
  obtain ⟨owner, whole⟩ := own.machine inside
  obtain ⟨t, moved, made, does, followed⟩ :=
    standing.sound.follows standing.seated stack signal stepped
  obtain rfl := followed.caller called
  obtain ⟨p', rfl, same⟩ := followed.call called
  have asked := does.asked own inside (standing.sound.onStacks m)
    (standing.aligned.held _ mem m p rfl)
  cases asked
  generalize turn : Turn.ask (.call f args) Machine.Phase.calling = moved at does
  cases does with
  | settles delivers delivered after =>
      obtain ⟨content, rfl, final⟩ := delivers.final_of_call delivered spacing.slices
        (spacing.top standing stack) turn.symm
      obtain ⟨top, h, tag, v, ends, frames, rfl, rfl⟩ := Machine.ended_of_call whole
        (standing.sound.onStacks m) final (congrArg Prod.snd made)
      obtain ⟨i, u, below, rfl, held⟩ := standing.aligned.held _ mem m _ rfl
      rw [frames, made, ← same] at held
      cases held
      rw [made, ← same] at frames
      exact .inl ⟨h, tag, v, .intro stack signal ends frames called⟩
  | halts left after ending unasked begun =>
      subst turn
      contradiction
  | escapes content id' action => cases turn
  | @closes _ _ v rest x contents => cases v <;> cases turn
  | @discards content op v rest stack unasked => cases content <;> cases turn
  | @captures content op i above below brought inner u _ _ invoked split brings after directs =>
      subst turn
      have sets := brings.sets own inside after
      cases directs with
      | @owner e h _ tag above' effect clause captured unowned =>
          let k : Cont := ⟨c.world.store.conts.size, inner.isSome⟩
          have whole : c.world.store.stack m =
              above' ++ .frame (.handler (.handler h) tag) :: d.world.store.stack m := by
            rw [same, sets.stack_eq, split, captured]
            simp
          have slice : d.world.store.frames k =
              brought ++ above' ++ [.frame (.handler (.handler h) tag)] := by
            rw [same, sets.frames, if_pos rfl, captured]
            simp
          exact .inr ⟨h, tag, k, .intro machine (Config.received?_machine stack signal) invoked
            effect clause rfl (same ▸ brings.pending after _) whole slice called⟩

/-! ## From then on -/

/-- A frame is on no stack, so that nothing is called for it. -/
structure Config.Lacks (c : Config G) (t : Tag) : Prop where
  off_stacks : ∀ m, Key.frame t.id ∉ (c.world.store.stack m).flatMap Val.keys
  unreturned : ∀ d h u v, c.Returns d h u v → u.id ≠ t.id
  unanswered : ∀ d h u k, c.Answers d h u k → u.id ≠ t.id

/-- However a run goes on, a frame is on no stack and in no continuation that can be resumed. -/
def Over (trace : Trace G) (t : Tag) : Prop :=
  ∀ later e, RunOf Sparing (later ++ trace) e → e.Lacks t ∧
    Key.frame t.id ∉ (e.world.store.owned (Trace.outstanding (later ++ trace))).flatMap Val.keys

/--
A machine goes on with a continuation: a handler frame is on its stack again, above the
frame of the generator that has yielded the request.
-/
inductive Config.Resumes (trace : Trace G) (c d : Config G) (h : Handler) (t : Tag) : Prop
  | intro {m : Nat} {g : Gen} {u : Tag} {op : Val} {inside below : List Val}
      (machine : c.stepped? = some m) (yields : Yields trace g op)
      (top : c.world.store.stack m = .frame (.generator (.gen g) u) :: below)
      (stack : d.world.store.stack m =
        inside ++ .frame (.handler (.handler h) t) :: c.world.store.stack m)

section Frames

variable {h : Handler} {t : Tag} {k : Cont}

theorem Config.lacks_of_off_stacks
    (off_stacks : ∀ m, Key.frame t.id ∉ (c.world.store.stack m).flatMap Val.keys) : c.Lacks t := by
  refine ⟨off_stacks, fun d h u v returns same => ?_, fun d h u k answers same => ?_⟩
  · cases returns with
    | @intro g i m _ r rest stack signal ends frames called =>
        exact off_stacks m (by simp [frames, Val.keys, Frame.tag, same])
  · cases answers with
    | @intro m _ _ _ _ _ above machine _ _ _ _ _ _ stack =>
        exact off_stacks m (by simp [stack, Val.keys, Frame.tag, same])

/-- What is gone is so however the run goes on. -/
theorem Gone.over (gone : Gone (c :: trace) d t.id) (stepped : c.step = .ok d) :
    Over (c :: trace) t := by
  intro later e run
  suffices gone : Gone (later ++ c :: trace) e t.id from
    ⟨Config.lacks_of_off_stacks gone.off_stacks, gone.unowned⟩
  induction later generalizing e with
  | nil =>
      cases run with
      | step before sparing stepped' =>
          cases stepped.symm.trans stepped'
          exact gone
  | cons b later ih =>
      cases run with
      | step before sparing stepped' => exact (ih b before).step before.spared sparing stepped'

/-- What a clause is called with holds its frame back. -/
theorem Config.Answers.withheld (answers : c.Answers d h t k)
    (vouched : Vouched trace c.world.store) (stepped : c.step = .ok d) :
    Withheld (c :: trace) d t.id k := by
  cases answers with
  | @intro m op f i e brought above machine received invoked effect clause fresh pending stack
      frames called =>
    refine ⟨Store.lt_of_pending pending, fun id q j resent carries => ?_, .inr ⟨?_, .inl pending⟩⟩
    · rcases Trace.mem_resends_cons.1 resent with now | before
      · -- a machine that calls a clause resends nothing
        obtain ⟨g, m, p, r, how, p', rest, stack', signal, turn⟩ := Config.resends?_eq_some now
        have after := Config.step_machine stepped stack' signal
        rw [turn] at after
        rw [after] at called
        cases called
      · obtain ⟨k', same, -, _, _, _, _, -, -, top⟩ := vouched id q before
        cases same.symm.trans carries
        have older := Store.lt_of_head top
        omega
    · simp [frames, Val.keys, Frame.tag]

/-- A frame is held back until its continuation is resumed, which still has the same frames. -/
theorem Withheld.later {n : Nat} (withheld : Withheld (c :: trace) d n k) (stepped : c.step = .ok d)
    {later : Trace G} {e : Config G} (run : RunOf Sparing (later ++ c :: trace) e)
    (unresumed : ∀ b ∈ later, ∀ q, b.pushed? = some q → q.2.index ≠ k.index) :
    Withheld (later ++ c :: trace) e n k ∧
      e.world.store.frames k = d.world.store.frames k := by
  induction later generalizing e with
  | nil =>
      cases run with
      | step before sparing stepped' =>
          cases stepped.symm.trans stepped'
          exact ⟨withheld, rfl⟩
  | cons b later ih =>
      rw [List.forall_mem_cons] at unresumed
      cases run with
      | step before sparing stepped' =>
          obtain ⟨withheld, kept⟩ := ih before unresumed.2
          have spared := before.spared
          have faithful := before.faithful_of_sparing.2 sparing
          have shift := spared.toStanding.shift sparing.toGenuine stepped'
          refine ⟨withheld.step spared sparing faithful stepped' unresumed.1, ?_⟩
          exact (shift.frames_eq spared.sound spared.seated withheld.known).trans kept

/-- A machine that is asked for a resumption has the frames of that on its stack next. -/
theorem Standing.resumes (standing : Standing trace c) (spacing : Spacing trace c)
    (stepped : c.step = .ok d) {q : Nat × Cont} (pushed : c.pushed? = some q) {inside : List Val}
    (frames : c.world.store.frames q.2 = inside ++ [.frame (.handler (.handler h) t)]) :
    c.Resumes trace d h t := by
  obtain ⟨op, received, resumed⟩ := Option.bind_eq_some_iff.1 pushed
  obtain ⟨g, m, i, u, below, rest, stack, signal, top, yields⟩ := standing.received received
  obtain ⟨_, same, ran, -⟩ := standing.seated.machine (a := .running g (.library (.machine m _)))
    (by rw [stack]; exact .head _) rfl
  cases same
  have inside' := standing.sound.ran m _ ran
  obtain ⟨s, moved, -, does, followed⟩ := standing.sound.follows standing.seated stack signal stepped
  have clear := (spacing.top standing stack).resolve_right fun ⟨op, other⟩ => by contradiction
  have after := does.pushes standing.sound.own inside' spacing.slices clear resumed
  refine .intro (Config.stepped?_machine stack signal) yields top (?_ : _ = inside ++ _)
  rw [(does.own standing.sound.own inside').stack_eq
    (Store.machines_of_engine followed.quiet.engine), after, frames]
  simp

/-- A machine that calls a return handler captures nothing. -/
theorem Config.Returns.size_conts {v : Val} (returns : c.Returns d h t v)
    (standing : Standing trace c) (stepped : c.step = .ok d) :
    d.world.store.conts.size = c.world.store.conts.size := by
  cases returns with
  | @intro g i m u r rest stack signal ends frames called =>
      obtain ⟨s, moved, made, -, followed⟩ :=
        standing.sound.follows standing.seated stack signal stepped
      obtain ⟨-, -, same⟩ := followed.call called
      rw [Machine.step_ended ends] at made
      have conts := Machine.conts_finished c.world.store m v
      rw [made] at conts
      rw [same, conts]

/-- Where a frame is dropped and something is called, it is the return handler of that frame. -/
theorem Config.Returns.of_drop {h' : Handler} {t' : Tag} {v : Val} (returns : c.Returns d h' t' v)
    {m : Nat} {above below : List Val} (machine : c.stepped? = some m)
    (whole : c.world.store.stack m = above ++ .frame (.handler (.handler h) t) :: below)
    (left : d.world.store.stack m <:+ below) : c.Returns d h t v := by
  cases returns with
  | @intro g i n u r rest stack signal ends frames called =>
      cases (Config.stepped?_machine stack signal).symm.trans machine
      have split := whole.symm.trans frames
      have short := left.length_le
      rcases above with - | ⟨w, - | ⟨w', above⟩⟩
      · cases split
      · cases split
        exact .intro stack signal ends frames called
      · have longer := congrArg List.length split
        simp only [List.length_append, List.length_cons] at longer
        omega

end Frames

/-! ## The main result -/

/--
What the step from `c` to `d` does with handler frames.  A machine calls nothing but
return handlers and clauses.  The return handler of a frame is called for what the
generator directly above the frame has come to, and the frame is nowhere from then on.
So is a frame that has left its stack in another way without being captured, and no
return handler is called then.  A frame whose clause is called is on no stack before the
continuation is resumed, and then it is on the stack again, above what resumes.
-/
structure SingleUse (trace : Trace G) (c d : Config G) : Prop where
  calls : ∀ m f args caller, c.stepped? = some m → d.signal = .call f args caller →
    (∃ h t v, c.Returns d h t v) ∨ ∃ h t k, c.Answers d h t k
  returned : ∀ h t v, c.Returns d h t v → Over (c :: trace) t
  dropped : ∀ m h t above below, c.stepped? = some m →
    c.world.store.stack m = above ++ .frame (.handler (.handler h) t) :: below →
    d.world.store.stack m <:+ below → d.world.store.conts.size = c.world.store.conts.size →
    Over (c :: trace) t ∧
      ((∃ v, c.Returns d h t v) ∨ ∀ f args caller, d.signal ≠ .call f args caller)
  answered : ∀ h t k later e, c.Answers d h t k → RunOf Sparing (later ++ c :: trace) e →
    (∀ b ∈ later, ∀ q, b.pushed? = some q → q.2.index ≠ k.index) → e.Lacks t ∧
      ∀ q e', e.pushed? = some q → q.2.index = k.index → e.step = .ok e' →
        e.Resumes (later ++ c :: trace) e' h t

theorem RunOf.single_use (run : RunOf Sparing trace c) (sparing : Sparing trace c)
    (stepped : c.step = .ok d) : SingleUse trace c d := by
  have spared := run.spared
  have standing := spared.toStanding
  have spacing := run.spacing fun _ _ sparing => sparing.toGenuine
  have vouched := run.faithful_of_sparing.1.vouched
  -- a turn that calls a return handler captures nothing
  have drops {m : Nat} {h : Handler} {t : Tag} {above below : List Val}
      (machine : c.stepped? = some m)
      (whole : c.world.store.stack m = above ++ .frame (.handler (.handler h) t) :: below)
      (left : d.world.store.stack m <:+ below)
      (uncaptured : d.world.store.conts.size = c.world.store.conts.size) : Over (c :: trace) t :=
    (spared.drops sparing stepped machine whole left uncaptured).over stepped
  constructor
  case calls => exact fun m f args caller => standing.calls spacing stepped
  case returned =>
    intro h t v returns
    have uncaptured := returns.size_conts standing stepped
    cases returns with
    | @intro g i m u r rest stack signal ends frames called =>
        have whole : c.world.store.stack m = [.frame (.generator (.gen i) u)] ++
            .frame (.handler (.handler h) t) :: d.world.store.stack m := frames
        exact drops (Config.stepped?_machine stack signal) whole List.suffix_rfl uncaptured
  case dropped =>
    intro m h t above below machine whole left uncaptured
    refine ⟨drops machine whole left uncaptured, ?_⟩
    by_cases called : ∃ f args caller, d.signal = .call f args caller
    · obtain ⟨f, args, caller, called⟩ := called
      rcases standing.calls spacing stepped machine called with ⟨h', t', v, returns⟩ | ⟨h', t', k, answers⟩
      · exact .inl ⟨v, returns.of_drop machine whole left⟩
      · cases answers with
        | intro _ _ _ _ _ fresh pending =>
            have more := Store.lt_of_pending pending
            omega
    · exact .inr fun f args caller same => called ⟨f, args, caller, same⟩
  case answered =>
    intro h t k later e answers after unresumed
    obtain ⟨withheld, kept⟩ :=
      (answers.withheld vouched stepped).later stepped after unresumed
    refine ⟨Config.lacks_of_off_stacks (withheld.off_stacks after.spared.owning),
      fun q e' pushed same stepped' => ?_⟩
    cases answers with
    | intro _ _ _ _ _ _ _ _ frames =>
        have slice : e.world.store.frames q.2 = e.world.store.frames k := by
          simp [Store.frames, same]
        exact after.spared.toStanding.resumes (after.spacing fun _ _ sparing => sparing.toGenuine)
          stepped' pushed (slice.trans (kept.trans frames))

/-! ## A clause that resumes -/

open Script

namespace Config

/-- The index of the continuation that the topmost machine is about to call a clause with. -/
def answers? (c : Config G) : Option Nat :=
  match c.received?, c.step with
  | some _, .ok d =>
      match d.signal with
      | .call .. => some c.world.store.conts.size
      | _ => none
  | _, _ => none

theorem of_answers? {n : Nat} (h : c.answers? = some n) : n = c.world.store.conts.size ∧
    c.received?.isSome = true ∧ ∃ d f args caller, c.step = .ok d ∧ d.signal = .call f args caller := by
  unfold answers? at h
  split at h
  · rename_i op d received stepped
    split at h
    · rename_i f args caller called
      cases h
      exact ⟨rfl, by simp [received], d, f, args, caller, stepped, called⟩
    · contradiction
  · contradiction

/-- What was called a clause with before is resumed for the first time. -/
def resumesFirst (trace : Trace G) (c : Config G) : Bool :=
  match c.pushed?, c.step with
  | some q, .ok _ =>
      (trace.all fun b => b.pushed?.isNone) && trace.any fun b => b.answers? == some q.2.index
  | _, _ => false

theorem of_resumesFirst (h : c.resumesFirst trace = true) : ∃ q d b, c.pushed? = some q ∧
    c.step = .ok d ∧ (∀ b ∈ trace, b.pushed? = none) ∧ b ∈ trace ∧ b.answers? = some q.2.index := by
  unfold resumesFirst at h
  split at h
  · rename_i q d pushed stepped
    simp only [Bool.and_eq_true, List.all_eq_true, Option.isNone_iff_eq_none, List.any_eq_true,
      beq_iff_eq] at h
    obtain ⟨first, b, mem, answers⟩ := h
    exact ⟨q, d, b, pushed, stepped, first, mem, answers⟩
  · contradiction

end Config

theorem exists_resuming : ∃ (trace : Trace language) (c : Config language),
    RunOf Sparing trace c ∧ c.resumesFirst trace = true :=
  exists_run (P := fun trace c => c.resumesFirst trace) (fresh_begin returningList) 129
    (by decide +kernel)

/-- A frame that is held back for a clause comes back when the clause resumes. -/
theorem RunOf.single_use_resumed : ∃ (trace later : Trace language) (c d e e' : Config language)
    (h : Handler) (t : Tag) (k : Cont), SingleUse trace c d ∧ c.Answers d h t k ∧
      RunOf Sparing (later ++ c :: trace) e ∧ e.Resumes (later ++ c :: trace) e' h t := by
  obtain ⟨whole, e, run, found⟩ := exists_resuming
  obtain ⟨q, e', c, pushed, stepped', first, mem, answers⟩ := Config.of_resumesFirst found
  obtain ⟨later, trace, rfl⟩ := List.append_of_mem mem
  obtain ⟨size, received, d, f, args, caller, stepped, called⟩ := Config.of_answers? answers
  obtain ⟨before, sparing⟩ := run.through
  have used := RunOf.single_use before sparing stepped
  obtain ⟨op, received⟩ := Option.isSome_iff_exists.1 received
  obtain ⟨g, m, i, u, below, rest, stack, signal, -, -⟩ :=
    before.spared.toStanding.received received
  have machine := Config.stepped?_machine stack signal
  rcases used.calls m f args caller machine called with ⟨h, t, v, returns⟩ | ⟨h, t, k, answered⟩
  · cases returns with
    | intro stack' signal' ends =>
        cases signal.symm.trans signal'
        contradiction
  · have same : q.2.index = k.index := by
      cases answered with
      | intro _ _ _ _ _ fresh => exact size.trans fresh.symm
    have unresumed (b : Config language) (mem : b ∈ later) (q : Nat × Cont)
        (pushed : b.pushed? = some q) : q.2.index ≠ k.index := by
      rw [first b (List.mem_append_left _ mem)] at pushed
      contradiction
    obtain ⟨-, resumes⟩ := used.answered h t k later e answered run unresumed
    exact ⟨trace, later, c, d, e, e', h, t, k, used, answered, run,
      resumes q e' pushed same stepped'⟩

end OneShot
