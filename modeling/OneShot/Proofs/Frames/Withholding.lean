import OneShot.Proofs.Frames.Chain
import OneShot.Proofs.Frames.Requesting

/-!
# Frames that are gone, or withheld

A frame that nothing owns any more does not come back.  One that a continuation was
captured with is on no stack before a machine answers the request for that.
-/

namespace OneShot

variable {G : Guest} {trace : Trace G} {c d : Config G}

/-! ## Gone -/

/-- Nothing owns the frame with the number `n`, which was made once. -/
structure Gone (trace : Trace G) (c : Config G) (n : Nat) : Prop where
  made : n < c.world.store.nextId
  unheld : c.holds trace (.frame n) = 0

theorem Spared.gains (spared : Spared trace c) (sparing : Sparing trace c) (stepped : c.step = .ok d) :
    ∃ made handlers, Gains trace c d made handlers :=
  spared.owning.gains spared.seated (spared.handed sparing)
    (spared.toStanding.shift sparing.toGenuine stepped)

theorem Gone.step {n : Nat} (gone : Gone trace c n) (spared : Spared trace c)
    (sparing : Sparing trace c) (stepped : c.step = .ok d) : Gone (c :: trace) d n := by
  obtain ⟨made, handlers, gains⟩ := spared.gains sparing stepped
  refine ⟨Nat.lt_of_lt_of_le gone.made gains.numbers, ?_⟩
  rcases spared.owning.holds_of_gains (spared.handed sparing) gains (.frame n) with
    kept | ⟨-, -, ⟨same, -⟩ | ⟨g, same, -⟩⟩
  · have unheld := gone.unheld
    omega
  · cases same
    exact absurd gone.made (Nat.lt_irrefl _)
  · contradiction

/-- What is gone is on no stack. -/
theorem Gone.off_stacks {n : Nat} (gone : Gone trace c n) (m : Nat) :
    Key.frame n ∉ (c.world.store.stack m).flatMap Val.keys := by
  intro here
  have inside : m < c.world.store.machines.size := by
    by_contra outside
    simp [Store.stack, Array.getElem?_eq_none (Nat.not_lt.1 outside)] at here
  have held : 0 < c.holds trace (.frame n) := Config.holds_of_stack inside here
  rw [gone.unheld] at held
  exact absurd held (Nat.lt_irrefl 0)

/-- It is nowhere else either, where frames are owned. -/
theorem Gone.unowned {n : Nat} (gone : Gone trace c n) :
    Key.frame n ∉ (c.world.store.owned trace.outstanding).flatMap Val.keys := by
  have unheld := gone.unheld
  unfold Config.holds at unheld
  rw [← List.count_eq_zero, count_keys]
  omega

namespace Machine

variable {s t : Store} {m : Nat} {p : Phase} {r : Reply} {moved : Turn Phase}

/-- A frame that a machine goes on without is gone, unless it was captured. -/
theorem Does.drops (does : Does s m p r t moved) (own : s.Own) (inside : m < s.machines.size)
    (uncaptured : t.conts.size = s.conts.size) {requests : List (Nat × Cont)}
    (pushed : ∀ q, pushed? p r = some q → q ∈ requests) {P : Val → Bool} {v : Val}
    {above below : List Val} (whole : s.stack m = above ++ v :: below) (here : P v = true)
    (left : t.stack m <:+ below) :
    (t.owned (answered p r requests)).countP P + 1 ≤ (s.owned requests).countP P := by
  have fewer : (t.stack m).countP P + 1 ≤ (s.stack m).countP P := by
    obtain ⟨between, split⟩ := left
    rw [whole, ← split, List.countP_append, List.countP_cons_of_pos here, List.countP_append]
    omega
  have answers := countP_answered (s := s) pushed P
  have same (h : t.stack m = s.stack m) : False := by
    rw [h] at fewer
    omega
  cases does with
  | @settles _ _ o base rest u _ _ delivers delivered after =>
      have sets := delivers.sets own inside after
      have quiet := delivers.quiet
      have machines := Store.machines_of_engine quiet.engine
      have own' : u.Own := own.of_machines machines
      have inside' : m < u.machines.size := by rwa [machines]
      have set := own'.countP_setStack P (answered p r requests) inside' rest
      rw [← after.owned (own'.setStack inside' rest), quiet.owned own, own.stack_eq machines] at set
      rw [sets.stack_eq] at fewer
      omega
  | halts source after ending unasked begun =>
      exact (same (sets_of_take source own after).stack_eq).elim
  | escapes c id action => exact (same rfl).elim
  | closes contents => exact (same rfl).elim
  | @discards c op w rest stack unasked =>
      have set := own.countP_setStack P requests inside rest
      have asked : pushed? (.advancing c) (.yielded op) = none := unasked
      rw [(Store.Sets.setStack own inside rest).stack_eq] at fewer
      unfold answered
      rw [asked, Option.elim_none]
      omega
  | @captures c op i above' below' brought inner u t turn invoked stack brings after directs =>
      have more : t.conts.size = s.conts.size + 1 := by
        rw [Store.conts_of_engine after.engine]
        simp [Store.newCont, brings.size]
      omega

end Machine

/-- A turn of a machine leaves what is in reserve. -/
theorem Shift.reserved_eq (shift : Shift c d) {m : Nat} (turning : c.stepped? = some m) :
    reserved d.stack = reserved c.stack := by
  cases shift with
  | quiet after idle unmade keeps =>
      rw [turning] at idle
      contradiction
  | takes k after idle made keeps =>
      rw [turning] at idle
      contradiction
  | makes owner framed after idle unmade proper keeps few =>
      rw [turning] at idle
      contradiction
  | machine stack signal does after keeps => exact keeps

/-- What an outcome has passed, or has been taken off a stack, is gone. -/
theorem Spared.drops (spared : Spared trace c) (sparing : Sparing trace c) (stepped : c.step = .ok d)
    {m : Nat} {h : Handler} {t : Tag} {above below : List Val} (turning : c.stepped? = some m)
    (whole : c.world.store.stack m = above ++ .frame (.handler (.handler h) t) :: below)
    (left : d.world.store.stack m <:+ below)
    (uncaptured : d.world.store.conts.size = c.world.store.conts.size) :
    Gone (c :: trace) d t.id := by
  have owning := spared.owning
  have handed := spared.handed sparing
  obtain ⟨a, rest, r, p, stack, signal, machine⟩ := Config.stepped?_eq_some turning
  obtain ⟨g, rfl, ran, -⟩ := spared.seated.machine (a := a) (by simp [stack]) machine
  have inside := spared.sound.ran m _ ran
  obtain ⟨made, handlers, gains⟩ := spared.gains sparing stepped
  obtain ⟨u, moved, -, does, followed⟩ := spared.sound.follows spared.seated stack signal stepped
  have quiet := followed.quiet
  have own := does.own spared.sound.own inside
  have conts := Store.conts_of_engine quiet.engine
  have here : (Key.frame t.id).within (.frame (.handler (.handler h) t)) = true := by
    simp [Key.within, Val.keys, Frame.tag]
  have fewer := does.drops spared.sound.own inside (by rw [← uncaptured, conts])
    (fun q asked => handed.pushed q (Config.pushed?_machine stack signal ▸ asked)) whole here
    (own.stack_eq (Store.machines_of_engine quiet.engine) m ▸ left)
  have once := owning.once (.frame t.id)
  refine ⟨Nat.lt_of_lt_of_le (owning.tags t.id ?_) gains.numbers, ?_⟩
  · refine Config.holds_of_stack inside ?_
    simp [whole, Val.keys, Frame.tag]
  · have reserve := (spared.toStanding.shift sparing.toGenuine stepped).reserved_eq turning
    unfold Config.holds at once ⊢
    rw [Config.outstanding_machine trace stack signal, quiet.owned own, reserve]
    omega

/-! ## Withheld -/

/-- A continuation that is not taken, or whose request no machine has answered yet. -/
def Pends (trace : Trace G) (c : Config G) (k : Cont) : Prop :=
  c.world.store.isTaken k = false ∨ ∃ q ∈ trace.outstanding, q.2.index = k.index

/--
A frame was captured in a continuation that a clause was called with.  It is nowhere
else, and gone if the continuation is taken other than by a request.
-/
structure Withheld (trace : Trace G) (c : Config G) (n : Nat) (k : Cont) : Prop where
  known : k.index < c.world.store.conts.size
  unsent : ∀ id q j, (id, q) ∈ trace.resends → q.cont = .cont j → j.index ≠ k.index
  held : Gone trace c n ∨
    Key.frame n ∈ (c.world.store.frames k).flatMap Val.keys ∧ Pends trace c k

namespace Withheld

variable {n : Nat} {k : Cont}

theorem off_stacks (withheld : Withheld trace c n k) (owning : Owning trace c) (m : Nat) :
    Key.frame n ∉ (c.world.store.stack m).flatMap Val.keys := by
  rcases withheld.held with gone | ⟨slice, pends⟩
  · exact gone.off_stacks m
  · intro here
    have inside : m < c.world.store.machines.size := by
      by_contra outside
      simp [Store.stack, Array.getElem?_eq_none (Nat.not_lt.1 outside)] at here
    rcases pends with pending | ⟨q, asked, same⟩
    · exact owning.apart inside here (.inl pending) slice
    · refine owning.apart inside here (.inr ⟨q, asked, rfl⟩) ?_
      simpa [Store.frames, same] using slice

/-- Nothing is resent with it later on either. -/
theorem unsent_step (withheld : Withheld trace c n k) (standing : Standing trace c)
    (stepped : c.step = .ok d) {id : Nat} {q : Resend} {j : Cont}
    (resent : (id, q) ∈ Trace.resends (c :: trace)) (carries : q.cont = .cont j) :
    j.index ≠ k.index := by
  rcases Trace.mem_resends_cons.1 resent with now | before
  · obtain ⟨g, m, p, r, how, p', rest, stack, signal, turn⟩ := Config.resends?_eq_some now
    have mem : Activation.running g (.library (.machine m p)) ∈ c.stack := by simp [stack]
    obtain ⟨_, -, ran, -⟩ := standing.seated.machine mem rfl
    obtain ⟨t, moved, made, does, -⟩ := standing.sound.follows standing.seated stack signal stepped
    rw [made] at turn
    subst turn
    obtain ⟨_, _, i, _, inner, _, -, -, -, -, -, rfl, -⟩ :=
      does.resends standing.sound.own (standing.sound.ran m _ ran)
    cases carries
    exact Nat.ne_of_gt withheld.known
  · exact withheld.unsent id q j before carries

/-- A step takes a continuation that no machine resends by a request, or marks it as taken. -/
theorem taken_step (withheld : Withheld trace c n k) (faithful : Faithful trace c)
    (stepped : c.step = .ok d) (pending : c.world.store.isTaken k = false)
    (taken : d.world.store.isTaken k = true) :
    (∃ q, c.requested? = some q ∧ q.2.index = k.index) ∨
      ∃ j caller, j.index = k.index ∧
        c.signal = .call (.native (.op .markConsumed)) [.cont j] caller := by
  have attempts := (Config.takes_step stepped).taken k (Store.lt_of_pending pending)
  rw [taken, pending, Bool.false_or, eq_comm, Option.any_eq_true] at attempts
  obtain ⟨j, attempt, same⟩ := attempts
  have same : j.index = k.index := by simpa using same
  rcases Option.or_eq_some_iff.1 attempt with resent | ⟨-, called⟩
  · obtain ⟨op, received, carries⟩ := Option.bind_eq_some_iff.1 resent
    obtain ⟨id, e, args, context, rfl⟩ := Val.eq_resend carries
    exact absurd same (withheld.unsent id _ j (faithful.resent id _ received) rfl)
  · rcases Signal.request?_or_mark called with ⟨r, made, rfl⟩ | ⟨caller, marked⟩
    · refine .inl ⟨(c.world.store.nextId, r.cont), ?_, same⟩
      have untaken : c.world.store.isTaken r.cont = false := by
        rw [Store.isTaken_of_index same, pending]
      simp [Config.requested?, made, untaken]
    · exact .inr ⟨j, caller, same, marked⟩

/-- What is marked as taken is lost, with all its frames. -/
theorem gone_of_mark (owning : Owning trace c) (stepped : c.step = .ok d)
    (slice : Key.frame n ∈ (c.world.store.frames k).flatMap Val.keys)
    (pending : c.world.store.isTaken k = false) {j : Cont} {caller : Caller}
    (same : j.index = k.index)
    (marked : c.signal = .call (.native (.op .markConsumed)) [.cont j] caller) :
    Gone (c :: trace) d n := by
  have once := owning.once (.frame n)
  have owned : 0 < (c.world.store.pending k.index).countP (Key.frame n).within := by
    obtain ⟨v, mem, key⟩ := List.mem_flatMap.1 slice
    rw [Store.pending_of_pending pending]
    exact List.countP_pos_iff.2 ⟨v, mem, by simpa [Key.within] using key⟩
  have counted := Store.countP_take c.world.store (Key.frame n).within trace.outstanding j
  rw [same] at counted
  have held : 0 < c.holds trace (.frame n) := by
    unfold Config.holds
    omega
  have number := owning.tags n held
  have unasked : c.pushed? = none := by
    obtain ⟨w, stack, _⟩ := c
    cases marked
    cases stack <;> rfl
  have unmade : c.requested? = none := by simp [Config.requested?, marked, Signal.request?]
  have after : d.world.store = (c.world.store.take j).1 ∧ d.stack = c.stack := by
    rw [← Store.isTaken_of_index same] at pending
    obtain ⟨w, stack, _⟩ := c
    cases marked
    cases stepped
    simp only [Config.call_of_mark pending stack caller, and_self]
  refine ⟨by rw [after.1, Store.nextId_take]; exact number, ?_⟩
  unfold Config.holds at once ⊢
  rw [Trace.outstanding_of_none unasked unmade, after.1, after.2]
  omega

/-- A frame is withheld until its continuation is resumed. -/
theorem step (withheld : Withheld trace c n k) (spared : Spared trace c) (sparing : Sparing trace c)
    (faithful : Faithful trace c) (stepped : c.step = .ok d)
    (unresumed : ∀ q, c.pushed? = some q → q.2.index ≠ k.index) : Withheld (c :: trace) d n k := by
  have standing := spared.toStanding
  have shift := standing.shift sparing.toGenuine stepped
  have grows := (Config.takes_step stepped).grows
  refine ⟨Nat.lt_of_lt_of_le withheld.known grows,
    fun id q j resent carries => withheld.unsent_step standing stepped resent carries, ?_⟩
  rcases withheld.held with gone | ⟨slice, pends⟩
  · exact .inl (gone.step spared sparing stepped)
  · have slice' : Key.frame n ∈ (d.world.store.frames k).flatMap Val.keys := by
      rwa [shift.frames_eq spared.sound spared.seated withheld.known]
    rcases pends with pending | ⟨q, asked, same⟩
    · cases taken : d.world.store.isTaken k with
      | false => exact .inr ⟨slice', .inl taken⟩
      | true =>
          rcases withheld.taken_step faithful stepped pending taken with
            ⟨q, requested, same⟩ | ⟨j, caller, same, marked⟩
          · refine .inr ⟨slice', .inr ⟨q, ?_, same⟩⟩
            have unasked : c.pushed? = none := by
              obtain ⟨⟨r, made, -⟩, -⟩ := Config.requested?_eq_some requested
              simp [Config.pushed?, (Config.attempt?_of_request made).1]
            rw [Trace.outstanding_of_unasked unasked, requested]
            exact List.mem_append_left _ (by simp)
          · exact .inl (gone_of_mark spared.owning stepped slice pending same marked)
    · refine .inr ⟨slice', .inr ⟨q, ?_, same⟩⟩
      cases pushed : c.pushed? with
      | none =>
          rw [Trace.outstanding_of_unasked pushed]
          exact List.mem_append_right _ asked
      | some q' =>
          rw [Trace.outstanding_of_pushed pushed]
          refine (List.mem_erase_of_ne ?_).2 asked
          rintro rfl
          exact unresumed q pushed same

end Withheld

end OneShot
