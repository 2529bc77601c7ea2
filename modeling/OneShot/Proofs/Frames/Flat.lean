import OneShot.Proofs.Frames.Journey
import OneShot.Proofs.Frames.Unwinding

/-!
# Handlers on one stack

Once a clause has resumed a computation that was captured with the handlers around it, these
are all on one stack.  They stay on it, and whatever the computation performs that one of
them owns is captured at once, as long as what is captured of it is put back inside of the
handlers that it was captured in.
-/

namespace OneShot

variable {G : Guest} {trace : Trace G} {c d : Config G} {g : Gen} {hs : List Val}

/-- The frames of handlers in a stack or a slice. -/
def handlers (frames : List Val) : List Val :=
  frames.filter fun
    | .frame (.handler _ _) => true
    | _ => false

theorem handlers_append (above below : List Val) : handlers (above ++ below) = handlers above ++ handlers below :=
  List.filter_append above below

/-- The continuation whose frames come with what a machine receives. -/
def Val.brought? : Val → Option Cont
  | .resumption _ ⟨.cont k, _, _⟩ => some k
  | .resend _ ⟨_, _, .cont k, _⟩ => some k
  | _ => Option.none

namespace Config

/-- The number of the continuation that the next step captures, and the stack that it leaves. -/
def leaves? (c : Config G) : Option (Nat × List Val) :=
  match c.stepped?, c.step with
  | some m, .ok d =>
    if c.world.store.conts.size < d.world.store.conts.size then some (c.world.store.conts.size, d.world.store.stack m)
    else none
  | _, _ => none

end Config

/-- The stack that was left when a continuation was captured. -/
def Trace.left : Trace G → Nat → List Val
  | [], _ => []
  | c :: trace, n =>
    match c.leaves? with
    | some q => if q.1 = n then q.2 else left trace n
    | none => left trace n

/-- The frame of `g` is there. -/
def Contains (g : Gen) (frames : List Val) : Prop := .gen g ∈ frames.filterMap Val.framed?

/-- Below the frame of `g`, wherever it is, the handlers `hs` are the next ones. -/
def Surrounded (g : Gen) (hs frames : List Val) : Prop :=
  ∀ pre v post, frames = pre ++ v :: post → v.framed? = some (.gen g) → hs <+: handlers post

/--
What the program does next is in order, and frames that come back to a stack together with
that of `g` come inside of the handlers that they were captured in.
-/
structure InPlace (g : Gen) (trace : Trace G) (c : Config G) : Prop extends Orderly trace c where
  inside : ∀ m op k, c.stepped? = some m → c.received? = some op → op.brought? = some k →
    Contains g (c.world.store.frames k) → handlers (trace.left k.index) <+: handlers (c.world.store.stack m)

/-- A continuation that is there to be resumed, or is being resumed. -/
def Resumable (trace : Trace G) (c : Config G) (k : Cont) : Prop :=
  c.world.store.isTaken k = false ∨ ∃ q ∈ trace.outstanding, q.2 = k

/-- Wherever the frame of `g` is, the handlers `hs` are the next ones around it. -/
structure Flat (g : Gen) (hs : List Val) (trace : Trace G) (c : Config G) : Prop where
  onStacks : ∀ m, Surrounded g hs (c.world.store.stack m)
  slices : ∀ k, Resumable trace c k → ∀ pre v post, c.world.store.frames k = pre ++ v :: post →
    v.framed? = some (.gen g) → hs <+: handlers (post ++ trace.left k.index)

theorem Trace.left_of_other {n : Nat} (other : ∀ q, c.leaves? = some q → q.1 ≠ n) :
    Trace.left (c :: trace) n = trace.left n := by
  rw [Trace.left]
  split
  · rename_i q leaves
    exact if_neg (other q leaves)
  · rfl

theorem Config.leaves?_eq_some {q : Nat × List Val} (leaves : c.leaves? = some q) :
    q.1 = c.world.store.conts.size := by
  unfold leaves? at leaves
  split at leaves
  · split at leaves
    · cases leaves
      rfl
    · contradiction
  · contradiction

theorem Trace.left_of_old {n : Nat} (old : n < c.world.store.conts.size) :
    Trace.left (c :: trace) n = trace.left n := by
  refine left_of_other fun q leaves same => ?_
  have new := Config.leaves?_eq_some leaves
  omega

theorem Resumable.before {k : Cont} (resumable : Resumable (c :: trace) d k) (stepped : c.step = .ok d)
    (old : k.index < c.world.store.conts.size) : Resumable trace c k := by
  rcases resumable with pending | ⟨q, outstanding, rfl⟩
  · rw [(Config.takes_step stepped).taken k old, Bool.or_eq_false_iff] at pending
    exact .inl pending.1
  · rcases Trace.mem_outstanding_cons outstanding with made | before
    · exact .inl (Config.requested?_eq_some made).2
    · exact .inr ⟨q, before, rfl⟩

theorem Store.frames_of_new {s : Store} {k : Cont} (new : s.conts.size ≤ k.index) : s.frames k = [] := by
  simp [Store.frames, Array.getElem?_eq_none new]

namespace Surrounded

variable {frames below stack left : List Val}

theorem nil (g : Gen) (hs : List Val) : Surrounded g hs [] := by
  intro pre v post split
  simp at split

/-- What is put on a stack, if it comes inside of the handlers below. -/
theorem append (flat : Surrounded g hs stack)
    (slice : ∀ pre v post, frames = pre ++ v :: post → v.framed? = some (.gen g) → hs <+: handlers (post ++ left))
    (inside : Contains g frames → handlers left <+: handlers stack) : Surrounded g hs (frames ++ stack) := by
  intro pre v post split here
  rcases List.append_eq_append_iff.1 split with ⟨more, rfl, rest⟩ | ⟨more, rfl, rest⟩
  · exact flat more v post rest here
  · cases more with
    | nil => exact flat [] v post rest.symm here
    | cons u more =>
        cases rest
        have whole := slice pre v more rfl here
        have contains : Contains g (pre ++ v :: more) := List.mem_filterMap.2 ⟨v, by simp, here⟩
        have deeper := (List.prefix_append_right_inj (handlers more)).2 (inside contains)
        rw [handlers_append] at whole
        refine whole.trans (deeper.trans ?_)
        rw [← handlers_append]
        exact List.prefix_rfl

/-- What is put on a stack and is something else. -/
theorem append_others (flat : Surrounded g hs stack) (other : ¬ Contains g frames) : Surrounded g hs (frames ++ stack) := by
  have slice : ∀ pre v post, frames = pre ++ v :: post → v.framed? = some (.gen g) → hs <+: handlers (post ++ []) :=
    fun pre v post split here => absurd (List.mem_filterMap.2 ⟨v, by simp [split], here⟩) other
  exact flat.append slice fun contains => absurd contains other

theorem suffix (flat : Surrounded g hs stack) (suffix : left <:+ stack) : Surrounded g hs left := by
  rintro pre v post rfl
  obtain ⟨above, rfl⟩ := suffix
  exact flat (above ++ pre) v post (by simp)

end Surrounded

namespace Flat

/-- What a machine delivers something to. -/
theorem base {m : Nat} {p : Machine.Phase} {r : Reply} {u : Store} {o : Outcome} {base : List Val}
    (delivers : Machine.Delivers c.world.store m p r u o base) (flat : Flat g hs trace c)
    (made : ∀ h, (Process.machine m p).framed? r = some h → h.id ≠ g.id)
    (resumed : ∀ id k, Machine.pushed? p r = some (id, k) → Resumable trace c k ∧
      (Contains g (c.world.store.frames k) → handlers (trace.left k.index) <+: handlers (c.world.store.stack m))) :
    Surrounded g hs base := by
  cases delivers with
  | start r => exact flat.onStacks m
  | answered r w waits => exact flat.onStacks m
  | raised x waits => exact flat.onStacks m
  | discarded op r x => exact flat.onStacks m
  | @pushed r w h value framed =>
      have others : ¬ Contains g [.frame (.generator (.gen h) c.world.store.freshTag.2)] := by
        intro contains
        obtain rfl : g = h := by simpa [Contains, Val.framed?] using contains
        refine made g ?_ rfl
        rcases value with rfl | rfl <;> exact framed
      exact (flat.onStacks m).append_others others
  | ended e w stack value =>
      refine (flat.onStacks m).suffix ?_
      rw [stack]
      exact List.suffix_cons _ _
  | broken e x stack =>
      refine (flat.onStacks m).suffix ?_
      rw [stack]
      exact List.suffix_cons _ _
  | resumed e id k w x =>
      obtain ⟨resumable, inside⟩ := resumed id k rfl
      exact (flat.onStacks m).append (flat.slices k resumable) inside

/-- What is captured is on a stack, with what was captured before above it. -/
theorem captured {m : Nat} {op : Val} {u : Store} {brought above below : List Val} {inner : Option Cont}
    (flat : Flat g hs trace c) (brings : Machine.Brings c.world.store op u brought inner)
    (stack : c.world.store.stack m = above ++ below)
    (inside : ∀ k, op.brought? = some k → Contains g (c.world.store.frames k) →
      handlers (trace.left k.index) <+: handlers (c.world.store.stack m)) :
    ∀ pre v post, brought ++ above = pre ++ v :: post → v.framed? = some (.gen g) → hs <+: handlers (post ++ below) := by
  have there : Surrounded g hs (brought ++ c.world.store.stack m) := by
    cases brings with
    | invocation id i => exact flat.onStacks m
    | resend id e args k context pending =>
        exact (flat.onStacks m).append (flat.slices k (.inl pending)) (inside k rfl)
  intro pre v post split here
  refine there pre v (post ++ below) ?_ here
  rw [stack, ← List.append_assoc, split]
  simp

theorem step (flat : Flat g hs trace c) (standing : Standing trace c) (obeys : InPlace g trace c)
    (framed : g.id ∈ trace.framed) (stepped : c.step = .ok d) : Flat g hs (c :: trace) d := by
  have shift := standing.shift obeys.toGenuine stepped
  have new (h : Gen) (here : c.framed? = some h) : h.id ≠ g.id := fun same =>
    (obeys.framed h here).2.1 (same ▸ framed)
  -- what was captured before is where it was, and what is new was on a stack
  have old (k : Cont) (resumable : Resumable (c :: trace) d k) (before : k.index < c.world.store.conts.size) :
      ∀ pre v post, d.world.store.frames k = pre ++ v :: post → v.framed? = some (.gen g) →
        hs <+: handlers (post ++ Trace.left (c :: trace) k.index) := by
    rw [shift.frames_eq standing.sound standing.seated before, Trace.left_of_old before]
    exact flat.slices k (resumable.before stepped before)
  rcases shift.changes standing.sound standing.seated with
    ⟨-, adds | ⟨h, tag, held, here, handlers, adds⟩⟩ | ⟨m, p, r, i, rest, t, moved, stack, signal, inside, does, after⟩
  · refine ⟨fun m => ?_, fun k resumable => ?_⟩
    · rw [adds.onStacks]
      simpa using flat.onStacks m
    · by_cases before : k.index < c.world.store.conts.size
      · exact old k resumable before
      · rw [adds.frames, Store.frames_of_new (Nat.le_of_not_lt before)]
        simp
  · refine ⟨fun m => ?_, fun k resumable => ?_⟩
    · rw [adds.onStacks]
      split
      · have others : ¬ Contains g (.frame (.generator (.gen h) tag) :: held) := by
          rw [Contains, List.mem_filterMap]
          rintro ⟨v, mem, same⟩
          rcases List.mem_cons.1 mem with rfl | mem
          · cases same
            exact new g here rfl
          · obtain ⟨l, u, rfl⟩ := handlers v mem
            cases same
        simpa using (Surrounded.nil g hs).append_others others
      · exact flat.onStacks m
    · by_cases before : k.index < c.world.store.conts.size
      · exact old k resumable before
      · rw [adds.frames, Store.frames_of_new (Nat.le_of_not_lt before)]
        simp
  · have received : c.received? = Machine.received? p r := Config.received?_machine stack signal
    have turn : c.stepped? = some m := Config.stepped?_machine stack signal
    have brought (op : Val) (k : Cont) (got : Machine.received? p r = some op) (brings : op.brought? = some k) :
        Contains g (c.world.store.frames k) → handlers (trace.left k.index) <+: handlers (c.world.store.stack m) :=
      obeys.inside m op k turn (received.trans got) brings
    have others {left : List Val} {slice : Option (List Val)} (sets : Store.Sets c.world.store t m left slice)
        (here : Surrounded g hs left) (n : Nat) : Surrounded g hs (d.world.store.stack n) := by
      by_cases same : n = m
      · rw [same, (sets.after after).stack_eq]
        exact here
      · rw [(sets.after after).others n same]
        exact flat.onStacks n
    have settled {left : List Val} (sets : Store.Sets c.world.store t m left none)
        (here : Surrounded g hs left) : Flat g hs (c :: trace) d := by
      refine ⟨others sets here, fun k resumable => ?_⟩
      by_cases before : k.index < c.world.store.conts.size
      · exact old k resumable before
      · have frames := (sets.after after).frames k
        simp only [Option.getD_none, ite_self, Store.frames_of_new (Nat.le_of_not_lt before)] at frames
        simp [frames]
    cases does with
    | settles delivers delivered quiet =>
        obtain ⟨above, whole, -⟩ := delivered.passed
        refine settled (delivers.sets standing.sound.own inside quiet) (.suffix ?_ ⟨above, whole.symm⟩)
        refine base delivers flat (fun h here => new h ((Config.framed?_machine stack signal).trans here)) ?_
        intro id k pushed
        obtain ⟨op, got, resumed⟩ := Option.bind_eq_some_iff.1 pushed
        have outstanding := obeys.pushed (id, k) (by rw [Config.pushed?, received, got]; exact resumed)
        refine ⟨.inr ⟨_, outstanding, rfl⟩, brought op k got ?_⟩
        unfold Val.resumed? at resumed
        split at resumed
        · cases resumed
          rfl
        · cases resumed
    | halts left quiet ending unasked begun =>
        exact settled (Machine.sets_of_take left standing.sound.own quiet) (flat.onStacks m)
    | escapes e id action => exact settled (.refl standing.sound.own m) (flat.onStacks m)
    | closes contents => exact settled (.refl standing.sound.own m) (flat.onStacks m)
    | discards top unasked =>
        refine settled (.setStack standing.sound.own inside _) ((flat.onStacks m).suffix ?_)
        rw [top]
        exact List.suffix_cons _ _
    | @captures e op i above below brought' inner u t turn' invoked top brings quiet directs =>
        have sets := brings.sets standing.sound.own inside quiet
        refine ⟨others sets ((flat.onStacks m).suffix ⟨above, top.symm⟩), fun k resumable => ?_⟩
        by_cases before : k.index < c.world.store.conts.size
        · exact old k resumable before
        · have frames := (sets.after after).frames k
          by_cases last : k.index = c.world.store.conts.size
          · have grown : c.world.store.conts.size < d.world.store.conts.size := by
              rw [Store.conts_of_engine after.engine, Store.conts_of_engine quiet.engine, ← brings.size]
              simp [Store.newCont]
            have leaves : c.leaves? = some (c.world.store.conts.size, below) := by
              simp [Config.leaves?, turn, stepped, grown, (sets.after after).stack_eq]
            have left : Trace.left (c :: trace) k.index = below := by simp [Trace.left, leaves, last]
            rw [if_pos last, Option.getD_some] at frames
            rw [frames, left]
            exact flat.captured brings top fun k brings => brought op k rfl brings
          · rw [if_neg last, Store.frames_of_new (Nat.le_of_not_lt before)] at frames
            simp [frames]

/-- A request that is answered puts the frames that were captured on a stack again. -/
theorem pushes (standing : Standing trace c) {q : Nat × Cont} (pushed : c.pushed? = some q) {v : Val} {rest : List Val}
    (frames : c.world.store.frames q.2 = v :: rest) (here : v.framed? = some (.gen g)) (stepped : c.step = .ok d) :
    ∃ m < d.world.store.machines.size, ∃ below, d.world.store.stack m = v :: rest ++ below := by
  obtain ⟨op, received, resumed⟩ := Option.bind_eq_some_iff.1 pushed
  obtain ⟨h, m, i, tag, below, B, stack, signal, -, -⟩ := standing.received received
  obtain ⟨h', same, ran, -⟩ := standing.seated.machine (a := .running h (.library (.machine m (.advancing (.gen i)))))
    (by rw [stack]; exact .head _) rfl
  have inside := standing.sound.ran m _ ran
  have own := standing.sound.own
  obtain ⟨t, turn, -, does, followed⟩ := standing.sound.follows standing.seated stack signal stepped
  obtain ⟨tag', rfl⟩ : ∃ tag', v = .frame (.generator (.gen g) tag') := by
    unfold Val.framed? at here
    split at here
    · cases here
      exact ⟨_, rfl⟩
    · cases here
  cases does with
  | settles delivers delivered quiet =>
      have sets := (delivers.sets own inside quiet).after followed.quiet
      refine ⟨m, by rwa [sets.size], c.world.store.stack m, sets.stack_eq.trans ?_⟩
      cases delivers with
      | answered r w waits => simp at waits
      | ended e w stack value => exact absurd rfl (value op)
      | resumed e id k w x =>
          cases resumed
          rw [frames, List.cons_append] at delivered
          generalize Resumption.outcome _ = o at delivered
          cases delivered
          rfl
  | halts left quiet ending unasked begun => exact absurd (unasked.symm.trans resumed) (by simp)
  | escapes e id action => cases resumed
  | closes contents => simp at contents
  | discards top unasked => exact absurd (unasked.symm.trans resumed) (by simp)
  | captures invoked top brings quiet directs => exact absurd (brings.origin.2.2.symm.trans resumed) (by simp)

theorem mem_keys_of_framed? {v : Val} (framed : v.framed? = some (.gen g)) : .gen g.id ∈ v.keys := by
  unfold Val.framed? at framed
  split at framed
  · cases framed
    simp [Val.keys]
  · cases framed

/-- What is in the frames of a continuation that is being resumed has been framed. -/
theorem framed_of_asked (owning : Owning trace c) {q : Nat × Cont} (asked : q ∈ trace.outstanding) {v : Val}
    (mem : v ∈ c.world.store.frames q.2) (framed : v.framed? = some (.gen g)) : g.id ∈ trace.framed := by
  refine owning.gens g.id (Nat.lt_of_lt_of_le ?_ (Nat.le_add_right _ _))
  refine List.countP_pos_iff.2 ⟨v, List.mem_append_right _ (List.mem_flatMap.2 ⟨q, asked, mem⟩), ?_⟩
  simpa [Key.within] using mem_keys_of_framed? framed

/-- Once frames are on a stack again, the handlers among them are around `g`. -/
theorem begins (ordered : Ordered trace c) (orderly : Orderly trace c) {q : Nat × Cont} (pushed : c.pushed? = some q)
    {v : Val} {rest : List Val} (frames : c.world.store.frames q.2 = v :: rest) (here : v.framed? = some (.gen g))
    (stepped : c.step = .ok d) : Flat g (handlers rest) (c :: trace) d := by
  obtain ⟨m, inside, below, stack⟩ := pushes ordered.toStanding pushed frames here stepped
  have owning := (ordered.step orderly stepped).owning
  have held : Key.gen g.id ∈ (d.world.store.stack m).flatMap Val.keys := by
    rw [stack]
    exact List.mem_flatMap.2 ⟨v, by simp, mem_keys_of_framed? here⟩
  refine ⟨fun n pre u post split there => ?_, fun k resumable pre u post split there => ?_⟩
  · have mem : Key.gen g.id ∈ (d.world.store.stack n).flatMap Val.keys := by
      rw [split]
      exact List.mem_flatMap.2 ⟨u, by simp, mem_keys_of_framed? there⟩
    have known : n < d.world.store.machines.size := by
      by_contra out
      simp [Store.stack, Array.getElem?_eq_none (Nat.le_of_not_lt out)] at mem
    obtain rfl := owning.unique known inside mem held
    -- the frame on top is the only one
    have once := owning.once_stacked inside
    rw [stack, List.cons_append, List.flatMap_cons, List.nodup_append] at once
    rw [stack, List.cons_append] at split
    cases pre with
    | nil =>
        cases split
        rw [handlers_append]
        exact List.prefix_append _ _
    | cons w pre =>
        obtain ⟨rfl, rest⟩ := List.cons.inj split
        refine absurd rfl (once.2.2 (Key.gen g.id) (mem_keys_of_framed? here) (Key.gen g.id) (List.mem_flatMap.2 ⟨u, ?_, mem_keys_of_framed? there⟩))
        rw [rest]
        simp
  · refine absurd ?_ (owning.apart inside held resumable)
    rw [split]
    exact List.mem_flatMap.2 ⟨u, by simp, mem_keys_of_framed? there⟩

end Flat

/-- What a continuation has captured stays as it is. -/
theorem RunOf.frames_eq {rule : Trace G → Config G → Prop} (genuine : ∀ trace c, rule trace c → Genuine trace c)
    {later before : Trace G} {b : Config G} (run : RunOf rule (later ++ b :: before) d) {k : Cont}
    (old : k.index < b.world.store.conts.size) :
    d.world.store.frames k = b.world.store.frames k ∧ k.index < d.world.store.conts.size := by
  have one {trace : Trace G} {c d : Config G} (run : RunOf rule trace c) (obeys : rule trace c) (stepped : c.step = .ok d)
      (old : k.index < c.world.store.conts.size) :
      d.world.store.frames k = c.world.store.frames k ∧ k.index < d.world.store.conts.size := by
    have standing := run.standing genuine
    exact ⟨(standing.shift (genuine _ _ obeys) stepped).frames_eq standing.sound standing.seated old,
      Nat.lt_of_lt_of_le old (Config.takes_step stepped).grows⟩
  induction later generalizing d with
  | nil =>
      cases run with
      | step before obeys stepped => exact one before obeys stepped old
  | cons c later ih =>
      cases run with
      | step before obeys stepped =>
          obtain ⟨same, inside⟩ := ih before
          obtain ⟨same', inside'⟩ := one before obeys stepped inside
          exact ⟨same'.trans same, inside'⟩

/-- From the answer to a request on, the handlers among the frames that came back are around `g`. -/
theorem RunOf.flat {later before : Trace G} {b : Config G} (run : RunOf (InPlace g) (later ++ b :: before) d)
    {q : Nat × Cont} (pushed : b.pushed? = some q) {v : Val} {rest : List Val}
    (frames : b.world.store.frames q.2 = v :: rest) (here : v.framed? = some (.gen g)) :
    g.id ∈ Trace.framed (later ++ b :: before) ∧ Flat g (handlers rest) (later ++ b :: before) d := by
  induction later generalizing d with
  | nil =>
      cases run with
      | step before obeys stepped =>
          have ordered := before.ordered fun _ _ h => h.toOrderly
          have mem : v ∈ b.world.store.frames q.2 := by simp [frames]
          exact ⟨Trace.framed_cons (Flat.framed_of_asked ordered.owning (obeys.pushed q pushed) mem here),
            .begins ordered obeys.toOrderly pushed frames here stepped⟩
  | cons c later ih =>
      cases run with
      | step run obeys stepped =>
          obtain ⟨framed, flat⟩ := ih run
          exact ⟨Trace.framed_cons framed, flat.step (run.standing fun _ _ h => h.toGenuine) obeys framed stepped⟩

/-! ## An effect that a handler on the stack owns -/

/-- A stack is cut at the first of the handlers on it that owns the effect. -/
theorem cut_of_prefix {e : Effect} {stack above more : List Val} {h : Handler} {tag : Tag} {f : Val}
    (proper : ∀ v ∈ stack, v.Proper) (first : above ++ .frame (.handler (.handler h) tag) :: more <+: handlers stack)
    (free : Unowned (.effect e) above) (owns : h.clause? e = some f) : ∃ slice, cut e stack = some slice ∧
      slice.handler = h ∧ slice.clause = f ∧ handlers slice.frames = above ++ [.frame (.handler (.handler h) tag)] := by
  induction stack generalizing above with
  | nil => simp [handlers] at first
  | cons v rest ih =>
      have proper' : ∀ v ∈ rest, v.Proper := fun v mem => proper v (List.mem_cons_of_mem _ mem)
      cases proper v List.mem_cons_self with
      | generator i u =>
          obtain ⟨slice, cuts, handler, clause, same⟩ := ih proper' first free
          exact ⟨{ slice with frames := .frame (.generator (.gen i) u) :: slice.frames }, by simp [cut, cuts], handler,
            clause, same⟩
      | handler k u =>
          have top : handlers (.frame (.handler (.handler k) u) :: rest) = .frame (.handler (.handler k) u) :: handlers rest := rfl
          rw [top] at first
          cases above with
          | nil =>
              obtain ⟨same, -⟩ := List.cons_prefix_cons.1 first
              cases same
              exact ⟨⟨[.frame (.handler (.handler h) tag)], h, f, rest⟩, by simp only [cut, owns], rfl, rfl, rfl⟩
          | cons a above =>
              rw [List.cons_append] at first
              obtain ⟨rfl, first'⟩ := List.cons_prefix_cons.1 first
              have unowned := free k u (List.mem_cons_self) e rfl
              obtain ⟨slice, cuts, handler, clause, same⟩ :=
                ih proper' first' fun h t mem => free h t (List.mem_cons_of_mem _ mem)
              refine ⟨{ slice with frames := .frame (.handler (.handler k) u) :: slice.frames }, ?_, handler, clause, ?_⟩
              · have none_owns : k.clause? e = none := by simpa [Handler.owns] using unowned
                simp [cut, none_owns, cuts]
              · rw [List.cons_append, ← same]
                rfl

theorem handlers_gathered (g : Gen) (ts : List Tier) : handlers (gathered g ts) = ts.filterMap Tier.frame? := by
  induction ts generalizing g with
  | nil => rfl
  | cons t ts ih =>
      have own : handlers (t.frames g) = t.frame?.toList := by
        obtain ⟨m, h, under, layer⟩ := t
        cases layer <;> rfl
      rw [gathered, handlers_append, own, ih]
      cases here : t.frame? <;> simp [here]

/-- A machine captures its stack down to the handler that owns an effect, and nothing else. -/
theorem Machine.dispatch_direct {s : Store} {m : Nat} {owner : Val} {e : Effect} {slice : Slice}
    (there : s.machines[m]? = some ⟨.own (s.stack m), owner⟩) (proper : ∀ v ∈ s.stack m, v.Proper)
    (cuts : cut e (s.stack m) = some slice) (args : Arguments) (context : Val) :
    ∃ u, dispatch s m (.effect e) args context none =
        (u, .ask (.call slice.clause (.cont ⟨s.conts.size, false⟩ :: args.values)) .calling) ∧
      u.conts = s.conts.push ⟨slice.frames, none, false⟩ ∧ Noted s u [slice.handler.answers e false] := by
  let left := s.setStack m slice.below
  let after := (left.newCont slice.frames none).1
  have captured : capture left slice.frames none = (after, ⟨s.conts.size, false⟩) := by
    simp [capture, after, left, Store.newCont]
  refine ⟨after.note .handler fun _ => slice.handler.answers e false after, ?_, ?_, ?_⟩
  · simp only [dispatch, searchFault?_eq_none proper, cuts]
    rw [captured]
    rfl
  · have quiet : Store.Quietly after (after.note .handler fun _ => slice.handler.answers e false after) := .note _ _ _
    rw [Store.conts_of_engine quiet.engine]
    simp [after, left, Store.newCont]
  · have alike : s.Alike s := ⟨rfl, rfl, rfl, rfl, fun _ _ => rfl⟩
    have silent : Noted s after [] := (Noted.nil s).of_events (by simp [after, left, Store.newCont, Store.setStack, there])
    exact silent.note ((alike.setStack there slice.below).newCont _ _) _

/--
From `c` to `d` the clause of a handler is called, with a continuation that has just been made:
it resumes `g`, and has some handlers up to this one, but no other continuation inside of it.
-/
structure Answered (c d : Config G) (g : Gen) (e : Effect) (args : List Val) (inside : List Val) (h : Handler)
    (tag : Tag) (f : Val) : Prop where
  called : d.signal = .call f (.cont ⟨c.world.store.conts.size, false⟩ :: args) .machine
  captured : ∃ v rest, d.world.store.conts = c.world.store.conts.push ⟨v :: rest, none, false⟩ ∧
    v.framed? = some (.gen g) ∧ handlers rest = inside ++ [.frame (.handler (.handler h) tag)]
  noted : Noted c.world.store d.world.store [h.answers e false]

/-- What `g` performs is answered at once, if one of the handlers that are around it owns it. -/
theorem Flat.answered {i : Gen} {m id : Nat} {inv : Invocation} {B : List (Activation G)} {e : Effect}
    {inside more : List Val} {k : Handler} {tag : Tag} {f : Val}
    (flat : Flat g (inside ++ .frame (.handler (.handler k) tag) :: more) trace c) (standing : Standing trace c)
    (stack : c.stack = .running i (.library (.machine m (.advancing (.gen g)))) :: B)
    (signal : c.signal = .reply (.yielded (.invocation id inv)))
    (effect : inv.effect = .effect e) (free : Unowned (.effect e) inside) (owns : k.clause? e = some f) :
    ∃ d, c.step = .ok d ∧ Answered c d g e inv.args.values inside k tag f := by
  have mem : .running i (.library (.machine m (.advancing (.gen g)))) ∈ c.stack := by simp [stack]
  obtain ⟨h, u, rest, same, top⟩ := standing.aligned.held _ mem m (.advancing (.gen g)) rfl
  cases same
  obtain ⟨h', machine, ran, -⟩ := standing.seated.machine mem rfl
  obtain ⟨owner, there⟩ := standing.sound.machine ran
  have proper := standing.sound.onStacks m
  obtain ⟨slice, cuts, rfl, rfl, captured⟩ := cut_of_prefix
    (fun v mem => proper v (by rw [top]; exact List.mem_cons_of_mem _ mem)) (flat.onStacks m [] _ rest top rfl) free owns
  have whole : cut e (c.world.store.stack m) =
      some { slice with frames := .frame (.generator (.gen g) u) :: slice.frames } := by
    rw [top]
    simp [cut, cuts]
  obtain ⟨t, dispatched, conts, noted⟩ := Machine.dispatch_direct there proper whole inv.args inv.context
  obtain ⟨w, S, _⟩ := c
  cases stack
  cases signal
  have turned := Machine.step_activation w i m (.advancing (.gen g)) B (.yielded (.invocation id inv))
  simp only [Machine.step, Machine.receive, effect, dispatched] at turned
  exact ⟨_, turned, rfl, ⟨_, slice.frames, conts, rfl, captured⟩, noted⟩

end OneShot
