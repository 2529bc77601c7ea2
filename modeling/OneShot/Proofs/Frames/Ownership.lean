import Mathlib.Data.List.Pairwise
import OneShot.Proofs.Frames.Soundness

/-!
# Ownership

Each frame is owned once.  A step moves frames between the places that own them
and lets some of them go; what it adds is new, or held in reserve before.
-/

namespace OneShot

open Store (Quietly)

variable {G : Guest}

/-- Whether a value has a key. -/
def Key.within (x : Key) (v : Val) : Bool := decide (x ∈ v.keys)

theorem count_keys (x : Key) (l : List Val) : (l.flatMap Val.keys).count x = l.countP x.within := by
  have alone (v : Val) : v.keys.count x = if x.within v then 1 else 0 := by
    have once : v.keys.Nodup := by
      unfold Val.keys
      split <;> simp
    unfold Key.within
    by_cases mem : x ∈ v.keys
    · simp [mem, List.count_eq_one_of_mem once mem]
    · simp [mem, List.count_eq_zero_of_not_mem mem]
  induction l with
  | nil => rfl
  | cons v l ih =>
      rw [List.flatMap_cons, List.count_append, List.countP_cons, ih, alone v]
      omega

/-- How often a key is owned or in reserve. -/
def Config.holds (trace : Trace G) (c : Config G) (x : Key) : Nat :=
  (c.world.store.owned trace.outstanding).countP x.within + (reserved c.stack).count x

/-- What is known of the places that own frames. -/
structure Owning (trace : Trace G) (c : Config G) : Prop where
  sound : Sound trace c
  once : ∀ x, c.holds trace x ≤ 1
  tags : ∀ i, 0 < c.holds trace (.frame i) → i < c.world.store.nextId
  gens : ∀ i, 0 < c.holds trace (.gen i) → i ∈ trace.framed
  requests : ∀ q ∈ trace.outstanding, q.2.index < c.world.store.conts.size

/-- What a step adds to what is owned. -/
structure Gains (trace : Trace G) (c d : Config G) (made handlers : List Val) : Prop where
  counts : ∀ P : Val → Bool, (d.world.store.owned (Trace.outstanding (c :: trace))).countP P ≤
    (c.world.store.owned trace.outstanding).countP P + made.countP P + handlers.countP P
  new : made = [] ∨ ∃ g t, made = [.frame (.generator (.gen g) t)] ∧ c.framed? = some g ∧
    t.id = c.world.store.nextId ∧ c.world.store.nextId < d.world.store.nextId
  held : ∀ v ∈ handlers, v.IsHandler
  reserve : (∀ x : Key, (reserved d.stack).count x + handlers.countP x.within ≤
      (reserved c.stack).count x) ∨
    made = [] ∧ handlers = [] ∧ reserved d.stack = .frame c.world.store.nextId :: reserved c.stack ∧
      c.world.store.nextId < d.world.store.nextId
  numbers : c.world.store.nextId ≤ d.world.store.nextId

namespace Trace

variable {trace : Trace G} {c : Config G}

theorem outstanding_of_unasked (h : c.pushed? = none) :
    Trace.outstanding (c :: trace) = c.requested?.toList ++ trace.outstanding := by
  simp [outstanding, h]

theorem outstanding_of_pushed {q : Nat × Cont} (h : c.pushed? = some q) :
    Trace.outstanding (c :: trace) = trace.outstanding.erase q := by
  simp [outstanding, h]

theorem mem_outstanding_cons {q : Nat × Cont} (h : q ∈ Trace.outstanding (c :: trace)) :
    c.requested? = some q ∨ q ∈ trace.outstanding := by
  simp only [outstanding] at h
  split at h
  · exact .inr (List.mem_of_mem_erase h)
  · rcases List.mem_append.1 h with made | before
    · exact .inl (by simpa using made)
    · exact .inr before

theorem outstanding_of_none (unasked : c.pushed? = none) (unmade : c.requested? = none) :
    Trace.outstanding (c :: trace) = trace.outstanding := by
  simp [outstanding, unasked, unmade]

end Trace

namespace Store

theorem Quietly.owned {s t : Store} (h : Quietly s t) (own : s.Own)
    (requests : List (Nat × Cont)) : t.owned requests = s.owned requests :=
  own.owned_eq h.engine requests

end Store

/-! ## Turns of machines -/

namespace Machine

/-- The request that a machine answers in a turn. -/
def pushed? (p : Phase) (r : Reply) : Option (Nat × Cont) := (received? p r).bind Val.resumed?

/-- What is outstanding after a turn of a machine. -/
def answered (p : Phase) (r : Reply) (requests : List (Nat × Cont)) : List (Nat × Cont) :=
  (pushed? p r).elim requests fun q => requests.erase q

/-- The frame that a machine makes in a turn, if it does. -/
def Makes (s : Store) (p : Phase) (r : Reply) (made : List Val) : Prop :=
  made = [] ∨ ∃ g, made = [.frame (.generator (.gen g) s.freshTag.2)] ∧
    p = .calling ∧ ∃ v, (r = .value v ∨ r = .yielded v) ∧ v.generator? = some g

variable {s t : Store} {m : Nat} {p : Phase} {r : Reply}

/-- An outcome is delivered to the stack of the machine, with frames that are pushed before. -/
theorem Delivers.counts {u : Store} {o : Outcome} {base : List Val}
    (h : Delivers s m p r u o base) : ∃ made, Makes s p r made ∧
      (made ≠ [] → u.nextId = s.nextId + 1) ∧ ∀ P, base.countP P ≤ (s.stack m).countP P +
        made.countP P + ((pushed? p r).elim [] fun q => s.frames q.2).countP P := by
  cases h with
  | @pushed r v g value made =>
      refine ⟨[.frame (.generator (.gen g) s.freshTag.2)], ?_, fun _ => rfl, fun P => ?_⟩
      · exact .inr ⟨g, rfl, rfl, v, value, made⟩
      · rw [List.countP_cons, List.countP_singleton]
        omega
  | ended c w stack value =>
      refine ⟨[], .inl rfl, by simp, fun P => ?_⟩
      rw [stack, List.countP_cons]
      omega
  | broken c x stack =>
      refine ⟨[], .inl rfl, by simp, fun P => ?_⟩
      rw [stack, List.countP_cons]
      omega
  | resumed c id k v e =>
      refine ⟨[], .inl rfl, by simp, fun P => ?_⟩
      have asked : pushed? (.advancing c) (.yielded (.resumption id ⟨.cont k, v, e⟩)) =
        some (id, k) := rfl
      rw [asked, List.countP_append, List.countP_nil]
      simp only [Option.elim_some]
      omega
  | _ => exact ⟨[], .inl rfl, by simp, fun P => by omega⟩

theorem countP_answered {requests : List (Nat × Cont)}
    (known : ∀ q, pushed? p r = some q → q ∈ requests) (P : Val → Bool) :
    (s.owned (answered p r requests)).countP P +
      ((pushed? p r).elim [] fun q => s.frames q.2).countP P = (s.owned requests).countP P := by
  unfold answered
  cases asked : pushed? p r with
  | none => rfl
  | some q => exact Store.countP_erase s P (known q asked)

/-- What is brought along was pending. -/
theorem Brings.counts {u : Store} {op : Val} {brought : List Val} {inner : Option Cont}
    (h : Brings s op u brought inner) (requests : List (Nat × Cont)) :
    u.machines = s.machines ∧ u.nextId = s.nextId ∧ u.conts.size = s.conts.size ∧
      ∀ P, (u.owned requests).countP P + brought.countP P = (s.owned requests).countP P := by
  cases h with
  | invocation id i => exact ⟨rfl, rfl, rfl, fun P => rfl⟩
  | resend id e args k context pending =>
      refine ⟨Store.machines_take s k, Store.nextId_take s k, by simp [Store.take, pending], ?_⟩
      intro P
      rw [← Store.pending_of_pending pending]
      exact Store.countP_take s P requests k

/-- What is owned after a turn of a machine was so before, or is a new frame. -/
theorem Does.counts {moved : Turn Phase} (does : Does s m p r t moved) (own : s.Own)
    (inside : m < s.machines.size) {requests : List (Nat × Cont)}
    (known : ∀ q ∈ requests, q.2.index < s.conts.size)
    (pushed : ∀ q, pushed? p r = some q → q ∈ requests) :
    ∃ made, Makes s p r made ∧ (made ≠ [] → s.nextId < t.nextId) ∧ s.nextId ≤ t.nextId ∧
      ∀ P, (t.owned (answered p r requests)).countP P ≤
        (s.owned requests).countP P + made.countP P := by
  have still {u : Store} (left : u = s ∨ ∃ k, u = (s.take k).1) :
      u.machines = s.machines ∧ u.nextId = s.nextId ∧
        ∀ P, (u.owned requests).countP P ≤ (s.owned requests).countP P := by
    rcases left with rfl | ⟨k, rfl⟩
    · exact ⟨rfl, rfl, fun P => Nat.le_refl _⟩
    · refine ⟨Store.machines_take s k, Store.nextId_take s k, fun P => ?_⟩
      have taken := Store.countP_take s P requests k
      omega
  have unasked (h : pushed? p r = none) : answered p r requests = requests := by
    unfold answered
    rw [h]
    rfl
  cases does with
  | @settles _ _ o base left u _ _ delivers delivered after =>
      obtain ⟨made, makes, numbers, base_counts⟩ := delivers.counts
      have quiet := delivers.quiet
      have own' : u.Own := own.of_machines (Store.machines_of_engine quiet.engine)
      have inside' : m < u.machines.size := by rwa [Store.machines_of_engine quiet.engine]
      have more := after.numbers
      rw [Store.nextId_setStack] at more
      refine ⟨made, makes, fun h => ?_, Nat.le_trans quiet.numbers more, fun P => ?_⟩
      · have next := numbers h
        omega
      · obtain ⟨above, whole, -⟩ := delivered.passed
        have set := own'.countP_setStack P (answered p r requests) inside' left
        rw [← after.owned (own'.setStack inside' left), quiet.owned own,
          own.stack_eq (Store.machines_of_engine quiet.engine)] at set
        have answers := countP_answered (s := s) pushed P
        have based := base_counts P
        rw [whole, List.countP_append] at based
        omega
  | halts left after ending asked begun =>
      obtain ⟨machines, numbers, fewer⟩ := still left
      have own' := own.of_machines machines
      refine ⟨[], .inl rfl, by simp, numbers ▸ after.numbers, fun P => ?_⟩
      rw [unasked asked, after.owned own']
      exact fewer P
  | escapes c id action =>
      exact ⟨[], .inl rfl, by simp, Nat.le_refl _, fun P => Nat.le_refl _⟩
  | closes contents =>
      refine ⟨[], .inl rfl, by simp, Nat.le_refl _, fun P => ?_⟩
      rw [unasked]
      · exact Nat.le_refl _
      · rcases contents with ⟨rfl, -⟩ | rfl <;> rfl
  | @discards c op v rest stack asked =>
      refine ⟨[], .inl rfl, by simp, ?_, fun P => ?_⟩
      · exact Nat.le_of_eq (Store.nextId_setStack s m rest).symm
      · rw [unasked asked]
        have set := own.countP_setStack P requests inside rest
        rw [stack, List.countP_cons] at set
        omega
  | @captures c op i above below brought inner u t turn invoked stack brings after directs =>
      obtain ⟨machines, numbers, size, moved⟩ := brings.counts requests
      have asked : pushed? (.advancing c) (.yielded op) = none := brings.origin.2.2
      have own' : u.Own := own.of_machines machines
      have inside' : m < u.machines.size := by rwa [machines]
      have set_own := own'.setStack inside' below
      have known' : ∀ q ∈ requests, q.2.index < (u.setStack m below).conts.size := by
        intro q mem
        rw [conts_setStack, size]
        exact known q mem
      have more := after.numbers
      refine ⟨[], .inl rfl, by simp, ?_, fun P => ?_⟩
      · have same : ((u.setStack m below).newCont (brought ++ above) (inner.map .cont)).1.nextId = s.nextId := by
          rw [← numbers, ← Store.nextId_setStack u m below]
          rfl
        omega
      · have made : ((u.setStack m below).newCont (brought ++ above) (inner.map .cont)).1.Own := set_own
        have set := own'.countP_setStack P requests inside' below
        have kept := moved P
        rw [unasked asked, after.owned made, Store.countP_newCont known', List.countP_append]
        rw [own.stack_eq machines, stack, List.countP_append] at set
        simp only [List.countP_nil]
        omega

end Machine

namespace Config

variable {c : Config G} {m : Nat} {p : Machine.Phase} {r : Reply} {g : Gen}
  {rest : List (Activation G)}

theorem pushed?_machine (stack : c.stack = .running g (.library (.machine m p)) :: rest)
    (signal : c.signal = .reply r) : c.pushed? = Machine.pushed? p r := by
  obtain ⟨w, _, _⟩ := c
  cases stack
  cases signal
  rfl

theorem outstanding_machine (trace : Trace G)
    (stack : c.stack = .running g (.library (.machine m p)) :: rest)
    (signal : c.signal = .reply r) :
    Trace.outstanding (c :: trace) = Machine.answered p r trace.outstanding := by
  have asked := pushed?_machine stack signal
  have unmade : c.requested? = none := by
    obtain ⟨w, _, _⟩ := c
    cases signal
    rfl
  unfold Machine.answered
  rw [← asked]
  cases pushed : c.pushed? with
  | none => rw [Trace.outstanding_of_none pushed unmade]; rfl
  | some q => rw [Trace.outstanding_of_pushed pushed]; rfl

end Config

namespace Owning

variable {trace : Trace G} {c d : Config G}

/-- A step that leaves the engine alone adds nothing. -/
theorem gains_quiet (owning : Owning trace c) (after : Quietly c.world.store d.world.store)
    (same : Trace.outstanding (c :: trace) = trace.outstanding) (keeps : c.Keeps d) :
    Gains trace c d [] [] where
  counts P := by
    rw [same, after.owned owning.sound.own]
    simp
  new := .inl rfl
  held := by simp
  reserve := by
    rcases keeps with fewer | ⟨more, numbers⟩
    · exact .inl fun x => by simpa using fewer x
    · exact .inr ⟨rfl, rfl, more, numbers⟩
  numbers := after.numbers

theorem gains_takes (owning : Owning trace c) (k : Cont)
    (after : Quietly (c.world.store.take k).1 d.world.store) (unasked : c.pushed? = none)
    (made : ∀ q, c.requested? = some q → q.2 = k) (keeps : c.Keeps d) :
    Gains trace c d [] [] where
  counts P := by
    have own : (c.world.store.take k).1.Own :=
      owning.sound.own.of_machines (Store.machines_take _ k)
    have taken := Store.countP_take c.world.store P trace.outstanding k
    rw [Trace.outstanding_of_unasked unasked, after.owned own]
    cases requested : c.requested? with
    | none =>
        simp only [Option.toList_none, List.nil_append, List.countP_nil]
        omega
    | some q =>
        obtain ⟨-, pending⟩ := Config.requested?_eq_some requested
        have same := made q requested
        subst same
        simp only [Option.toList_some, List.singleton_append, Store.countP_cons,
          Store.frames_take, List.countP_nil]
        rw [Store.pending_of_pending pending] at taken
        omega
  new := .inl rfl
  held := by simp
  reserve := by
    rcases keeps with fewer | ⟨more, numbers⟩
    · exact .inl fun x => by simpa using fewer x
    · exact .inr ⟨rfl, rfl, more, numbers⟩
  numbers := by
    have numbers := after.numbers
    rwa [Store.nextId_take] at numbers

theorem gains_makes (owning : Owning trace c) {g : Gen} {handlers : List Val} (owner : Val)
    (framed : c.framed? = some g)
    (after : Quietly (c.world.store.freshTag.1.newMachine
      (.own (.frame (.generator (.gen g) c.world.store.freshTag.2) :: handlers)) owner).1
      d.world.store)
    (same : Trace.outstanding (c :: trace) = trace.outstanding)
    (proper : ∀ v ∈ handlers, v.IsHandler)
    (keeps : ∀ x, (reserved d.stack).count x + (handlers.flatMap Val.keys).count x ≤
      (reserved c.stack).count x) :
    Gains trace c d [.frame (.generator (.gen g) c.world.store.freshTag.2)] handlers where
  counts P := by
    have own : c.world.store.freshTag.1.Own := owning.sound.own
    have tagged := own.owned_eq (t := c.world.store) rfl trace.outstanding
    rw [same, after.owned (own.newMachine _ _), Store.countP_newMachine, tagged,
      List.countP_cons, List.countP_singleton]
    omega
  new := by
    refine .inr ⟨g, _, rfl, framed, rfl, ?_⟩
    exact Nat.lt_of_lt_of_le (Nat.lt_succ_self _) after.numbers
  held := proper
  reserve := .inl fun x => by
    have kept := keeps x
    rwa [count_keys] at kept
  numbers := Nat.le_trans (Nat.le_succ _) after.numbers

/-- What a machine adds is a frame for a generator that it got. -/
theorem gains_machine (owning : Owning trace c) (seated : Seated trace c)
    (handed : Handed trace c) {m : Nat} {p : Machine.Phase} {r : Reply} {g : Gen}
    {rest : List (Activation G)} {t : Store} {moved : Turn Machine.Phase}
    (stack : c.stack = .running g (.library (.machine m p)) :: rest) (signal : c.signal = .reply r)
    (does : Machine.Does c.world.store m p r t moved) (after : Quietly t d.world.store)
    (keeps : reserved d.stack = reserved c.stack) : ∃ made, Gains trace c d made [] := by
  have fair := seated.stack (.running g (.library (.machine m p)))
    (by rw [stack]; exact List.mem_cons_self)
  rcases fair with ⟨plain, -⟩ | ⟨m', p', same, tame, ran, -⟩
  · contradiction
  · cases same
    have same := Config.outstanding_machine trace stack signal
    have own := does.own owning.sound.own (owning.sound.ran m g.id ran)
    obtain ⟨made, makes, numbers, more, counts⟩ := does.counts owning.sound.own
      (owning.sound.ran m g.id ran) owning.requests fun q asked =>
        handed.pushed q (Config.pushed?_machine stack signal ▸ asked)
    refine ⟨made, ?_, ?_, by simp, .inl fun x => ?_, Nat.le_trans more after.numbers⟩
    · intro P
      rw [same, after.owned own]
      exact counts P
    · rcases makes with none_made | ⟨u, rfl, rfl, v, value, given⟩
      · exact .inl none_made
      · have less := numbers (by simp)
        refine .inr ⟨u, _, rfl, ?_, rfl, Nat.lt_of_lt_of_le less after.numbers⟩
        rw [Config.framed?_machine stack signal]
        rcases value with rfl | rfl <;> exact given
    · simp [keeps]

theorem gains (owning : Owning trace c) (seated : Seated trace c) (handed : Handed trace c)
    (shift : Shift c d) : ∃ made handlers, Gains trace c d made handlers := by
  cases shift with
  | quiet after idle unmade keeps =>
      exact ⟨_, _, owning.gains_quiet after (Trace.outstanding_of_none (Config.pushed?_of_idle idle) unmade) keeps⟩
  | takes k after idle made keeps =>
      exact ⟨_, _, owning.gains_takes k after (Config.pushed?_of_idle idle) made keeps⟩
  | makes owner framed after idle unmade proper keeps =>
      exact ⟨_, _, owning.gains_makes owner framed after
        (Trace.outstanding_of_none (Config.pushed?_of_idle idle) unmade) proper keeps⟩
  | machine stack signal does after keeps =>
      obtain ⟨made, gains⟩ := owning.gains_machine seated handed stack signal does after keeps
      exact ⟨made, [], gains⟩

/-- The keys that a step adds are new: no frame has the number, and no frame held the generator. -/
theorem holds_of_gains (owning : Owning trace c) (handed : Handed trace c) {made handlers : List Val}
    (gains : Gains trace c d made handlers) (x : Key) :
    d.holds (c :: trace) x ≤ c.holds trace x ∨
      (c.holds trace x = 0 ∧ d.holds (c :: trace) x ≤ 1 ∧
        ((x = .frame c.world.store.nextId ∧ c.world.store.nextId < d.world.store.nextId) ∨
          ∃ g, x = .gen g.id ∧ c.framed? = some g)) := by
  have counts := gains.counts x.within
  have unused : c.holds trace (.frame c.world.store.nextId) = 0 := by
    by_contra some_held
    exact Nat.lt_irrefl _ (owning.tags _ (Nat.pos_of_ne_zero some_held))
  unfold Config.holds at unused ⊢
  rcases gains.reserve with fewer | ⟨rfl, rfl, reserve, numbers⟩
  · have kept := fewer x
    rcases gains.new with rfl | ⟨g, t, rfl, framed, tag, numbers⟩
    · rw [List.countP_nil] at counts
      exact .inl (by omega)
    · rw [List.countP_singleton] at counts
      by_cases within : x.within (.frame (.generator (.gen g) t)) = true
      · rw [if_pos within] at counts
        have here : x = .frame t.id ∨ x = .gen g.id := by
          simpa [Key.within, Val.keys] using within
        rcases here with rfl | rfl
        · rw [tag] at counts kept ⊢
          exact .inr ⟨unused, by omega, .inl ⟨rfl, numbers⟩⟩
        · have unheld : c.holds trace (.gen g.id) = 0 := by
            by_contra some_held
            exact handed.framed g framed (owning.gens _ (Nat.pos_of_ne_zero some_held))
          unfold Config.holds at unheld
          exact .inr ⟨unheld, by omega, .inr ⟨g, rfl, framed⟩⟩
      · rw [if_neg within] at counts
        exact .inl (by omega)
  · simp only [List.countP_nil] at counts
    rw [reserve, List.count_cons]
    by_cases here : x = .frame c.world.store.nextId
    · subst here
      refine .inr ⟨unused, ?_, .inl ⟨rfl, numbers⟩⟩
      simp only [beq_self_eq_true, if_true]
      omega
    · have other : (Key.frame c.world.store.nextId == x) = false := by
        simpa using Ne.symm here
      rw [other]
      exact .inl (by simpa using by omega)

theorem step (owning : Owning trace c) (seated : Seated trace c) (handed : Handed trace c)
    (stepped : c.step = .ok d) : Owning (c :: trace) d := by
  have moves := Config.moves_step stepped
  have shift := Config.shift_step seated handed.toGenuine (owning.sound.turning seated) moves
  obtain ⟨made, handlers, gains⟩ := owning.gains seated handed shift
  have grows := (Config.takes_step stepped).grows
  exact {
    sound := owning.sound.step seated handed.toGenuine shift
    once := by
      intro x
      have before := owning.once x
      rcases owning.holds_of_gains handed gains x with kept | ⟨-, one, -⟩
      · omega
      · exact one
    tags := by
      intro i held
      rcases owning.holds_of_gains handed gains (.frame i) with kept | ⟨-, -, ⟨same, less⟩ | ⟨g, other, -⟩⟩
      · exact Nat.lt_of_lt_of_le (owning.tags i (by omega)) gains.numbers
      · cases same
        exact less
      · contradiction
    gens := by
      intro i held
      rcases owning.holds_of_gains handed gains (.gen i) with kept | ⟨-, -, ⟨other, -⟩ | ⟨g, same, framed⟩⟩
      · exact Trace.framed_cons (owning.gens i (by omega))
      · contradiction
      · cases same
        exact Trace.framed_here framed
    requests := by
      intro q mem
      refine Nat.lt_of_lt_of_le ?_ grows
      rcases Trace.mem_outstanding_cons mem with requested | before
      · exact Store.lt_of_pending (Config.requested?_eq_some requested).2
      · exact owning.requests q before }

end Owning

theorem Owning.of_fresh {c : Config G} (fresh : c.Fresh) : Owning [] c := by
  have none_owned : c.world.store.owned [] = [] := by
    simp [Store.owned, fresh.conts, fresh.machines]
  have none_held (x : Key) : c.holds [] x = 0 := by
    simp [Config.holds, Trace.outstanding, none_owned, fresh.stack, reserved]
  refine ⟨.of_fresh fresh, ?_, ?_, ?_, ?_⟩
  · exact fun x => by simp [none_held x]
  · exact fun i held => by simp [none_held] at held
  · exact fun i held => by simp [none_held] at held
  · simp [Trace.outstanding]

/-- Frames that are held at most once make no duplicates. -/
theorem Owning.once_owned {trace : Trace G} {c : Config G} (owning : Owning trace c) :
    Linear trace c where
  proper v mem := by
    rcases List.mem_append.1 mem with held | asked
    · rcases List.mem_append.1 held with stacked | pending
      · obtain ⟨m, -, here⟩ := List.mem_flatMap.1 stacked
        exact owning.sound.onStacks m v here
      · obtain ⟨i, -, here⟩ := List.mem_flatMap.1 pending
        exact owning.sound.slices ⟨i, false⟩ v (Store.frames_of_pending here)
    · obtain ⟨q, -, here⟩ := List.mem_flatMap.1 asked
      exact owning.sound.slices q.2 v here
  once := by
    rw [List.nodup_iff_count]
    intro x
    have once := owning.once x
    rw [count_keys]
    unfold Config.holds at once
    omega

/-- A frame or a generator is on the stack of one machine. -/
theorem Owning.unique (owning : Owning trace c) {x : Key} {m n : Nat}
    (hm : m < c.world.store.machines.size) (hn : n < c.world.store.machines.size)
    (first : x ∈ (c.world.store.stack m).flatMap Val.keys)
    (second : x ∈ (c.world.store.stack n).flatMap Val.keys) : m = n := by
  have once := owning.once_owned.once
  rw [Store.owned, List.append_assoc, List.flatMap_append] at once
  have once := (List.nodup_append.1 once).1
  rw [List.flatMap_assoc, List.nodup_flatMap] at once
  by_contra ne
  have symmetric : Std.Symm (Function.onFun List.Disjoint
      fun i => (c.world.store.stack i).flatMap Val.keys) :=
    ⟨fun _ _ apart _ first second => apart second first⟩
  exact once.2.forall (List.mem_range.2 hm) (List.mem_range.2 hn) ne first second

/-- So it is on that stack once. -/
theorem Owning.once_stacked (owning : Owning trace c) {m : Nat}
    (inside : m < c.world.store.machines.size) :
    ((c.world.store.stack m).flatMap Val.keys).Nodup := by
  have once := owning.once_owned.once
  rw [Store.owned, List.append_assoc, List.flatMap_append] at once
  have once := (List.nodup_append.1 once).1
  rw [List.flatMap_assoc, List.nodup_flatMap] at once
  exact once.1 m (List.mem_range.2 inside)

/-- What is on the stack of a machine is in no slice that is pending or asked for. -/
theorem Owning.apart (owning : Owning trace c) {x : Key} {m : Nat}
    (inside : m < c.world.store.machines.size)
    (here : x ∈ (c.world.store.stack m).flatMap Val.keys) {k : Cont}
    (there : c.world.store.isTaken k = false ∨ ∃ q ∈ trace.outstanding, q.2 = k) :
    x ∉ (c.world.store.frames k).flatMap Val.keys := by
  intro slice
  have once := owning.once_owned.once
  rw [Store.owned, List.append_assoc, List.flatMap_append] at once
  have stacked : x ∈ ((List.range c.world.store.machines.size).flatMap
      c.world.store.stack).flatMap Val.keys := by
    rw [List.flatMap_assoc]
    exact List.mem_flatMap.2 ⟨m, List.mem_range.2 inside, here⟩
  obtain ⟨v, mem, key⟩ := List.mem_flatMap.1 slice
  refine (List.nodup_append.1 once).2.2 x stacked x (List.mem_flatMap.2 ⟨v, ?_, key⟩) rfl
  rcases there with pending | ⟨q, asked, rfl⟩
  · have known : k.index < c.world.store.conts.size := Store.lt_of_pending pending
    refine List.mem_append_left _ (List.mem_flatMap.2 ⟨k.index, List.mem_range.2 known, ?_⟩)
    rwa [Store.pending_of_pending pending]
  · exact List.mem_append_right _ (List.mem_flatMap.2 ⟨q, asked, mem⟩)

end OneShot
