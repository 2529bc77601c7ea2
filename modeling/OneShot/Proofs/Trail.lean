import OneShot.Proofs.Threads

/-!
# Trails

Whoever calls, resumes or throws into a continuation gets a generator that asks
for its resumption; the frames are pushed when a machine receives that request.
A machine that dispatches a resend captures the frames of the continuation that
came with it once more, in a continuation of its own.  The trail of a
continuation is the list of all that its frames pass through in this way.  Main
statement: only the last one of a trail is ever requested, and at most once.
-/

namespace OneShot

variable {G : Guest}

/-- What asks to continue a continuation: its number, and the continuation. -/
def Val.resumed? : Val → Option (Nat × Cont)
  | .resumption id ⟨.cont k, _, _⟩ => some (id, k)
  | _ => Option.none

namespace Config

/-- The request whose frames the next step pushes onto a stack. -/
def pushed? (c : Config G) : Option (Nat × Cont) := c.received?.bind Val.resumed?

/-- The request that the next step makes. -/
def requested? (c : Config G) : Option (Nat × Cont) :=
  c.signal.request?.bind fun r =>
    if c.world.store.isTaken r.cont then none else some (c.world.store.nextId, r.cont)

theorem requested?_eq_some {c : Config G} {q : Nat × Cont} (h : c.requested? = some q) :
    (∃ r, c.signal.request? = some r ∧ r.cont = q.2) ∧ c.world.store.isTaken q.2 = false := by
  simp only [requested?, Option.bind_eq_some_iff] at h
  obtain ⟨r, made, h⟩ := h
  split at h
  · contradiction
  · rename_i pending
    cases h
    exact ⟨⟨r, made, rfl⟩, by simpa using pending⟩

theorem attempt?_of_request {c : Config G} {r : Signal.Request}
    (h : c.signal.request? = some r) : c.received? = none ∧ c.attempt? = some r.cont := by
  obtain ⟨w, stack, signal⟩ := c
  cases signal with
  | call f args caller =>
      have taken : (Signal.call f args caller).taken? = some r.cont := by
        unfold Signal.taken?
        split
        · rename_i same
          cases same
          contradiction
        · exact congrArg (Option.map _) h
      rw [attempt?_call]
      refine ⟨?_, taken⟩
      cases stack <;> rfl
  | _ => contradiction

end Config

namespace Move

/-- The continuation in which the step captures the frames of a resent one again. -/
def rehandled? (k : Cont) (m : Move G) : Option Cont :=
  (m.before.received?.bind Val.resent?).bind fun j =>
    if j.index = k.index ∧ m.before.world.store.isTaken j = false ∧
        m.before.world.store.conts.size < m.after.world.store.conts.size then
      some ⟨m.before.world.store.conts.size, true⟩
    else none

/-- All continuations that the frames of a continuation pass through, itself first. -/
def trail (k : Cont) : List (Move G) → List Cont
  | [] => [k]
  | m :: moves =>
      match m.rehandled? k with
      | some j => k :: trail j moves
      | none => trail k moves

/-- The requests that are made for some of the given continuations. -/
def requests (ks : List Cont) (moves : List (Move G)) : List (Nat × Cont) :=
  (moves.filterMap (·.before.requested?)).filter fun q => ks.any (·.index == q.2.index)

/-- The requests for some of the given continuations that machines receive. -/
def pushes (ks : List Cont) (moves : List (Move G)) : List (Nat × Cont) :=
  (moves.filterMap (·.before.pushed?)).filter fun q => ks.any (·.index == q.2.index)

theorem rehandled?_eq_some {k j : Cont} {m : Move G} (h : m.rehandled? k = some j) :
    ∃ i, m.before.received?.bind Val.resent? = some i ∧ i.index = k.index ∧
      m.before.world.store.isTaken i = false ∧
      m.before.world.store.conts.size < m.after.world.store.conts.size ∧
      j = ⟨m.before.world.store.conts.size, true⟩ := by
  simp only [rehandled?, Option.bind_eq_some_iff] at h
  obtain ⟨i, received, h⟩ := h
  split at h
  · rename_i made
    cases h
    exact ⟨i, Option.bind_eq_some_iff.2 received, made.1, made.2.1, made.2.2, rfl⟩
  · contradiction

theorem rehandled?_of_isTaken {k : Cont} {m : Move G}
    (taken : m.before.world.store.isTaken k = true) : m.rehandled? k = none := by
  cases rehandled : m.rehandled? k with
  | none => rfl
  | some j =>
      obtain ⟨i, -, same, pending, -⟩ := rehandled?_eq_some rehandled
      rw [Store.isTaken_of_index same, taken] at pending
      contradiction

theorem requested?_of_rehandled {k j : Cont} {m : Move G} (h : m.rehandled? k = some j) :
    m.before.requested? = none := by
  obtain ⟨i, received, -⟩ := rehandled?_eq_some h
  cases made : m.before.requested? with
  | none => rfl
  | some q =>
      obtain ⟨⟨r, request, -⟩, -⟩ := Config.requested?_eq_some made
      rw [(Config.attempt?_of_request request).1] at received
      contradiction

/-- What was captured again is pending, and begins with the frames of what was taken for it. -/
theorem frames_rehandled {k j : Cont} {m : Move G} (stepped : m.before.step = .ok m.after)
    (h : m.rehandled? k = some j) :
    m.after.world.store.isTaken k = true ∧ m.after.world.store.isTaken j = false ∧
      ∃ below, m.after.world.store.frames j = m.before.world.store.frames k ++ below := by
  obtain ⟨i, received, same, pending, more, rfl⟩ := rehandled?_eq_some h
  have size_take : (m.before.world.store.take i).1.conts.size =
      m.before.world.store.conts.size := by
    unfold Store.take
    split
    · rfl
    · simp
  rcases Config.conts_of_dispatch stepped received pending with none_made | ⟨frames, made⟩
  · rw [none_made, size_take] at more
    omega
  · have last : m.after.world.store.conts[m.before.world.store.conts.size]? =
        some ⟨m.before.world.store.frames i ++ frames, some (.cont i), false⟩ := by
      rw [made, ← size_take]
      exact Array.getElem?_push_size
    have attempt : m.before.attempt? = some i := by simp [Config.attempt?, received]
    have taking := (Config.takes_step stepped).taken k (same ▸ Store.lt_of_pending pending)
    refine ⟨by simp [taking, attempt, same], ?_, frames, ?_⟩
    · simp [Store.isTaken, last]
    · simp [Store.frames, last, same]

end Move

/-! ## Requests along a trail -/

namespace Move

variable {ks : List Cont} {k : Cont} {m : Move G} {moves : List (Move G)}

theorem requests_cons_of_none (h : m.before.requested? = none) :
    requests ks (m :: moves) = requests ks moves := by
  simp [requests, h]

theorem requests_cons_of_some {q : Nat × Cont} (h : m.before.requested? = some q) :
    requests ks (m :: moves) =
      if ks.any (·.index == q.2.index) then q :: requests ks moves else requests ks moves := by
  simp [requests, h, List.filter_cons]

/-- What is not requested may be left out. -/
theorem requests_of_unrequested
    (h : ∀ m ∈ moves, ∀ q, m.before.requested? = some q → q.2.index ≠ k.index) :
    requests (k :: ks) moves = requests ks moves := by
  refine List.filter_congr fun q mem => ?_
  obtain ⟨m, here, made⟩ := List.mem_filterMap.1 mem
  have other := h m here q made
  simp [Ne.symm other]

theorem mem_trail_self (k : Cont) (moves : List (Move G)) : k ∈ trail k moves := by
  induction moves with
  | nil => simp [trail]
  | cons m moves ih =>
      simp only [trail]
      split
      · exact List.mem_cons_self
      · exact ih

theorem requests_nil : requests [] moves = [] := by
  simp [requests]

end Move


namespace History

variable {s t : Store} {k : Cont} {moves : List (Move G)}

/-- What is taken is not requested any more, and its frames are not captured again. -/
theorem requested?_of_isTaken (h : History s moves t) (here : k.index < s.conts.size)
    (taken : s.isTaken k = true) :
    Move.trail k moves = [k] ∧
      ∀ m ∈ moves, m.rehandled? k = none ∧
        ∀ q, m.before.requested? = some q → q.2.index ≠ k.index := by
  induction h with
  | nil s => exact ⟨rfl, by simp⟩
  | @cons s t m moves same stepped rest ih =>
      rw [← Store.isTaken_of_conts same] at taken
      rw [← same] at here
      have grows := (Config.takes_step stepped).grows
      obtain ⟨alone, later⟩ := ih (by omega) (Move.isTaken_of_isTaken stepped taken here)
      have unmoved := Move.rehandled?_of_isTaken taken
      refine ⟨by simp [Move.trail, unmoved, alone], ?_⟩
      intro n mem
      rcases List.mem_cons.1 mem with rfl | mem
      · refine ⟨unmoved, fun q made equal => ?_⟩
        have pending := (Config.requested?_eq_some made).2
        rw [Store.isTaken_of_index equal, taken] at pending
        contradiction
      · exact later n mem

/-- What a trail passes through later is new. -/
theorem le_of_mem_trail (h : History s moves t) (here : k.index < s.conts.size) {j : Cont}
    (mem : j ∈ Move.trail k moves) : j = k ∨ s.conts.size ≤ j.index := by
  induction h generalizing k with
  | nil s => exact .inl (by simpa [Move.trail] using mem)
  | @cons s t m moves same stepped rest ih =>
      have grows := (Config.takes_step stepped).grows
      rw [same] at grows
      simp only [Move.trail] at mem
      split at mem
      · rename_i i rehandled
        obtain ⟨-, -, -, -, more, rfl⟩ := Move.rehandled?_eq_some rehandled
        rw [same] at more
        rcases List.mem_cons.1 mem with rfl | mem
        · exact .inl rfl
        · refine .inr ?_
          rcases ih (by simpa [same] using more) mem with rfl | later
          · simp [same]
          · omega
      · rcases ih (by omega) mem with rfl | later
        · exact .inl rfl
        · exact .inr (by omega)

/-- A request is for something that was there before, and takes it. -/
theorem off_trail {m : Move G} (stepped : m.before.step = .ok m.after)
    (rest : History m.after.world.store moves t) (pending : m.after.world.store.isTaken k = false)
    {q : Nat × Cont} (made : m.before.requested? = some q) :
    ¬ (Move.trail k moves).any (·.index == q.2.index) := by
  obtain ⟨⟨r, request, same⟩, unasked⟩ := Config.requested?_eq_some made
  have attempt : m.before.attempt? = some q.2 := by
    rw [(Config.attempt?_of_request request).2, same]
  have here := Store.lt_of_pending unasked
  have taking := Config.takes_step stepped
  have grows := taking.grows
  have taken : m.after.world.store.isTaken q.2 = true := by
    simp [taking.taken q.2 here, attempt]
  intro on_trail
  obtain ⟨j, mem, equal⟩ := List.any_eq_true.1 on_trail
  have equal : j.index = q.2.index := by simpa using equal
  rcases rest.le_of_mem_trail (Store.lt_of_pending pending) mem with rfl | later
  · rw [Store.isTaken_of_index equal, taken] at pending
    contradiction
  · omega

/-- Along the trail of a pending continuation one request is made at most. -/
theorem length_requests_trail (h : History s moves t) (pending : s.isTaken k = false) :
    (Move.requests (Move.trail k moves) moves).length ≤ 1 := by
  induction h generalizing k with
  | nil s => simp [Move.requests]
  | @cons s t m moves same stepped rest ih =>
      rw [← Store.isTaken_of_conts same] at pending
      have here := Store.lt_of_pending pending
      have grows := (Config.takes_step stepped).grows
      simp only [Move.trail]
      split
      · rename_i j rehandled
        obtain ⟨taken, fresh, -⟩ := Move.frames_rehandled stepped rehandled
        obtain ⟨-, later⟩ := rest.requested?_of_isTaken (by omega) taken
        rw [Move.requests_cons_of_none (Move.requested?_of_rehandled rehandled),
          Move.requests_of_unrequested fun n mem => (later n mem).2]
        exact ih fresh
      · rename_i unmoved
        cases after : m.after.world.store.isTaken k with
        | true =>
            obtain ⟨alone, later⟩ := rest.requested?_of_isTaken (by omega) after
            have none_later : Move.requests [k] moves = [] := by
              rw [Move.requests_of_unrequested fun n mem => (later n mem).2, Move.requests_nil]
            rw [alone]
            cases made : m.before.requested? with
            | none => simp [Move.requests_cons_of_none made, none_later]
            | some q =>
                rw [Move.requests_cons_of_some made, none_later]
                split <;> simp
        | false =>
            have unrequested : Move.requests (Move.trail k moves) (m :: moves) =
                Move.requests (Move.trail k moves) moves := by
              cases made : m.before.requested? with
              | none => exact Move.requests_cons_of_none made
              | some q =>
                  rw [Move.requests_cons_of_some made, if_neg]
                  exact off_trail stepped rest after made
            rw [unrequested]
            exact ih after

/-- What an outer layer has captured again is not requested itself, neither before nor after. -/
theorem unrequested_of_rehandled (h : History s moves t) (pending : s.isTaken k = false)
    (outer : ∃ m ∈ moves, (m.rehandled? k).isSome) :
    ∀ m ∈ moves, ∀ q, m.before.requested? = some q → q.2.index ≠ k.index := by
  induction h with
  | nil s => simp
  | @cons s t m moves same stepped rest ih =>
      rw [← Store.isTaken_of_conts same] at pending
      have here := Store.lt_of_pending pending
      have grows := (Config.takes_step stepped).grows
      intro n mem q made equal
      cases rehandled : m.rehandled? k with
      | some j =>
          obtain ⟨taken, -⟩ := Move.frames_rehandled stepped rehandled
          obtain ⟨-, later⟩ := rest.requested?_of_isTaken (by omega) taken
          rcases List.mem_cons.1 mem with rfl | mem
          · rw [Move.requested?_of_rehandled rehandled] at made
            contradiction
          · exact (later n mem).2 q made equal
      | none =>
          obtain ⟨o, mem', later⟩ := outer
          have mem' : o ∈ moves := by
            rcases List.mem_cons.1 mem' with rfl | mem'
            · rw [rehandled] at later
              contradiction
            · exact mem'
          cases after : m.after.world.store.isTaken k with
          | true =>
              obtain ⟨-, unmoved⟩ := rest.requested?_of_isTaken (by omega) after
              rw [(unmoved o mem').1] at later
              contradiction
          | false =>
              rcases List.mem_cons.1 mem with rfl | mem
              · refine off_trail stepped rest after made (List.any_eq_true.2 ⟨k, ?_, ?_⟩)
                · exact Move.mem_trail_self k moves
                · simp [equal]
              · exact ih after ⟨o, mem', later⟩ n mem q made equal

theorem step_of_mem (h : History s moves t) {m : Move G} (mem : m ∈ moves) :
    m.before.step = .ok m.after := by
  induction h with
  | nil s => contradiction
  | cons same stepped rest ih =>
      rcases List.mem_cons.1 mem with rfl | mem
      · exact stepped
      · exact ih mem

end History

/-! ## The law -/

/--
No request for one of the given continuations is received twice, and none that
was made by hand.
-/
structure Honest (ks : List Cont) (moves : List (Move G)) : Prop where
  once : (Move.pushes ks moves).Nodup
  made : Move.pushes ks moves ⊆ Move.requests ks moves

namespace Honest

variable {s t : Store} {k : Cont} {moves : List (Move G)}

theorem length_pushes (honest : Honest (Move.trail k moves) moves) (h : History s moves t)
    (pending : s.isTaken k = false) : (Move.pushes (Move.trail k moves) moves).length ≤ 1 := by
  have requested : (Move.requests (Move.trail k moves) moves).length ≤ 1 :=
    h.length_requests_trail pending
  have pushed := (List.subperm_of_subset honest.once honest.made).length_le
  omega

theorem pushes_of_rehandled (honest : Honest (Move.trail k moves) moves) (h : History s moves t)
    (pending : s.isTaken k = false) (outer : ∃ m ∈ moves, (m.rehandled? k).isSome) :
    Move.pushes [k] moves = [] := by
  refine List.eq_nil_iff_forall_not_mem.2 fun q mem => ?_
  obtain ⟨received, same⟩ := List.mem_filter.1 mem
  have equal : k.index = q.2.index := by simpa using same
  have on_trail : q ∈ Move.pushes (Move.trail k moves) moves := by
    refine List.mem_filter.2 ⟨received, List.any_eq_true.2 ⟨k, ?_, by simpa using equal⟩⟩
    exact Move.mem_trail_self k moves
  obtain ⟨requested, -⟩ := List.mem_filter.1 (honest.made on_trail)
  obtain ⟨m, here, made⟩ := List.mem_filterMap.1 requested
  exact h.unrequested_of_rehandled pending outer m here q made equal.symm

end Honest

namespace Move

variable {k : Cont} {m : Move G}

/-- A request that is won is a new generator, given to whoever made it. -/
theorem spawned_of_won (stepped : m.before.step = .ok m.after) (won : m.verdict? k = some .won)
    {r : Signal.Request} (made : m.before.signal.request? = some r) :
    ∃ g, m.after.signal = .reply (.value (.gen g)) ∧ m.after.stack = m.before.stack ∧
      m.after.world.status g = .fresh (.library (.asking (.yield (.resumption
        m.before.world.store.nextId ⟨.cont r.cont, r.value, r.error⟩) .direct))) := by
  obtain ⟨j, attempt, same, -⟩ := verdict?_eq_some won
  rw [(Config.attempt?_of_request made).2] at attempt
  cases attempt
  have pending : m.before.world.store.isTaken r.cont = false := by
    rw [Store.isTaken_of_index same]
    cases taken : m.before.world.store.isTaken k with
    | false => rfl
    | true =>
        obtain ⟨lost, -⟩ := verdict_of_isTaken stepped taken won
        contradiction
  obtain ⟨thread, ⟨w, stack, signal⟩, after⟩ := m
  cases signal with
  | call f args caller =>
      cases stepped
      exact Config.call_of_pending made pending stack
  | _ => contradiction

theorem refused_of_lost (stepped : m.before.step = .ok m.after)
    (lost : m.verdict? k = some .lost) :
    ∃ j, m.before.attempt? = some j ∧ j.index = k.index ∧ m.after = m.before.refusal j := by
  cases taken : m.before.world.store.isTaken k with
  | true => exact (verdict_of_isTaken stepped taken lost).2
  | false =>
      have won := verdict_of_pending stepped taken lost
      contradiction

end Move

/--
Of all attempts to take a pending continuation, in any interleaving, the first
is won and all others are lost; it is taken from the first attempt on.  A loser
is refused and the store stays as it was.  The frames are pushed at most once,
and only from the last continuation of the trail.
-/
theorem Pool.one_shot (p : Pool G) (k : Cont) (pending : p.world.store.isTaken k = false)
    (schedule : List Nat) :
    let moves := p.moves schedule
    let trail := Move.trail k moves
    (Move.verdicts k moves = [] ∨ ∃ n, Move.verdicts k moves = .won :: List.replicate n .lost) ∧
    (p.run schedule).world.store.isTaken k = !(Move.verdicts k moves).isEmpty ∧
    (∀ m ∈ moves, m.verdict? k = some .won → ∀ r, m.before.signal.request? = some r →
      ∃ g, m.after.signal = .reply (.value (.gen g)) ∧ m.after.stack = m.before.stack ∧
        m.after.world.status g = .fresh (.library (.asking (.yield (.resumption
          m.before.world.store.nextId ⟨.cont r.cont, r.value, r.error⟩) .direct)))) ∧
    (∀ m ∈ moves, m.verdict? k = some .lost → ∃ j, m.before.attempt? = some j ∧
      j.index = k.index ∧ m.after = m.before.refusal j ∧
      m.after.world.store =
        { m.before.world.store with nextId := m.before.world.store.nextId + 1 }) ∧
    (∀ m ∈ moves, ∀ j, m.rehandled? k = some j → ∃ below,
      m.after.world.store.frames j = m.before.world.store.frames k ++ below) ∧
    (Honest trail moves → (Move.pushes trail moves).length ≤ 1 ∧
      ((∃ m ∈ moves, (m.rehandled? k).isSome) → Move.pushes [k] moves = [])) := by
  intro moves trail
  have history : History p.world.store moves (p.run schedule).world.store := p.history schedule
  have outcome := history.verdicts_of_pending pending
  refine ⟨?_, ?_, ?_, ?_, ?_, ?_⟩
  · rcases outcome with ⟨none_made, -⟩ | ⟨first, -⟩
    · exact .inl none_made
    · exact .inr first
  · rcases outcome with ⟨none_made, untaken⟩ | ⟨⟨n, first⟩, taken⟩
    · rw [none_made, untaken]
      rfl
    · rw [first, taken]
      rfl
  · intro m mem won r made
    exact Move.spawned_of_won (history.step_of_mem mem) won made
  · intro m mem lost
    obtain ⟨j, attempt, same, refused⟩ := Move.refused_of_lost (history.step_of_mem mem) lost
    refine ⟨j, attempt, same, refused, ?_⟩
    rw [refused, Config.store_refusal]
  · intro m mem j rehandled
    exact (Move.frames_rehandled (history.step_of_mem mem) rehandled).2.2
  · intro honest
    exact ⟨honest.length_pushes history pending, honest.pushes_of_rehandled history pending⟩

/-- One thread runs a computation that resumes a continuation; the other one calls it as well. -/
def Pool.racing : Pool Script.language where
  world :=
    { store := { Store.initial ⟨false, false, false, []⟩ with
        conts := #[⟨[], none, false⟩]
        machines := #[⟨.own [.frame (.generator (.gen ⟨0, .generator, "clause"⟩) ⟨0, .int 1⟩)],
          .none⟩]
        nextId := 1 }
      gens := #[.running, .running]
      memory := Script.Memory.initial }
  threads :=
    [⟨[.running ⟨0, .generator, "clause"⟩
          (.library (.entering (.call (.cont ⟨0, false⟩) [.int 7]))),
        .running ⟨1, .generator, "Machine.run"⟩
          (.library (.machine 0 (.advancing (.gen ⟨0, .generator, "clause"⟩))))],
      .reply (.value .none), false⟩,
    ⟨[], .call (.cont ⟨0, false⟩) [.int 8] .program, false⟩]

theorem Pool.one_shot_racing :
    let moves := Pool.racing.moves [0, 0, 1, 0, 0, 0, 0, 0]
    Move.verdicts ⟨0, false⟩ moves = [.won, .lost] ∧
      Move.pushes [⟨0, false⟩] moves = [(1, ⟨0, false⟩)] ∧
      (Move.pushes (Move.trail ⟨0, false⟩ moves) moves).length ≤ 1 := by
  have law := Pool.one_shot Pool.racing ⟨0, false⟩ (by decide) [0, 0, 1, 0, 0, 0, 0, 0]
  refine ⟨by decide +kernel, by decide +kernel, ?_⟩
  exact (law.2.2.2.2.2 ⟨by decide +kernel, by decide +kernel⟩).1

end OneShot
