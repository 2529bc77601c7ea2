import OneShot.Proofs.Frames.Seats

/-!
# Shifts of frames

What one step does to the frames that there are.  Most steps leave the engine
alone; a call may take a continuation, a driver or a handler that is applied
makes a machine, and a machine does what machines do with their stacks.
-/

namespace OneShot

open Store (Quietly)

variable {G : Guest}

/-! ## Tags in reserve -/

/-- The tag of a handler frame that is not on a stack yet. -/
def Activation.tag? : Activation G → Option Tag
  | .calling (.library p) => p.tag?
  | _ => none

/-- The frames that handlers have made for themselves before their machines are there. -/
def reserved (stack : List (Activation G)) : List Key :=
  stack.filterMap fun a => a.tag?.map fun t => .frame t.id

theorem reserved_cons (a : Activation G) (stack : List (Activation G)) :
    reserved (a :: stack) = (a.tag?.map fun t => Key.frame t.id).toList ++ reserved stack := by
  unfold reserved
  rw [List.filterMap_cons]
  cases a.tag?.map fun t => Key.frame t.id <;> rfl

theorem reserved_cons_of_none {a : Activation G} (h : a.tag? = none)
    (stack : List (Activation G)) : reserved (a :: stack) = reserved stack := by
  simp [reserved_cons, h]

/-- What is in reserve after a step was so before, or is a tag that the step has made. -/
def Config.Keeps (c d : Config G) : Prop :=
  (∀ x, (reserved d.stack).count x ≤ (reserved c.stack).count x) ∨
    (reserved d.stack = .frame c.world.store.nextId :: reserved c.stack ∧
      c.world.store.nextId < d.world.store.nextId)

/-! ## Plain processes -/

/-- A handler frame of the library. -/
def Val.IsHandler (v : Val) : Prop := ∃ h t, v = .frame (.handler (.handler h) t)

theorem length_handlers {handlers : List Val} (proper : ∀ v ∈ handlers, v.IsHandler) :
    (handlers.flatMap Val.keys).length = handlers.length := by
  induction handlers with
  | nil => rfl
  | cons v rest ih =>
      obtain ⟨h, t, rfl⟩ := proper v List.mem_cons_self
      rw [List.flatMap_cons, List.length_append, ih fun w mem => proper w (List.mem_cons_of_mem _ mem),
        List.length_cons, Nat.add_comm]
      rfl

/-- A plain process leaves the engine alone, or makes a machine. -/
theorem Process.plain_shift {q : Process} (plain : q.plain) (s : Store) (r : Reply) :
    Quietly s (q.step s r).1 ∨ ∃ g handlers owner, q.framed? r = some g ∧
      (q.step s r).1 = (s.freshTag.1.newMachine
        (.own (.frame (.generator (.gen g) s.freshTag.2) :: handlers)) owner).1 ∧
      (∀ v ∈ handlers, v.IsHandler) ∧
      ((handlers = [] ∧ q.tag? = none) ∨ (∃ t, q.tag? = some t ∧
        handlers.flatMap Val.keys = [.frame t.id] ∧ ∃ a, (q.step s r).2 = .ask a .passing)) := by
  cases still : q.moves with
  | false => exact .inl (quiet_step still s r)
  | true =>
      cases q with
      | machine m p => contradiction
      | execute p =>
          cases p <;> first | contradiction | skip
          cases r with
          | value v =>
              cases v <;> first
                | exact .inl (.refl s)
                | exact .inr ⟨_, [], _, rfl, rfl, by simp, .inl ⟨rfl, rfl⟩⟩
          | yielded v => exact .inl (.refl s)
          | raised x => exact .inl (.refl s)
      | executeAsync p =>
          cases p <;> first | contradiction | skip
          cases r with
          | value v =>
              cases v <;> first
                | exact .inl (.refl s)
                | exact .inr ⟨_, [], _, rfl, rfl, by simp, .inl ⟨rfl, rfl⟩⟩
          | yielded v => exact .inl (.refl s)
          | raised x => exact .inl (.refl s)
      | applied h t =>
          cases r with
          | value v =>
              cases v <;> first
                | exact .inl (.refl s)
                | exact .inr ⟨_, [.frame (.handler (.handler h) t)], _, rfl, rfl,
                    by simp [Val.IsHandler], .inr ⟨t, rfl, rfl, _, rfl⟩⟩
          | yielded v => exact .inl (.refl s)
          | raised x => exact .inl (.refl s)
      | collecting g seen p => cases p <;> contradiction
      | collected vs p => cases p <;> contradiction
      | _ => contradiction

/-! ## Steps -/

/-- What one step does to the frames. -/
inductive Shift (c d : Config G) : Prop
  | quiet (after : Quietly c.world.store d.world.store) (idle : c.stepped? = none)
      (unmade : c.requested? = none) (keeps : c.Keeps d) : Shift c d
  | takes (k : Cont) (after : Quietly (c.world.store.take k).1 d.world.store)
      (idle : c.stepped? = none) (made : ∀ q, c.requested? = some q → q.2 = k)
      (keeps : c.Keeps d) : Shift c d
  | makes {g : Gen} {handlers : List Val} (owner : Val) (framed : c.framed? = some g)
      (after : Quietly (c.world.store.freshTag.1.newMachine
        (.own (.frame (.generator (.gen g) c.world.store.freshTag.2) :: handlers)) owner).1
        d.world.store)
      (idle : c.stepped? = none) (unmade : c.requested? = none)
      (proper : ∀ v ∈ handlers, v.IsHandler)
      (keeps : ∀ x, (reserved d.stack).count x + (handlers.flatMap Val.keys).count x ≤
        (reserved c.stack).count x) (few : handlers.length ≤ 1) : Shift c d
  | machine {m : Nat} {p : Machine.Phase} {r : Reply} {g : Gen} {rest : List (Activation G)}
      {t : Store} {moved : Turn Machine.Phase}
      (stack : c.stack = .running g (.library (.machine m p)) :: rest)
      (signal : c.signal = .reply r) (does : Machine.Does c.world.store m p r t moved)
      (after : Quietly t d.world.store) (keeps : reserved d.stack = reserved c.stack) : Shift c d

theorem Signal.taken?_of_request {signal : Signal} {r : Request} (h : signal.request? = some r) :
    signal.taken? = some r.cont := by
  unfold taken?
  split
  · contradiction
  · rw [h]
    rfl

namespace Config

variable {c d : Config G}

theorem stepped?_of_process {a : Activation G} {w : World G} {stack : List (Activation G)}
    {r : Reply} (h : a.machine? = none) : stepped? ⟨w, a :: stack, .reply r⟩ = none := by
  simp [stepped?, h]

/-- Only machines receive anything. -/
theorem pushed?_of_idle (h : c.stepped? = none) : c.pushed? = none := by
  obtain ⟨w, stack, signal⟩ := c
  cases stack with
  | nil => rfl
  | cons a rest =>
      cases signal with
      | reply r =>
          have none_here : a.machine? = none := Option.map_eq_none_iff.1 h
          simp [pushed?, received?, none_here]
      | _ => rfl

theorem machine?_of_process {a : Activation G} {q : Process} (h : a.process? = some q)
    (plain : q.plain) : a.machine? = none := by
  cases a with
  | calling p =>
      cases p with
      | guest b => rfl
      | library q' =>
          cases h
          cases q <;> first | rfl | contradiction
  | running g p =>
      cases p with
      | guest b => rfl
      | library q' =>
          cases h
          cases q <;> first | rfl | contradiction
  | _ => rfl

theorem keeps_of_eq (h : reserved d.stack = reserved c.stack) : c.Keeps d :=
  .inl fun x => Nat.le_of_eq (by rw [h])

/-- A call takes what it says, and pushes nothing. -/
theorem shift_call {w : World G} {stack : List (Activation G)} {f : Val} {args : List Val}
    {caller : Caller} (unbuilt : (Signal.call f args caller).builds = false)
    (calls : (Signal.call f args caller).Calls w.store d.world.store)
    (keeps : Keeps ⟨w, stack, .call f args caller⟩ d) :
    Shift ⟨w, stack, .call f args caller⟩ d := by
  have idle : stepped? ⟨w, stack, .call f args caller⟩ = none := by
    cases stack <;> rfl
  unfold Signal.Calls at calls
  cases taken : (Signal.call f args caller).taken? with
  | some k =>
      rw [taken] at calls
      refine .takes k calls idle (fun q made => ?_) keeps
      obtain ⟨⟨r, request, same⟩, -⟩ := requested?_eq_some made
      rw [Signal.taken?_of_request request] at taken
      rw [← same]
      exact Option.some.inj taken
  | none =>
      rw [taken] at calls
      refine .quiet (calls unbuilt) idle ?_ keeps
      cases made : requested? ⟨w, stack, .call f args caller⟩ with
      | none => rfl
      | some q =>
          obtain ⟨⟨r, request, -⟩, -⟩ := requested?_eq_some made
          rw [Signal.taken?_of_request request] at taken
          contradiction

/-- A step that concerns neither the engine nor what is in reserve. -/
theorem shift_quiet (after : Quietly c.world.store d.world.store)
    (idle : c.stepped? = none) (unmade : c.requested? = none)
    (same : reserved d.stack = reserved c.stack) : Shift c d :=
  .quiet after idle unmade (keeps_of_eq same)

section Turns

variable {trace : Trace G} {w v : World G} {stack : List (Activation G)} {p : Routine G}
  {r : Reply} {turn : Turn (Routine G)}

/-- What is left of the topmost activation after a turn of its routine, if anything. -/
inductive Left (p : Routine G) (turn : Turn (Routine G)) :
    List (Activation G) → List (Activation G) → Prop
  | none (stack : List (Activation G)) : Left p turn stack stack
  | untagged {b : Activation G} (stack : List (Activation G)) (h : b.tag? = .none) :
      Left p turn stack (b :: stack)
  | same {q : Process} (stack : List (Activation G))
      (next : turn.next? = some (.library q)) :
      Left p turn stack (.calling (.library q) :: stack)

theorem Left.keeps {stack' : List (Activation G)} (h : Left p turn stack stack')
    (a : Activation G) (tags : ∀ q, turn.next? = some (.library q) →
      q.tag? = .none ∨ q.tag? = a.tag?) (x : Key) :
    (reserved stack').count x ≤ (reserved (a :: stack)).count x := by
  cases h with
  | none => rw [reserved_cons, List.count_append]; omega
  | untagged _ h =>
      rw [reserved_cons_of_none h, reserved_cons, List.count_append]
      omega
  | @same q _ next =>
      rw [reserved_cons, reserved_cons, List.count_append, List.count_append]
      rcases tags q next with none_tagged | same
      · simp [Activation.tag?, none_tagged]
      · simp [Activation.tag?, same]

theorem Left.reserved {stack' : List (Activation G)} (h : Left p turn stack stack')
    (tags : ∀ q, turn.next? = some (.library q) → q.tag? = .none) :
    reserved stack' = OneShot.reserved stack := by
  cases h with
  | none => rfl
  | untagged _ h => exact reserved_cons_of_none h _
  | @same q _ next =>
      have untagged : (Activation.calling (.library q) : Activation G).tag? = Option.none :=
        tags q next
      exact reserved_cons_of_none untagged _

/-- A turn of a routine that is no machine. -/
theorem shift_plain {q : Process} {a : Activation G} (plain : q.plain) (tagged : q.tag? = a.tag?)
    (process : a.process? = some q)
    (stepped : (Routine.library q).step w r = (v, turn))
    (after : Quietly v.store d.world.store) (left : Left (.library q) turn stack d.stack) :
    Shift ⟨w, a :: stack, .reply r⟩ d := by
  have no_machine := machine?_of_process process plain
  have idle : stepped? ⟨w, a :: stack, .reply r⟩ = none := stepped?_of_process no_machine
  have keeps := left.keeps a fun q' next => by
    obtain ⟨q'', same, made⟩ := Routine.next_library stepped next
    cases same
    rw [← tagged]
    exact (Process.plain_step plain made).2
  rw [Routine.step_library] at stepped
  obtain ⟨rfl, rfl⟩ := Prod.mk.inj stepped
  rcases Process.plain_shift plain w.store r with quiet | ⟨g, handlers, owner, framed, made, proper, held⟩
  · exact .quiet (quiet.trans after) idle rfl (.inl keeps)
  · refine .makes owner ?_ (made ▸ after) idle rfl proper (fun x => ?_) ?_
    rotate_left 2
    · rw [← length_handlers proper]
      rcases held with ⟨rfl, -⟩ | ⟨t, -, keys, -⟩
      · simp
      · simp [keys]
    · simp [framed?, process, framed]
    · rcases held with ⟨rfl, -⟩ | ⟨t, same, keys, a', asks⟩
      · exact keeps x
      · have whole : reserved (a :: stack) = .frame t.id :: reserved stack := by
          simp [reserved_cons, ← tagged, same]
        have rest := left.reserved fun q' next => by
          obtain ⟨q'', made, same⟩ := Turn.next?_map next
          rw [asks] at made
          cases made
          cases same
          rfl
        rw [keys, rest, whole, List.count_cons, List.count_cons]
        simp

theorem shift_turn (seat : Option Gen)
    (turning : Config.Turning ⟨w, .of seat p :: stack, .reply r⟩)
    (fair : (Activation.of seat p).Fair trace) (stepped : p.step w r = (v, turn))
    (after : Quietly v.store d.world.store) (left : Left p turn stack d.stack) :
    Shift ⟨w, .of seat p :: stack, .reply r⟩ d := by
  cases p with
  | guest b =>
      have untagged : (Activation.of seat (.guest b) : Activation G).tag? = none := by
        cases seat <;> rfl
      have no_machine : (Activation.of seat (.guest b) : Activation G).machine? = none := by
        cases seat <;> rfl
      have same := left.reserved fun q next => by
        obtain ⟨b', same⟩ := Routine.next_guest stepped next
        contradiction
      cases stepped
      refine shift_quiet after (stepped?_of_process no_machine) rfl ?_
      rw [same, reserved_cons_of_none untagged]
  | library q =>
      cases seat with
      | none => exact shift_plain fair rfl rfl stepped after left
      | some g =>
          rcases fair with ⟨plain, untagged⟩ | ⟨m, phase, same, -⟩
          · exact shift_plain plain untagged rfl stepped after left
          · cases same
            obtain ⟨t, moved, does, rfl, rfl⟩ := turning.does stepped
            refine .machine rfl rfl does after ?_
            rw [left.reserved, reserved_cons_of_none rfl]
            intro q next
            obtain ⟨q', made, same⟩ := Turn.next?_map next
            cases same
            obtain ⟨phase', -, rfl⟩ := Turn.next?_map made
            rfl

end Turns

/-- What a step does to the frames, of whatever kind it is. -/
theorem shift_step {trace : Trace G} (seated : Seated trace c) (genuine : Genuine trace c)
    (turning : c.Turning) (moves : Moves c d) : Shift c d := by
  have idle {w : World G} {stack : List (Activation G)} {signal : Signal}
      (unreplied : ∀ r, signal ≠ .reply r) : stepped? ⟨w, stack, signal⟩ = none := by
    cases signal with
    | reply r => exact absurd rfl (unreplied r)
    | _ => cases stack <;> rfl
  cases moves with
  | answers calls => exact shift_call genuine.unbuilt calls (keeps_of_eq rfl)
  | @enters w stack f args caller store memory p calls entered =>
      refine shift_call genuine.unbuilt calls ?_
      cases p with
      | guest b => exact keeps_of_eq (reserved_cons_of_none rfl _)
      | library q =>
          obtain ⟨-, tagged⟩ := entered genuine.unbuilt
          cases tag : q.tag? with
          | none =>
              have untagged : (Activation.calling (.library q) : Activation G).tag? = none := tag
              exact keeps_of_eq (reserved_cons_of_none untagged _)
          | some u =>
              obtain ⟨fresh, more⟩ := tagged u tag
              refine .inr ⟨?_, ?_⟩
              · simp [reserved_cons, Activation.tag?, tag, fresh]
              · simp [more]
  | spawns kind name calls spawned => exact shift_call genuine.unbuilt calls (keeps_of_eq rfl)
  | forwards calls => exact shift_call genuine.unbuilt calls (keeps_of_eq rfl)
  | stays quiet unmoved => exact shift_quiet quiet (idle (by simp)) rfl rfl
  | breaks x quiet status => exact shift_quiet quiet (idle (by simp)) rfl rfl
  | begins status =>
      exact shift_quiet (.refl _) (idle (by simp)) rfl (reserved_cons_of_none rfl _)
  | resumes quiet status =>
      exact shift_quiet quiet (idle (by simp)) rfl (reserved_cons_of_none rfl _)
  | relays status =>
      exact shift_quiet (.refl _) (idle (by simp)) rfl (reserved_cons_of_none rfl _)
  | exits x status =>
      exact shift_quiet (.refl _) (idle (by simp)) rfl (reserved_cons_of_none rfl _)
  | spares quiet final => exact shift_quiet quiet (idle (by simp)) rfl rfl
  | discards status => exact shift_quiet (.refl _) (idle (by simp)) rfl rfl
  | interrupts x quiet status =>
      refine shift_quiet quiet (idle (by simp)) rfl ?_
      exact (reserved_cons_of_none rfl _).trans (reserved_cons_of_none rfl _)
  | pursues x quiet status =>
      refine shift_quiet quiet (idle (by simp)) rfl ?_
      exact (reserved_cons_of_none rfl _).trans (reserved_cons_of_none rfl _)
  | @goes w v seat p p' r turn store signal stack stepped answer =>
      have fair := seated.stack _ List.mem_cons_self
      have after : Quietly v.store store := by
        cases answer with
        | refused x quiet unfit => exact quiet
        | _ => exact .refl _
      refine shift_turn seat turning fair stepped after ?_
      cases seat with
      | some g => exact .untagged stack rfl
      | none =>
          cases p' with
          | guest b => exact .untagged stack rfl
          | library q => exact .same stack answer.next?
  | @delegates w v stack g d p p' r a stepped passes =>
      exact shift_turn (some g) turning (seated.stack _ List.mem_cons_self) stepped (.refl _)
        (.untagged stack rfl)
  | @suspends w v stack g p p' r u how stepped =>
      exact shift_turn (some g) turning (seated.stack _ List.mem_cons_self) stepped (.refl _)
        (.none stack)
  | @ends w v stack g p r r' turn store stepped ending quiet final =>
      exact shift_turn (some g) turning (seated.stack _ List.mem_cons_self) stepped quiet
        (.none stack)
  | @returns w v stack p r r' turn store stepped ending quiet final =>
      exact shift_turn none turning (seated.stack _ List.mem_cons_self) stepped quiet
        (.none stack)
  | hands v => exact shift_quiet (.refl _) rfl rfl (reserved_cons_of_none rfl _).symm
  | regains =>
      refine shift_quiet (.refl _) (stepped?_of_process rfl) rfl ?_
      exact (reserved_cons_of_none rfl _).trans (reserved_cons_of_none rfl _).symm
  | closes quiet final =>
      exact shift_quiet quiet (stepped?_of_process rfl) rfl (reserved_cons_of_none rfl _).symm
  | leaves y =>
      refine shift_quiet (.refl _) (stepped?_of_process rfl) rfl ?_
      exact (reserved_cons_of_none rfl _).trans (reserved_cons_of_none rfl _).symm

end Config
end OneShot
