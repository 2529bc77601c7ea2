import OneShot.Proofs.Frames.Processes

/-!
# Moves of the kernel

All that one step of the kernel can do to a configuration, said once.  Steps
differ in the signal that they act on, in the status of the generator that they
change, and in the activations that come and go.
-/

namespace OneShot

open Store (Quietly)

variable {G : Guest}

/-- The activation of a routine: of a plain function, or of the body of a generator. -/
def Activation.of : Option Gen → Routine G → Activation G
  | none, r => .calling r
  | some g, r => .running g r

/-- A reply that no suspension is. -/
def Reply.Final (r : Reply) : Prop := ∀ v, r ≠ .yielded v

/-- What a call begins in a store of its own. -/
def Routine.Entered (s t : Store) : Routine G → Prop
  | .guest _ => True
  | .library p => p.plain ∧ ∀ u, p.tag? = some u → u.id = s.nextId ∧ t.nextId = s.nextId + 1

def Routine.Spawned (signal : Signal) : Routine G → Prop
  | .guest _ => True
  | .library p => p.tag? = none ∧ (p.plain ∨ ∃ m, p = .machine m .start ∧ signal.ran? = some m)

/-- How a routine that stays in its place goes on. -/
inductive Answer (seat : Option Gen) (s : Store) :
    Turn (Routine G) → Routine G → Store → Signal → Prop
  | more (p : Routine G) : Answer seat s (.more p) p s (.reply (.value .none))
  | call (f : Val) (args : List Val) (p : Routine G) :
      Answer seat s (.ask (.call f args) p) p s (.call f args p.caller)
  | advance (h : Gen) (i : Input) (p : Routine G) :
      Answer seat s (.ask (.advance h i) p) p s (.advance h i)
  | close (h : Gen) (p : Routine G) : Answer seat s (.ask (.close h) p) p s (.close h)
  | refused {a : Ask} {p : Routine G} {t : Store} (x : Exc) (quiet : Quietly s t)
      (unfit : (∃ v how, a = .yield v how ∧ seat = none) ∨ (∃ v, a = .delegate v) ∨ ∃ v, a = .await v) :
      Answer seat s (.ask a p) p t (.reply (.raised x))

/-- Why an advance is answered without the body of the generator. -/
inductive Unmoved (w : World G) (g : Gen) : Input → Reply → Prop
  | running (i : Input) (x : Exc) (status : w.status g = .running) : Unmoved w g i (.raised x)
  | finished {r : Reply} (i : Input) (status : w.status g = .finished) (final : r.Final) :
      Unmoved w g i r
  | unstarted {v : Val} {p : Routine G} (x : Exc) (status : w.status g = .fresh p)
      (some_value : v ≠ .none) : Unmoved w g (.send v) (.raised x)
  | refused {v : Val} (x : Exc) (no_exception : ∀ y, v ≠ .exc y) :
      Unmoved w g (.throw v) (.raised x)

inductive Moves : Config G → Config G → Prop
  -- calls
  | answers {w : World G} {stack : List (Activation G)} {f : Val} {args : List Val}
      {caller : Caller} {store : Store} {memory : G.Memory} {r : Reply}
      (calls : (Signal.call f args caller).Calls w.store store) :
      Moves ⟨w, stack, .call f args caller⟩ ⟨{ w with store, memory }, stack, .reply r⟩
  | enters {w : World G} {stack : List (Activation G)} {f : Val} {args : List Val}
      {caller : Caller} {store : Store} {memory : G.Memory} {p : Routine G}
      (calls : (Signal.call f args caller).Calls w.store store)
      (entered : (Signal.call f args caller).builds = false → p.Entered w.store store) :
      Moves ⟨w, stack, .call f args caller⟩
        ⟨{ w with store, memory }, .calling p :: stack, .reply (.value .none)⟩
  | spawns {w : World G} {stack : List (Activation G)} {f : Val} {args : List Val}
      {caller : Caller} {store : Store} {memory : G.Memory} {p : Routine G}
      (kind : GenKind) (name : String)
      (calls : (Signal.call f args caller).Calls w.store store)
      (spawned : (Signal.call f args caller).builds = false →
        p.Spawned (.call f args caller)) :
      Moves ⟨w, stack, .call f args caller⟩
        ⟨(World.spawn { w with store, memory } kind name p).1, stack,
          .reply (.value (.gen ⟨w.gens.size, kind, name⟩))⟩
  | forwards {w : World G} {stack : List (Activation G)} {f f' : Val} {args args' : List Val}
      {caller caller' : Caller} {store : Store}
      (calls : (Signal.call f args caller).Calls w.store store) :
      Moves ⟨w, stack, .call f args caller⟩ ⟨{ w with store }, stack, .call f' args' caller'⟩
  -- advancing and closing
  | stays {w : World G} {stack : List (Activation G)} {g : Gen} {i : Input} {store : Store}
      {r : Reply} (quiet : Quietly w.store store) (unmoved : Unmoved w g i r) :
      Moves ⟨w, stack, .advance g i⟩ ⟨{ w with store }, stack, .reply r⟩
  | breaks {w : World G} {stack : List (Activation G)} {g : Gen} {v : Val} {store : Store}
      (x : Exc) (quiet : Quietly w.store store)
      (status : (∃ p, w.status g = .fresh p) ∨ w.status g = .finished) :
      Moves ⟨w, stack, .advance g (.throw v)⟩
        ⟨{ w.setStatus g .finished with store }, stack, .reply (.raised x)⟩
  | begins {w : World G} {stack : List (Activation G)} {g : Gen} {p : Routine G}
      (status : w.status g = .fresh p) :
      Moves ⟨w, stack, .advance g (.send .none)⟩
        ⟨w.setStatus g .running, .running g p :: stack, .reply (.value .none)⟩
  | resumes {w : World G} {stack : List (Activation G)} {g : Gen} {i : Input} {p : Routine G}
      {how : Suspension} {store : Store} {r : Reply} (quiet : Quietly w.store store)
      (status : w.status g = .suspended p how) :
      Moves ⟨w, stack, .advance g i⟩
        ⟨{ w.setStatus g .running with store }, .running g p :: stack, .reply r⟩
  | relays {w : World G} {stack : List (Activation G)} {g d : Gen} {i : Input} {p : Routine G}
      (status : w.status g = .delegating p d) :
      Moves ⟨w, stack, .advance g i⟩
        ⟨w.setStatus g .running, .relaying g p d :: stack, .advance d i⟩
  | exits {w : World G} {stack : List (Activation G)} {g d : Gen} {p : Routine G} {v : Val}
      (x : Exc) (status : w.status g = .delegating p d) :
      Moves ⟨w, stack, .advance g (.throw v)⟩
        ⟨w.setStatus g .running, .exiting g p x :: stack, .close d⟩
  | spares {w : World G} {stack : List (Activation G)} {g : Gen} {store : Store} {r : Reply}
      (quiet : Quietly w.store store) (final : r.Final) :
      Moves ⟨w, stack, .close g⟩ ⟨{ w with store }, stack, .reply r⟩
  | discards {w : World G} {stack : List (Activation G)} {g : Gen} {p : Routine G}
      (status : w.status g = .fresh p) :
      Moves ⟨w, stack, .close g⟩ ⟨w.setStatus g .finished, stack, .reply (.value .none)⟩
  | interrupts {w : World G} {stack : List (Activation G)} {g : Gen} {p : Routine G}
      {how : Suspension} {store : Store} (x : Exc) (quiet : Quietly w.store store)
      (status : w.status g = .suspended p how) :
      Moves ⟨w, stack, .close g⟩
        ⟨{ w.setStatus g .running with store }, .running g p :: .closing g :: stack,
          .reply (.raised x)⟩
  | pursues {w : World G} {stack : List (Activation G)} {g d : Gen} {p : Routine G}
      {store : Store} (x : Exc) (quiet : Quietly w.store store)
      (status : w.status g = .delegating p d) :
      Moves ⟨w, stack, .close g⟩
        ⟨{ w.setStatus g .running with store }, .exiting g p x :: .closing g :: stack, .close d⟩
  -- turns of a routine
  | goes {w v : World G} {seat : Option Gen} {p p' : Routine G} {r : Reply}
      {turn : Turn (Routine G)} {store : Store} {signal : Signal} (stack : List (Activation G))
      (stepped : p.step w r = (v, turn)) (answer : Answer seat v.store turn p' store signal) :
      Moves ⟨w, .of seat p :: stack, .reply r⟩ ⟨{ v with store }, .of seat p' :: stack, signal⟩
  | delegates {w v : World G} {stack : List (Activation G)} {g d : Gen} {p p' : Routine G}
      {r : Reply} {a : Ask} (stepped : p.step w r = (v, .ask a p'))
      (passes : (∃ u, a = .delegate u) ∨ ∃ u, a = .await u) :
      Moves ⟨w, .running g p :: stack, .reply r⟩
        ⟨v, .relaying g p' d :: stack, .advance d (.send .none)⟩
  | suspends {w v : World G} {stack : List (Activation G)} {g : Gen} {p p' : Routine G}
      {r : Reply} {u : Val} {how : Suspension} (stepped : p.step w r = (v, .ask (.yield u how) p')) :
      Moves ⟨w, .running g p :: stack, .reply r⟩
        ⟨v.setStatus g (.suspended p' how), stack, .reply (.yielded u)⟩
  | ends {w v : World G} {stack : List (Activation G)} {g : Gen} {p : Routine G}
      {r r' : Reply} {turn : Turn (Routine G)} {store : Store} (stepped : p.step w r = (v, turn))
      (ending : turn.next? = none) (quiet : Quietly v.store store) (final : r'.Final) :
      Moves ⟨w, .running g p :: stack, .reply r⟩
        ⟨{ v.setStatus g .finished with store }, stack, .reply r'⟩
  | returns {w v : World G} {stack : List (Activation G)} {p : Routine G}
      {r r' : Reply} {turn : Turn (Routine G)} {store : Store} (stepped : p.step w r = (v, turn))
      (ending : turn.next? = none) (quiet : Quietly v.store store) (final : r'.Final) :
      Moves ⟨w, .calling p :: stack, .reply r⟩ ⟨{ v with store }, stack, .reply r'⟩
  -- other activations
  | hands {w : World G} {stack : List (Activation G)} {g d : Gen} {p : Routine G} (v : Val) :
      Moves ⟨w, .relaying g p d :: stack, .reply (.yielded v)⟩
        ⟨w.setStatus g (.delegating p d), stack, .reply (.yielded v)⟩
  | regains {w : World G} {stack : List (Activation G)} {g d : Gen} {p : Routine G}
      {r r' : Reply} : Moves ⟨w, .relaying g p d :: stack, .reply r⟩ ⟨w, .running g p :: stack, .reply r'⟩
  | closes {w : World G} {stack : List (Activation G)} {g : Gen} {r r' : Reply} {store : Store}
      (quiet : Quietly w.store store) (final : r'.Final) :
      Moves ⟨w, .closing g :: stack, .reply r⟩ ⟨{ w with store }, stack, .reply r'⟩
  | leaves {w : World G} {stack : List (Activation G)} {g : Gen} {p : Routine G} {x : Exc}
      {r : Reply} (y : Exc) :
      Moves ⟨w, .exiting g p x :: stack, .reply r⟩ ⟨w, .running g p :: stack, .reply (.raised y)⟩

namespace Config

theorem moves_call (w : World G) (stack : List (Activation G)) (f : Val) (args : List Val)
    (caller : Caller) : Moves ⟨w, stack, .call f args caller⟩ (call w stack f args caller) := by
  by_cases closure : ∃ id name, f = .closure id name
  · obtain ⟨id, name, rfl⟩ := closure
    have calls (t : Store) (quiet : Quietly w.store t) :
        (Signal.call (.closure id name) args caller).Calls w.store t := fun _ => quiet
    simp only [call]
    split
    · exact .enters (calls _ (.refl _)) fun _ => trivial
    · exact .spawns _ name (calls _ (.refl _)) fun _ => trivial
    · exact .answers (calls _ (.next rfl rfl))
  · have calls := calls_invoke w.store (fun id name h => closure ⟨id, name, h⟩) args caller
    have begins := begins_invoke w.store f args caller
    have further {t : Store} (quiet : Quietly (invoke w.store f args caller).1 t) :
        (Signal.call f args caller).Calls w.store t := by
      unfold Signal.Calls at calls ⊢
      split
      · rename_i taken
        rw [taken] at calls
        exact calls.trans quiet
      · rename_i taken
        rw [taken] at calls
        exact fun unbuilt => (calls unbuilt).trans quiet
    unfold call
    split
    · exact absurd ⟨_, _, rfl⟩ closure
    · dsimp only
      cases made : (invoke w.store f args caller).2 with
      | done v => exact .answers calls
      | raise x => exact .answers calls
      | fault e => exact .answers (further (.next rfl rfl))
      | enter p =>
          rw [made] at begins
          exact .enters calls begins
      | spawn kind name p =>
          rw [made] at begins
          exact .spawns kind name calls begins
      | call f' args' caller' => exact .forwards calls

theorem moves_leave {c : Config G} {w : World G} {stack : List (Activation G)} {g : Gen} (x : Exc)
    (h : ∀ store y, Quietly w.store store →
      Moves c ⟨{ w.setStatus g .finished with store }, stack, .reply (.raised y)⟩) :
    Moves c (leave w stack g x) := by
  unfold leave
  dsimp only
  split
  · exact h _ _ (.next rfl rfl)
  · exact h _ _ (.refl _)

theorem thrownInto_cases (w : World G) (how : Suspension) (v : Val) :
    ∃ store, Quietly w.store store ∧ ((∃ x, thrownInto w how v = ({ w with store }, some x)) ∨
      (thrownInto w how v = ({ w with store }, none) ∧ ∀ x, v ≠ .exc x)) := by
  unfold thrownInto
  split
  · split
    · exact ⟨(w.fault (.escapedStop .generator)).1.store, .next rfl rfl, .inl ⟨_, rfl⟩⟩
    · exact ⟨w.store, .refl _, .inl ⟨_, rfl⟩⟩
  · rename_i other
    split
    · exact ⟨w.store, .refl _, .inr ⟨rfl, other⟩⟩
    · exact ⟨(w.fault (.notThrowable v.typeName)).1.store, .next rfl rfl, .inl ⟨_, rfl⟩⟩

theorem moves_advance (w : World G) (stack : List (Activation G)) (g : Gen) (i : Input) :
    Moves ⟨w, stack, .advance g i⟩ (advance w stack g i) := by
  unfold advance
  split
  case h_1 status => exact .stays (.next rfl rfl) (.running _ _ status)
  case h_2 status => exact .stays (.next rfl rfl) (.running _ _ status)
  case h_3 status => exact .stays (.next rfl rfl) (.running _ _ status)
  case h_4 status =>
      split
      · exact .stays (.next rfl rfl) (.finished _ status fun _ => by simp)
      · exact .stays (.refl _) (.finished _ status fun _ => by simp)
  case h_5 status =>
      split
      · exact .stays (.next rfl rfl) (.finished _ status fun _ => by simp)
      · exact .stays (.refl _) (.finished _ status fun _ => by simp)
  case h_6 _ status =>
      split
      · exact moves_leave _ fun store y quiet => .breaks y quiet (.inr status)
      · rename_i other
        exact .stays (.next rfl rfl) (.refused _ other)
  case h_7 p v status =>
      split
      · exact moves_leave _ fun store y quiet => .breaks y quiet (.inl ⟨p, status⟩)
      · rename_i other
        exact .stays (.next rfl rfl) (.refused _ other)
  case h_8 status => exact .begins status
  case h_9 other status => exact .stays (.next rfl rfl) (.unstarted _ status other)
  case h_10 status => exact .resumes (.refl _) status
  case h_11 p how v status =>
      obtain ⟨store, quiet, outcome⟩ := thrownInto_cases w how v
      rcases outcome with ⟨x, made⟩ | ⟨made, other⟩
      · rw [made]
        exact .resumes quiet status
      · rw [made]
        exact .stays (quiet.trans (.next rfl rfl)) (.refused _ other)
  case h_12 status => exact .relays status
  case h_13 p d v status =>
      dsimp only
      split
      · split
        · exact .exits _ status
        · exact .relays status
      · exact .relays status

theorem moves_close (w : World G) (stack : List (Activation G)) (g : Gen) :
    Moves ⟨w, stack, .close g⟩ (close w stack g) := by
  unfold close
  split
  · exact .spares (.next rfl rfl) fun _ => by simp
  · exact .spares (.refl _) fun _ => by simp
  · rename_i status
    exact .discards status
  · rename_i status
    exact .interrupts _ (.next rfl rfl) status
  · rename_i status
    exact .pursues _ (.next rfl rfl) status

theorem moves_await {c : Config G} {v : World G} (stack : List (Activation G)) (g : Gen)
    (p : Routine G) (u : Val)
    (delegates : ∀ d, Moves c ⟨v, .relaying g p d :: stack, .advance d (.send .none)⟩)
    (refused : ∀ store x, Quietly v.store store →
      Moves c ⟨{ v with store }, .running g p :: stack, .reply (.raised x)⟩) :
    Moves c (await v stack g p u) := by
  unfold await
  split
  · split
    · split
      · exact refused _ _ (.next rfl rfl)
      · exact refused _ _ (.next rfl rfl)
      · exact delegates _
    · exact refused _ _ (.next rfl rfl)
  · exact refused _ _ (.next rfl rfl)

theorem moves_turnOf {w v : World G} {p : Routine G} {r : Reply} {turn : Turn (Routine G)}
    (stepped : p.step w r = (v, turn)) (stack : List (Activation G)) (g : Gen) :
    Moves ⟨w, .running g p :: stack, .reply r⟩ (turnOf v stack g turn) := by
  have goes {p' : Routine G} {store : Store} {signal : Signal}
      (answer : Answer (some g) v.store turn p' store signal) :
      Moves ⟨w, .running g p :: stack, .reply r⟩
        ⟨{ v with store }, .running g p' :: stack, signal⟩ := by
    have moved := Moves.goes stack stepped answer
    exact moved
  have ends {store : Store} {r' : Reply} (ending : turn.next? = none)
      (quiet : Quietly v.store store) (final : r'.Final) :
      Moves ⟨w, .running g p :: stack, .reply r⟩
        ⟨{ v.setStatus g .finished with store }, stack, .reply r'⟩ :=
    .ends stepped ending quiet final
  unfold turnOf
  split
  · exact goes (.more _)
  · exact goes (.call _ _ _)
  · exact goes (.advance _ _ _)
  · exact goes (.close _ _)
  · exact .suspends stepped
  · split
    · exact .delegates stepped (.inl ⟨_, rfl⟩)
    · exact goes (.refused _ (.next rfl rfl) (.inr (.inl ⟨_, rfl⟩)))
  · refine moves_await stack g _ _ (fun d => ?_) fun store x quiet => ?_
    · exact .delegates stepped (.inr ⟨_, rfl⟩)
    · exact goes (.refused x quiet (.inr (.inr ⟨_, rfl⟩)))
  · exact ends rfl (.refl _) fun _ => by simp
  · exact moves_leave _ fun store y quiet => ends rfl quiet fun _ => by simp
  · rename_i f
    have faulted : Quietly v.store (v.fault f).1.store := .next rfl rfl
    exact moves_leave _ fun store y quiet => ends rfl (faulted.trans quiet) fun _ => by simp

theorem moves_turnOfCall {w v : World G} {p : Routine G} {r : Reply} {turn : Turn (Routine G)}
    (stepped : p.step w r = (v, turn)) (stack : List (Activation G)) :
    Moves ⟨w, .calling p :: stack, .reply r⟩ (turnOfCall v stack turn) := by
  have goes {p' : Routine G} {store : Store} {signal : Signal}
      (answer : Answer none v.store turn p' store signal) :
      Moves ⟨w, .calling p :: stack, .reply r⟩
        ⟨{ v with store }, .calling p' :: stack, signal⟩ := by
    have moved := Moves.goes stack stepped answer
    exact moved
  unfold turnOfCall
  split
  · exact goes (.more _)
  · exact goes (.call _ _ _)
  · exact goes (.advance _ _ _)
  · exact goes (.close _ _)
  · rename_i a p' no_call no_advance no_close
    refine goes (.refused _ (.next rfl rfl) ?_)
    cases a with
    | call f args => exact absurd rfl (no_call f args)
    | advance h i => exact absurd rfl (no_advance h i)
    | close h => exact absurd rfl (no_close h)
    | yield u how => exact .inl ⟨u, how, rfl, rfl⟩
    | delegate u => exact .inr (.inl ⟨u, rfl⟩)
    | await u => exact .inr (.inr ⟨u, rfl⟩)
  · exact .returns stepped rfl (.refl _) fun _ => by simp
  · exact .returns stepped rfl (.refl _) fun _ => by simp
  · exact .returns stepped rfl (.next rfl rfl) fun _ => by simp

/-- One step of the kernel is one of its moves. -/
theorem moves_step {c d : Config G} (h : c.step = .ok d) : Moves c d := by
  obtain ⟨w, stack, signal⟩ := c
  cases signal with
  | call f args caller =>
      cases h
      exact moves_call w stack f args caller
  | advance g i =>
      cases h
      exact moves_advance w stack g i
  | close g =>
      cases h
      exact moves_close w stack g
  | reply r =>
      cases stack with
      | nil => cases h
      | cons a stack =>
          cases h
          cases a with
          | calling p => exact moves_turnOfCall rfl stack
          | running g p => exact moves_turnOf rfl stack g
          | relaying g p d =>
              cases r with
              | yielded v => exact .hands v
              | value v => exact .regains
              | raised x => exact .regains
          | closing g =>
              cases r with
              | yielded v => exact .closes (.next rfl rfl) fun _ => by simp
              | value v => exact .closes (.refl _) fun _ => by simp
              | raised x =>
                  simp only [deliver]
                  split
                  · exact .closes (.refl _) fun _ => by simp
                  · exact .closes (.refl _) fun _ => by simp
          | exiting g p x => cases r <;> exact .leaves _

end Config
end OneShot
