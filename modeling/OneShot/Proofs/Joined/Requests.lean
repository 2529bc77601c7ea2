import OneShot.Proofs.Joined.Carrying

/-!
# Requests

A request comes to a generator: one that resumes a slice, or one that runs a
computation under scopes.  Whoever asked hands it to a machine, which starts it.
-/

namespace OneShot.Joined

open Config (Leads)
open Deep (Failure Result)

variable {c : Code} {V : Drivers c} {J : Program c} {es : List (Entry c)} {mem : Memo c}
  {B G R E : Facts (guest c)} {D : Base c} {C : Config (guest c)} {A : List (Activation (guest c))}
  {seat : Option Gen} {n : After c.State} {ms : List (Mark c.State)}

/-- What gets a generator has it started on top of levels that have certain marks. -/
def Hands (A : List (Activation (guest c))) (D : Base c) (ms : List (Mark c.State)) (G : Facts (guest c)) :
    Prop :=
  ∀ (d : Gen) (mem : Memo c) (E R : Facts (guest c)) (C : Config (guest c)), d.kind = .generator →
    At A (.reply (.value (.gen d))) mem (E + (G + R)) C →
      Leads 1 C fun C' => ∃ L Ls, marks (L :: Ls) = ms ∧
        At (under D d (L :: Ls)) (.advance d (.send .none)) mem (E + (levelFacts d (L :: Ls) + R)) C'

/-- A generator delegates to the generator that it gets. -/
theorem hands_delegating {g : Gen} {p : Routine (guest c)} (role : Role c) {L : Level c}
    (Ls : List (Level c))
    (steps : ∀ (d : Gen) (mem : Memo c) (F : Facts (guest c)) (C : Config (guest c)),
      At (.running g p :: under D g (L :: Ls)) (.reply (.value (.gen d))) mem F C →
        Leads 1 C (Turning (some g) (under D g (L :: Ls)) (.ask (.delegate (.gen d)) role.routine)
          mem F)) :
    Hands (.running g p :: under D g (L :: Ls)) D (role.marks ++ marks (L :: Ls))
      ({.gen g.id .running} + levelFacts g (L :: Ls)) := by
  intro d mem E R C kind h
  refine (steps d mem _ C h).mono fun C' turned => ⟨L.linked g role, Ls, marks_linked L g role Ls, ?_⟩
  exact At.delegates role ((turned.delegate kind).of_eq (by abel))

/-- What is known of the continuation that code has a number for. -/
theorem shows_at {os : List (Option (Slice c.State))} (h : List.Forall₂ Entry.Shows es os) (k : Nat) :
    (es[k]? = none ∧ os[k]? = none) ∨ ∃ pre e post o, es = pre ++ e :: post ∧ es[k]? = some e ∧
      os[k]? = some o ∧ e.Shows o ∧ ∀ e' o', Entry.Shows e' o' →
        List.Forall₂ Entry.Shows (pre ++ e' :: post) (os.set k o') := by
  induction h generalizing k with
  | nil => exact .inl ⟨rfl, rfl⟩
  | @cons e o es os shows rest ih =>
      cases k with
      | zero =>
          exact .inr ⟨[], e, es, o, rfl, rfl, rfl, shows, fun e' o' shows' => .cons shows' rest⟩
      | succ k =>
          rcases ih k with ⟨none, none'⟩ | ⟨pre, e₁, post, o₁, rfl, here, there, shows₁, others⟩
          · exact .inl ⟨by simpa using none, by simpa using none'⟩
          · exact .inr ⟨e :: pre, e₁, post, o₁, rfl, by simpa using here, by simpa using there, shows₁,
              fun e' o' shows' => .cons shows (others e' o' shows')⟩

/-- The call that resumes a continuation with an answer. -/
theorem exists_call (k : Cont) (b : Deep.Answer) : ∃ f args, b.call k = .call f args ∧
    ∀ caller, (Signal.call f args caller).request? = some ⟨k, b.sent, b.thrown⟩ := by
  cases b <;> exact ⟨_, _, rfl, fun _ => rfl⟩

/-- Code that waits in a continuation goes on, once the generator that asks for that is started on top of a level. -/
theorem At.wakes {K : Cont} {id : Nat} {q : Gen} {p : Piece c} {s : c.State} {below : List (Piece c)}
    {b : Deep.Answer} {L : Level c} {Ls : List (Level c)} (waits : p.Waits s)
    (h : At (under D q (L :: Ls)) (.advance q (.send .none)) mem
      ({.gen q.id (.fresh (.library (request id K b)))} + ({.cont K.index (vals (p :: below)) true} +
        (facts (p :: below) + (levelFacts q (L :: Ls) + R)))) C) :
    Leads 1 C fun C' => ∃ ms', .code s :: ms' = pieceMarks (p :: below) ++ marks (L :: Ls) ∧
      Running D (codeRoutine s) b.reply ms' mem
        ({.cont K.index (vals (p :: below)) true} + R) C' := by
  cases waits with
  | code d s links t =>
      refine (At.resumes h).mono fun C' here => ⟨_, ?_, d, _, Ls, rfl, here.of_eq ?_⟩
      · simp [Piece.marks, Tip.marks, Level.rests]
      · simp only [Tip.facts]
        abel
  | pass e d s links t =>
      let L' : Level c := ⟨links, t, L.gen, L.machine, below ++ L.rests q .pass :: L.below⟩
      refine (At.resumes h).followed fun C₁ revived => ?_
      refine (At.passing revived).after fun C₂ out => ?_
      have out : At (under D e (L'.linked d (.code s) :: Ls)) (.reply b.reply) mem
          (levelFacts e (L'.linked d (.code s) :: Ls) +
            ({.cont K.index (vals (.gens e .pass (⟨d, .code s⟩ :: links) t :: below)) true} + R)) C₂ :=
        out.of_eq (by simp only [Tip.facts, Level.linked, L']; abel)
      refine ((At.relayed out).mono fun C₃ here => ⟨_, ?_, d, L', Ls, rfl, here⟩).eventually
      simp [Piece.marks, Tip.marks, Role.marks, Level.rests, L']

/-- Code that waits in a continuation goes on, above whoever hands on what its call gives. -/
theorem Hands.wakes {K : Cont} {p : Piece c} {s : c.State} {below : List (Piece c)}
    {b : Deep.Answer} {f : Val} {args : List Val} {caller : Caller} (hands : Hands A D ms G)
    (made : (Signal.call f args caller).request? = some ⟨K, b.sent, b.thrown⟩) (waits : p.Waits s)
    (h : At A (.call f args caller) mem ({.cont K.index (vals (p :: below)) false} +
      (facts (p :: below) + (G + R))) C) :
    Leads 1 C fun C' => ∃ ms', .code s :: ms' = pieceMarks (p :: below) ++ ms ∧
      Running D (codeRoutine s) b.reply ms' mem
        ({.cont K.index (vals (p :: below)) true} + R) C' := by
  refine (At.requests made h).followed fun C₁ there => ?_
  obtain ⟨q, id, kind, there⟩ := there
  have handed := hands q mem ({.gen q.id (.fresh (.library (request id K b)))} +
    ({.cont K.index (vals (p :: below)) true} + facts (p :: below))) R C₁ kind (there.of_eq (by abel))
  refine handed.after fun C₂ there => ?_
  obtain ⟨L, Ls, rfl, there⟩ := there
  exact (At.wakes waits (there.of_eq (by abel))).eventually

/-- A slice that code has a number for is resumed. -/
theorem Hands.resumes {K : Cont} {p : Piece c} {s : c.State} {k : Nat} {below : List (Piece c)}
    {pre post : List (Entry c)} {fs : List (Part c.State)} {b : Deep.Answer} {f : Val} {args : List Val}
    {caller : Caller} (hands : Hands A D (stackMarks J.stack) G) (driver : V D B)
    (made : (Signal.call f args caller).request? = some ⟨K, b.sent, b.thrown⟩)
    (recalls : Recalls J (pre ++ .pending K p below :: post) mem) (waits : p.Waits s)
    (same : pieceMarks (p :: below) = .code s :: stackMarks fs)
    (others : ∀ e' o', Entry.Shows e' o' →
      List.Forall₂ Entry.Shows (pre ++ e' :: post) (J.slices.set k o'))
    (h : At A (.call f args caller) mem
      (G + (entryFacts (pre ++ .pending K p below :: post) + B)) C) :
    Leads 1 C (Carries V
      { J with slices := J.slices.set k none, stack := fs ++ J.stack, control := .code s b }) := by
  have woken := hands.wakes (R := entryFacts pre + (entryFacts post + B)) made waits
    (h.of_eq (by
      simp only [entryFacts_append, entryFacts, Entry.facts]
      abel))
  refine woken.mono ?_
  rintro C' ⟨ms', marked, d, L, Ls, rfl, here⟩
  refine .code rfl ⟨D, B, pre ++ .taken K (vals (p :: below)) :: post, mem, .waiting s, b.reply,
    driver, ?_, goes_waiting s b, d, L, Ls, ?_, here.of_eq ?_⟩
  · refine ⟨recalls.memory, ?_, others _ _ (.taken K _)⟩
    simpa [Entry.cont] using recalls.handles
  · rw [same, List.cons_append] at marked
    rw [stackMarks_append]
    exact (List.cons_eq_cons.1 marked).2
  · simp only [entryFacts_append, entryFacts, Entry.facts]
    abel

/-- A computation is run. -/
theorem Hands.runs {i : Nat} {p : Comp c.State} {caller : Caller}
    (hands : Hands A D (stackMarks J.stack) G) (driver : V D B)
    (recalls : Recalls J es mem) (there : mem.thunks[i]? = some (p.wraps, p.source))
    (h : At A (.call (thunk i) [] caller) mem (G + (entryFacts es + B)) C) :
    Leads 1 C (Carries V (J.requested (.run p))) := by
  have made := p.makes there (h.of_eq (zero_add _).symm)
  refine (made.bind (n := 1) fun C₁ made => ?_).weaken (by omega)
  obtain ⟨g, mem', E, agrees, built, here⟩ := made
  have handed := hands g mem' E (entryFacts es + B) C₁ built.kind here
  refine handed.followed fun C₂ here => ?_
  obtain ⟨L, Ls, marked, here⟩ := here
  refine ((built.starts here).mono ?_).eventually
  rintro C₃ ⟨mem'', agrees', running⟩
  refine .code rfl ⟨D, B, es, mem'', .waiting p.body, .value .none, driver, ?_,
    goes_waiting p.body (.value .none), ?_⟩
  · exact ((recalls.agrees agrees).agrees agrees').of_eq rfl rfl
  · rw [Program.requested, stackMarks_append, ← marked, ← recalls.memory, ← agrees.memory]
    exact running

/-- What a request comes to, given what a refusal comes to. -/
theorem Hands.requested {q : Request c.State} (seat : Option Gen)
    (hands : Hands (.body seat (.guest (.asked n)) :: A) D (stackMarks J.stack) G)
    (driver : V D B) (recalls : Recalls J es mem)
    (refuses : ∀ C', Turning seat A ((Body.refused n).map .guest) mem (G + (entryFacts es + B)) C' →
      Leads 0 C' (Carries V { J with control := .result (.failed resumedTwice) }))
    (h : Turning seat A ((Body.request mem n q).2.map .guest) (Body.request mem n q).1
      (G + (entryFacts es + B)) C) :
    Leads 0 C (Carries V (J.requested q)) := by
  cases q with
  | run p =>
      have agrees : mem.Agrees (mem.newThunk p.wraps p.source).1 := ⟨rfl, rfl⟩
      have there := mem.newThunk_there p.wraps p.source
      exact (hands.runs driver (recalls.agrees agrees) there h.call).eventually
  | resume k b =>
      rcases shows_at recalls.slices k with ⟨absent, absent'⟩ |
        ⟨pre, e, post, o, rfl, here, there, shows_, others⟩
      · have missing : mem.handles[k]? = none := by
          rw [recalls.handles, List.getElem?_map, absent]
          rfl
        simp only [Body.request, missing] at h
        have refused := refuses C h
        simpa only [Program.requested, absent'] using refused
      · have handle : mem.handles[k]? = some e.cont := by
          rw [recalls.handles, List.getElem?_map, here]
          rfl
        obtain ⟨f, args, called, made⟩ := exists_call e.cont b
        simp only [Body.request, handle, called] at h
        cases shows_ with
        | pending waits same =>
            have resumed := hands.resumes driver (made _) recalls waits same others h.call
            simp only [Program.requested, there]
            exact resumed.eventually
        | taken K frames =>
            have refused := At.refused (made _) ((Turning.call h).of_eq
              (E := {.cont K.index frames true} + (G + (entryFacts pre + (entryFacts post + B)))) (by
                simp only [entryFacts_append, entryFacts, Entry.facts]
                abel))
            simp only [Program.requested, there]
            refine refused.after fun C₁ raised => ?_
            obtain ⟨x, raised⟩ := raised
            have turned := At.guest (t := Body.refused n) seat raised (by cases n <;> rfl)
            refine (turned.followed fun C₂ turned => refuses C₂ (turned.of_eq ?_)).eventually
            simp only [entryFacts_append, entryFacts, Entry.facts, Entry.cont]
            abel

end OneShot.Joined
