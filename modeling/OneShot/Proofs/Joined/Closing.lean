import OneShot.Proofs.Exits
import OneShot.Proofs.Joined.Beginning

/-!
# Closing

A generator that is closed gets an exit where it is suspended, after what it
delegates to was closed.  Code notes its exit; a machine that has passed an escape
on closes what its frames hold, from the top down.  So what waits on a stack is
closed in the order of its marks, whatever the layout.
-/

namespace OneShot.Joined

open Config (Leads Shuts)

variable {c : Code} {A : List (Activation (guest c))} {mem : Memo c} {F R : Facts (guest c)}
  {C C' : Config (guest c)} {d g : Gen} {m : Nat} {p : Routine (guest c)} {x : Exc}
  {ms ms' : List (Mark c.State)} {gs gs' : List Gen} {v : Val} {seat : Option Gen}

/-! ## Exits -/

/-- The memory after the exits of the code among marks. -/
def Memory.exits (M : Memory c) (ms : List (Mark c.State)) : Memory c :=
  ms.foldl (fun M mark => match mark with | .code s => M.exit s | _ => M) M

theorem Memory.exits_append (M : Memory c) (ms ms' : List (Mark c.State)) :
    M.exits (ms ++ ms') = (M.exits ms).exits ms' := List.foldl_append

theorem Memory.closing_eq (M : Memory c) (fs : List (Part c.State)) :
    M.closing fs = M.exits (stackMarks fs) := by
  induction fs generalizing M with
  | nil => rfl
  | cons f fs ih =>
      rw [stackMarks_cons, Memory.exits_append, ← ih]
      cases f <;> rfl

/-- What the guest remembers after the exits of the code among marks. -/
def Memo.exits (mem : Memo c) (ms : List (Mark c.State)) : Memo c :=
  { mem with memory := mem.memory.exits ms }

theorem Memo.exits_append (mem : Memo c) (ms ms' : List (Mark c.State)) :
    mem.exits (ms ++ ms') = (mem.exits ms).exits ms' := by
  simp only [Memo.exits, Memory.exits_append]

theorem exit_isException (exit : x.kind = .generatorExit) : x.isException = false := by
  unfold Exc.isException
  rw [exit]
  decide

/-- A routine gives way to an exit. -/
def Leaves (p : Routine (guest c)) (ms : List (Mark c.State)) : Prop :=
  ∀ ⦃g : Gen⦄ ⦃x : Exc⦄ ⦃A : List (Activation (guest c))⦄ ⦃mem : Memo c⦄ ⦃R : Facts (guest c)⦄
    ⦃C : Config (guest c)⦄, x.kind = .generatorExit →
    At (.running g p :: A) (.reply (.raised x)) mem ({.gen g.id .running} + R) C →
      Shuts [g] C (At A (.reply (.raised x)) (mem.exits ms) (shut [g] + R))

theorem leaves_library {q : Process}
    (raises : ∀ st x, x.kind = .generatorExit → q.step st (.raised x) = (st, .raise x)) :
    Leaves (c := c) (.library q) [] := by
  intro g x A mem R C exit h
  refine At.exits h exit fun w memory => ⟨w, ?_, memory, fun F => id⟩
  simp only [Routine.step, raises _ _ exit]
  rfl

theorem leaves_code (s : c.State) : Leaves (codeRoutine s) [.code s] := by
  intro g x A mem R C exit h
  have stepped : Body.step mem (.waiting s) (.raised x) = (mem.exits [.code s], .raise x) := by
    have none_answers : Deep.Answer.ofReply? (.raised x) = none :=
      dif_neg fun both => by simp [exit_isException exit] at both
    simp only [Body.step, none_answers]
    rfl
  refine At.exits h exit fun w memory => ?_
  subst memory
  refine ⟨{ w with memory := Memo.exits w.memory [.code s] }, ?_, rfl, fun F bears => bears.memory _⟩
  simp only [codeRoutine, Routine.step, stepped]
  rfl

/-- The clause of an awaiter. -/
theorem leaves_waiting (k : Cont) : Leaves (c := c) (waitingRoutine k) [] :=
  leaves_library fun st x exit => by
    simp only [Process.step, AwaitClause.step, exit_isException exit]
    rfl

theorem Role.leaves (role : Role c) : Leaves role.routine role.marks := by
  cases role with
  | code s => exact leaves_code s
  | loop v => exact leaves_library fun st x exit => rfl
  | clause => exact leaves_library fun st x exit => rfl
  | pass => exact leaves_library fun st x exit => rfl

theorem Tip.leaves (tip : Tip c) : Leaves tip.routine tip.marks := by
  cases tip with
  | code s => exact leaves_code s
  | pass => exact leaves_library fun st x exit => rfl
  | relay m =>
      refine leaves_library fun st x exit => ?_
      have raises : Machine.step st m .resent (.raised x) = (st, .raise x) :=
        if_neg (by simp [exit_isException exit])
      simp only [Process.step, raises]
      rfl

/-! ## Closing generators -/

/-- A generator that is at rest is closed, after what is above it; all that end with that do so in order. -/
def Closes (g : Gen) (F : Facts (guest c)) (ms : List (Mark c.State)) (gs : List Gen) : Prop :=
  ∀ ⦃A : List (Activation (guest c))⦄ ⦃mem : Memo c⦄ ⦃R : Facts (guest c)⦄ ⦃C : Config (guest c)⦄,
    At A (.close g) mem (F + R) C →
      Shuts gs C (At A (.reply (.value .none)) (mem.exits ms) (shut gs + R))

/-- What waits for the closing of a generator gets its exit. -/
theorem At.closed (exit : x.kind = .generatorExit)
    (h : At (.closing g :: A) (.reply (.raised x)) mem R C) :
    Shuts [] C (At A (.reply (.value .none)) mem R) := by
  refine h.passes (fun w => rfl) fun w memory bears => ⟨w, ?_, memory, bears⟩
  have exits : x.kind.isA .generatorExit = true := by
    rw [exit]
    decide
  simp only [Config.step, Config.deliver, exits, Bool.true_or, if_true]
  rfl

/-- The exit that is raised in a generator when it is closed. -/
abbrev exitOf (w : World (guest c)) : Store × Exc := w.store.newException .generatorExit [] .plain

/-- A suspended generator is closed: an exit is raised in it. -/
theorem At.closing {how : Suspension}
    (h : At A (.close g) mem ({.gen g.id (.suspended p how)} + R) C) :
    Shuts [] C fun C' => ∃ x : Exc, x.kind = .generatorExit ∧
      At (.running g p :: .closing g :: A) (.reply (.raised x)) mem ({.gen g.id .running} + R) C' := by
  obtain ⟨w, rfl, rfl, bears⟩ := h
  have raised : Config.close w A g = Config.reply ({ w with store := (exitOf w).1 }.setStatus g .running)
      (.running g p :: .closing g :: A) (.raised (exitOf w).2) := by
    simp only [Config.close, World.status_of bears.here]
  exact .step ((Config.step_close' w A g).trans (congrArg Except.ok raised)) rfl
    (.here ⟨(exitOf w).2, rfl, At.mk ((bears.store (exitOf w).1 rfl).setStatus .running)⟩)

theorem Leaves.closes (how : Suspension) (leaves : Leaves p ms) :
    Closes g {.gen g.id (.suspended p how)} ms [g] := by
  intro A mem R C h
  refine (At.closing h).before fun C₁ woken => ?_
  obtain ⟨x, exit, there⟩ := woken
  exact (leaves exit there).then_quiet fun C₂ left => At.closed exit left

/-- What a generator delegates to is closed before the generator itself. -/
theorem Closes.link (closes : Closes d F ms gs) (leaves : Leaves p ms') :
    Closes g ({.gen g.id (.delegating p d)} + F) (ms ++ ms') (gs ++ [g]) := by
  intro A mem R C h
  have asked : Shuts [] C fun C' => ∃ x : Exc, x.kind = .generatorExit ∧
      At (.exiting g p x :: .closing g :: A) (.close d) mem
        (F + ({.gen g.id .running} + R)) C' := by
    obtain ⟨w, rfl, rfl, bears⟩ := h
    have delegating := bears.of_eq (add_assoc _ _ _)
    have asked : Config.close w A g = ⟨{ w with store := (exitOf w).1 }.setStatus g .running,
        .exiting g p (exitOf w).2 :: .closing g :: A, .close d⟩ := by
      simp only [Config.close, World.status_of delegating.here]
    refine .step ((Config.step_close' w A g).trans (congrArg Except.ok asked)) rfl
      (.here ⟨(exitOf w).2, rfl, At.mk ?_⟩)
    exact ((delegating.store (exitOf w).1 rfl).setStatus .running).of_eq (add_left_comm _ _ _)
  refine asked.before fun C₁ asked => ?_
  obtain ⟨x, exit, there⟩ := asked
  refine (closes there).bind fun C₂ closed => ?_
  have raised : Shuts [] C₂ (At (.running g p :: .closing g :: A) (.reply (.raised x)) (mem.exits ms)
      ({.gen g.id .running} + (shut gs + R))) :=
    (closed.of_eq (add_left_comm _ _ _)).passes (fun w => rfl) fun w memory bears => ⟨w, rfl, memory, bears⟩
  refine raised.before fun C₃ raised => ?_
  refine (leaves exit raised).then_quiet fun C₄ left => ?_
  rw [Memo.exits_append]
  refine (At.closed exit left).mono fun C₅ done => done.of_eq ?_
  rw [shut_append]
  abel

theorem Closes.of_eq {E : Facts (guest c)} (closes : Closes g F ms gs) (same : F = E)
    (marked : ms = ms') (listed : gs = gs') : Closes g E ms' gs' := by
  subst same marked listed
  exact closes

theorem Closes.weaken {E : Facts (guest c)} (closes : Closes g F ms gs) : Closes g (E + F) ms gs := by
  intro A mem R C h
  refine (closes (h.of_eq (E := F + (E + R)) (by abel))).mono fun C' closed => ?_
  exact (closed.of_eq (add_left_comm _ _ _)).right

/-- The generators of links, innermost first. -/
def linkGens (links : List (Link c)) : List Gen := links.map Link.gen

theorem Closes.chain (closes : Closes d F ms gs) (links : List (Link c)) :
    Closes (bottom d (hops links)) (restingHops d (hops links) + F) (ms ++ linkMarks links)
      (gs ++ linkGens links) := by
  induction links generalizing d F ms gs with
  | nil => exact closes.of_eq (by simp [hops, restingHops]) (by simp) (by simp [linkGens])
  | cons l links ih =>
      refine (ih (closes.link (g := l.gen) l.role.leaves)).of_eq ?_ (by simp) (by simp [linkGens])
      simp only [hops, List.map_cons, restingHops, Link.hop]
      abel

/-- The generators of a piece, topmost first. -/
def Piece.gensOf : Piece c → List Gen
  | .bound _ _ => []
  | .gens d _ links _ => d :: linkGens links

theorem closes_piece (d : Gen) (tip : Tip c) (links : List (Link c)) (t : Tag) :
    Closes (bottom d (hops links)) (Piece.gens d tip links t).facts (Piece.gens d tip links t).marks
      (Piece.gens d tip links t).gensOf := by
  refine (Closes.weaken (E := tip.facts) ((Leaves.closes (g := d) tip.how tip.leaves).chain
    links)).of_eq ?_ rfl rfl
  simp only [Piece.facts]
  abel

/-! ## Closing what frames hold -/

/-- What the frames of pieces hold, from the top down. -/
def contents (ps : List (Piece c)) : List Val := (vals ps).filterMap Val.framed?

def pieceGens (ps : List (Piece c)) : List Gen := ps.flatMap Piece.gensOf

/-- A routine of the library asks for the closing of a generator. -/
theorem At.asksClosing {q r : Process}
    (h : At (.body seat (.library q) :: A) (.reply (.value .none)) mem R C)
    (asks : ∀ st, q.step st (.value .none) = (st, .ask (.close g) r)) :
    Shuts [] C (At (.body seat (.library r) :: A) (.close g) mem R) := by
  refine h.passes (fun w => ?_) fun w memory bears => ⟨w, ?_, memory, bears⟩
  · cases seat
    · rfl
    · simp only [Activation.body, Config.exits?, Routine.step, asks]
      rfl
  · rw [Config.step_body]
    cases seat <;> simp only [Routine.step, asks] <;> rfl

/-- A routine that closes one value after the other has closed what pieces hold. -/
theorem At.closesAll (seat : Option Gen) (closer : List Val → Process)
    (next : ∀ st v rest, (closer (v :: rest)).step st (.value .none) =
      (st, .ask (.closing v) (closer rest))) {ps : List (Piece c)} {rest : List Val}
    (h : At (.body seat (.library (closer (contents ps ++ rest))) :: A) (.reply (.value .none)) mem
      (facts ps + R) C) :
    Shuts (pieceGens ps) C (At (.body seat (.library (closer rest)) :: A) (.reply (.value .none))
      (mem.exits (pieceMarks ps)) (shut (pieceGens ps) + R)) := by
  induction ps generalizing mem R C with
  | nil => exact .here h
  | cons p ps ih =>
      cases p with
      | bound b t =>
          exact ih (R := R) (h.of_eq (by simp only [facts, Piece.facts, zero_add]))
      | gens d tip links t =>
          have asked := At.asksClosing (g := bottom d (hops links)) (r := closer (contents ps ++ rest)) h
            fun st => next st _ _
          refine asked.before fun C₁ there => ?_
          have closed := closes_piece d tip links t (there.of_eq (E :=
            (Piece.gens d tip links t).facts + (facts ps + R)) (by simp only [facts]; abel))
          refine closed.bind fun C₂ closed => ?_
          rw [pieceMarks_cons, Memo.exits_append]
          refine (ih (closed.of_eq (add_left_comm _ _ _))).mono fun C₃ done => done.of_eq ?_
          simp only [pieceGens, List.flatMap_cons, shut_append]
          abel

/-! ## Closing levels -/

/-- The generators of a level, topmost first: what is below its topmost generator, and the machine. -/
def Level.gensOf (L : Level c) : List Gen := linkGens L.links ++ pieceGens L.below ++ [L.gen]

/-- A machine that has passed an escape on closes what its frames hold, when an exit is raised in it. -/
theorem Closes.exits (closes : Closes d F ms gs) (L : Level c) (exit : x.kind = .generatorExit)
    (h : At (.running L.gen (escapedRoutine L.machine) :: A) (.reply (.raised x)) mem ({.gen L.gen.id .running} +
      ({.machine L.machine (genFrame (bottom d (hops L.links)) L.tag :: vals L.below)} +
        (restingHops d (hops L.links) + F + (facts L.below + R)))) C) :
    Shuts (gs ++ L.gensOf) C (At A (.reply (.raised x)) (mem.exits (ms ++ (linkMarks L.links ++ pieceMarks L.below)))
      (shut (gs ++ L.gensOf) + R)) := by
  let content := bottom d (hops L.links)
  let closer (rest : List Val) : Process := .machine L.machine (.closing rest x)
  have asked : Shuts [] C (At (.running L.gen (.library (closer (contents L.below ++ []))) :: A) (.close content) mem
      (restingHops d (hops L.links) + F + (facts L.below + ({.gen L.gen.id .running} + R)))) := by
    obtain ⟨w, rfl, rfl, bears⟩ := h
    have stack := (bears.of_eq (add_left_comm _ _ _)).stack
    have stepped : (Process.machine L.machine .escaped).step w.store (.raised x) =
        (w.store, .ask (.close content) (closer (contents L.below ++ []))) := by
      have isExit : x.kind.isA .generatorExit = true := by
        rw [exit]
        decide
      simp only [Process.step, Machine.step, isExit, if_true, stack, List.filterMap_cons, Val.framed?,
        List.append_nil]
      rfl
    have turned : (escapedRoutine L.machine).step w (.raised x) =
        (w, .ask (.close content) (.library (closer (contents L.below ++ [])))) := by
      simp only [escapedRoutine, Routine.step, stepped]
      rfl
    refine .step (Config.step_body w _ (some L.gen) _ _) ?_ (.here ⟨w, ?_, rfl, ?_⟩)
    · simp only [Config.exits?, turned]
    · rw [turned]
      rfl
    · exact ((bears.of_eq (add_left_comm _ _ _)).right).of_eq (by abel)
  refine asked.before fun C₂ there => ?_
  rw [Level.gensOf, ← List.append_assoc, ← List.append_assoc, List.append_assoc (gs ++ _)]
  refine ((closes.chain L.links) there).bind fun C₃ closed => ?_
  refine (At.closesAll (some L.gen) closer (fun st v rest => rfl)
    (closed.of_eq (add_left_comm _ _ _))).bind fun C₄ closed => ?_
  have ended := At.exits (p := .library (closer [])) (R := shut (gs ++ linkGens L.links) +
    (shut (pieceGens L.below) + R)) (closed.of_eq (by abel)) exit fun w memory =>
      ⟨w, rfl, memory, fun F => id⟩
  refine ended.mono fun C₅ left => ?_
  rw [← List.append_assoc, Memo.exits_append]
  refine left.of_eq ?_
  simp only [shut_append]
  abel

theorem Closes.level (closes : Closes d F ms gs) (L : Level c) :
    Closes L.gen (L.paused d + F) (ms ++ (linkMarks L.links ++ pieceMarks L.below)) (gs ++ L.gensOf) := by
  intro A mem R C h
  refine (At.closing (h.of_eq (E := {.gen L.gen.id (.suspended (escapedRoutine L.machine) .direct)} +
    ({.machine L.machine (genFrame (bottom d (hops L.links)) L.tag :: vals L.below)} +
      (restingHops d (hops L.links) + F + (facts L.below + R)))) (by simp only [Level.paused]; abel))).before
        fun C₁ woken => ?_
  obtain ⟨x, exit, there⟩ := woken
  exact (closes.exits L exit there).then_quiet fun C₂ left => At.closed exit left

/-- The generators of levels and of what is at rest in them, topmost first. -/
def levelGens (Ls : List (Level c)) : List Gen := Ls.flatMap Level.gensOf

/-- The outermost machine is closed after all levels were suspended by an escape. -/
theorem Closes.levels (closes : Closes d F ms gs) (Ls : List (Level c)) :
    Closes (root d Ls) (pausedFacts d Ls + F) (ms ++ marks Ls) (gs ++ levelGens Ls) := by
  induction Ls generalizing d F ms gs with
  | nil => exact closes.of_eq (zero_add _).symm (by simp) (by simp [levelGens])
  | cons L Ls ih =>
      refine (ih (closes.level L)).of_eq ?_ (by simp) (by simp [levelGens])
      simp only [pausedFacts]
      abel

end OneShot.Joined
