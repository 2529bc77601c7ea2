import OneShot.Proofs.Joined.Closing
import OneShot.Proofs.Deep.Ending

/-!
# The end of a run

A driver returns or raises what comes to it.  When an effect has come to it that
nobody has answered, or an escape that it does not expect, it closes everything
that waits, topmost first, and raises the error.
-/

namespace OneShot.Joined

open Config (Leads Shuts)
open Deep (Result)

variable {c : Code} {async : Bool} {J : Program c} {A : List (Activation (guest c))} {mem : Memo c}
  {B F I R : Facts (guest c)} {C C' : Config (guest c)} {D : Base c} {d g : Gen} {ms : List (Mark c.State)}
  {gs : List Gen} {seat : Option Gen} {s : c.State} {e : Effect} {w : World (guest c)}

/-- The reply that a run ends with. -/
inductive Ending.Replies : Ending → Reply → Prop
  | result (r : Result) : Replies (.result r) r.answer.reply
  | uncaught {e : Effect} {x : Exc} {op : Val} (kind : x.kind = .uncaughtEffect)
      (detail : x.detail = .uncaught op (.effect e)) : Replies (.uncaught e) (.raised x)
  | escaped {x : Exc} {op : Val} (kind : x.kind = .invalidInvocation) (detail : x.detail = .invalid op) :
      Replies .escaped (.raised x)

/-- A configuration in which a run has ended. -/
def Stops (M : Memory c) (e : Ending) (C : Config (guest c)) : Prop :=
  ∃ w r, C = ⟨w, [], .reply r⟩ ∧ w.memory.memory = M ∧ e.Replies r

/-! ## Results -/

/-- What waits for the loop of an asynchronous driver hands on its result. -/
theorem At.loopReturns {a : Deep.Answer} {outer : Bool}
    (h : At [looping d outer, .calling (.guest .passing)] (.reply a.reply) mem F C) :
    Leads 1 C (At [] (.reply a.reply) mem F) := by
  refine (At.loopEnds h).followed fun C₁ there => ?_
  have turned := At.guest (t := a.turn) none there (by cases a <;> rfl)
  refine (turned.mono fun C₂ turned => ?_).eventually
  rw [Deep.Answer.map_turn] at turned
  exact turned.returns

/-- A driver ends with what its machine ends with. -/
theorem Driver.returns {a : Deep.Answer} (driver : Driver async D B)
    (h : At (D g) (.reply a.reply) mem (F + B) C) :
    Leads 1 C (At [] (.reply a.reply) mem F) := by
  cases driver with
  | sync =>
      refine (At.libraryReturns (a := a) h fun st => ?_).mono fun C' there => there.of_eq (add_zero F)
      cases a with
      | value v => exact ⟨Store.engine_note _ _ _, rfl⟩
      | failed x => exact ⟨rfl, rfl⟩
  | async d n outer =>
      have ended := At.libraryEnds (a := a) (At.of_eq h (add_comm _ _)) fun st => by
        cases a with
        | value v => exact ⟨Store.engine_note _ _ _, rfl⟩
        | failed x => exact ⟨rfl, rfl⟩
      exact ended.followed fun C₁ there => (At.loopReturns there).eventually

theorem Arrived.stops {r : Result} (driver : Driver async D B)
    (h : Arrived D r mem (F + B) [] C) : Leads 1 C (Stops mem.memory (.result r)) := by
  generalize none_left : ([] : List (Mark c.State)) = ms at h
  cases h with
  | out here =>
      refine (driver.returns here).mono ?_
      rintro C' ⟨w, rfl, rfl, -⟩
      exact ⟨w, _, rfl, rfl, .result r⟩
  | _ => contradiction

/-! ## What is at rest -/

/-- The code that waits in a generator. -/
def waits? (w : World (guest c)) (g : Gen) : Option c.State :=
  match w.status g with
  | .suspended (.guest (.waiting s)) _ | .delegating (.guest (.waiting s)) _ => some s
  | _ => none

/-- The code among marks. -/
def codes (ms : List (Mark c.State)) : List c.State := ms.filterMap fun | .code s => some s | _ => none

theorem Memory.log_exits (M : Memory c) (ms : List (Mark c.State)) :
    (M.exits ms).log = M.log ++ (codes ms).map .exit := by
  induction ms generalizing M with
  | nil => exact (List.append_nil _).symm
  | cons mark ms ih =>
      cases mark with
      | code s =>
          refine (ih (M.exit s)).trans ?_
          rw [Memory.exit, List.append_assoc]
          rfl
      | _ => exact ih M

/-- The generators that hang from values, and the marks of what waits in them. -/
structure Resting (w : World (guest c)) (vs : List Val) (gs : List Gen) (ms : List (Mark c.State)) : Prop where
  hangs : w.Hangs vs gs
  waits : gs.filterMap (waits? w) = codes ms

namespace Resting

variable {vs vs' : List Val} {gs' : List Gen} {ms' : List (Mark c.State)}

theorem nil : Resting w [] [] [] := ⟨.nil, rfl⟩

theorem append (h : Resting w vs gs ms) (h' : Resting w vs' gs' ms') :
    Resting w (vs ++ vs') (gs ++ gs') (ms ++ ms') where
  hangs := h.hangs.append h'.hangs
  waits := by rw [List.filterMap_append, h.waits, h'.waits, codes, codes, codes, List.filterMap_append]

/-- A generator that delegates, with what is above it. -/
theorem link {l : Link c} (bears : w.Bears ({.gen l.gen.id (.delegating l.role.routine d)} + F))
    (h : Resting w [.gen d] gs ms) : Resting w [.gen l.gen] (gs ++ [l.gen]) (ms ++ l.role.marks) := by
  have status := World.status_of (g := l.gen) bears.here
  refine ⟨.delegating status h.hangs .nil, ?_⟩
  have here : [l.gen].filterMap (waits? w) = codes l.role.marks := by
    cases role : l.role <;> rw [role] at status <;>
      simp [waits?, status, Role.routine, codeRoutine, codes, Role.marks]
  rw [List.filterMap_append, h.waits, here, codes, codes, codes, List.filterMap_append]

theorem chain {links : List (Link c)} (bears : w.Bears (restingHops d (hops links) + F))
    (h : Resting w [.gen d] gs ms) :
    Resting w [.gen (bottom d (hops links))] (gs ++ linkGens links) (ms ++ linkMarks links) := by
  induction links generalizing d gs ms F with
  | nil => simpa [hops, bottom, linkGens] using h
  | cons l links ih =>
      have bears' : w.Bears ({.gen l.gen.id (.delegating l.role.routine d)} +
          (restingHops l.gen (hops links) + F)) := by
        refine bears.of_eq ?_
        simp only [hops, List.map_cons, restingHops, Link.hop]
        abel
      have whole := ih bears'.right (link bears' h)
      simpa [hops, bottom, linkGens, Link.hop] using whole

theorem tip (tip : Tip c) (bears : w.Bears ({.gen d.id (.suspended tip.routine tip.how)} + (tip.facts + F))) :
    Resting w [.gen d] [d] tip.marks := by
  have status := World.status_of (g := d) bears.here
  have codes_tip : [d].filterMap (waits? w) = codes tip.marks := by
    cases tip <;> simp [waits?, status, Tip.routine, codeRoutine, codes, Tip.marks]
  refine ⟨?_, codes_tip⟩
  cases tip with
  | code s => exact .suspended status (by simp [Tip.routine, codeRoutine]) .nil
  | pass => exact .suspended status (by simp [Tip.routine]) .nil
  | relay m =>
      have empty : w.held m = [] := by
        rw [World.held, bears.right.stack]
        rfl
      have above : w.Hangs (w.held m) [] := empty ▸ .nil
      exact .machine status above .nil

theorem pieces {ps : List (Piece c)} (bears : w.Bears (facts ps + F)) :
    Resting w (contents ps) (pieceGens ps) (pieceMarks ps) := by
  induction ps generalizing F with
  | nil => exact .nil
  | cons p ps ih =>
      have rest := ih (bears.of_eq (E := facts ps + (p.facts + F)) (by simp only [facts]; abel))
      rw [pieceMarks_cons]
      cases p with
      | bound b t => exact ⟨rest.hangs, rest.waits⟩
      | gens d tip links t =>
          have bears' : w.Bears ({.gen d.id (.suspended tip.routine tip.how)} + (tip.facts +
              (restingHops d (hops links) + (facts ps + F)))) := by
            refine bears.of_eq ?_
            simp only [facts, Piece.facts]
            abel
          exact (chain bears'.right.right (Resting.tip tip bears')).append rest

/-- A machine that has passed an escape on. -/
theorem level {L : Level c} (bears : w.Bears (L.paused d + F)) (h : Resting w [.gen d] gs ms) :
    Resting w [.gen L.gen] (gs ++ L.gensOf) (ms ++ (linkMarks L.links ++ pieceMarks L.below)) := by
  let frames := genFrame (bottom d (hops L.links)) L.tag :: vals L.below
  have bears' : w.Bears ({.machine L.machine frames} + ({.gen L.gen.id (.suspended
      (escapedRoutine L.machine) .direct)} + (restingHops d (hops L.links) + (facts L.below + F)))) := by
    refine bears.of_eq ?_
    simp only [Level.paused, frames]
    abel
  have status := World.status_of (g := L.gen) bears'.right.here
  have held : w.held L.machine = [.gen (bottom d (hops L.links))] ++ contents L.below := by
    rw [World.held, bears'.stack]
    rfl
  have above := (chain bears'.right.right h).append (pieces bears'.right.right.right)
  refine ⟨?_, ?_⟩
  · have hangs := World.Hangs.machine status (held ▸ above.hangs) .nil
    simpa [Level.gensOf] using hangs
  · have none_waits : waits? w L.gen = none := by simp [waits?, status, escapedRoutine]
    have waits := above.waits
    simp only [List.append_assoc] at waits
    simp only [Level.gensOf, ← List.append_assoc]
    rw [List.filterMap_append]
    simp [none_waits, waits]

theorem levels {Ls : List (Level c)} (bears : w.Bears (pausedFacts d Ls + F)) (h : Resting w [.gen d] gs ms) :
    Resting w [.gen (root d Ls)] (gs ++ levelGens Ls) (ms ++ marks Ls) := by
  induction Ls generalizing d gs ms F with
  | nil => simpa [levelGens, root] using h
  | cons L Ls ih =>
      have bears' : w.Bears (L.paused d + (pausedFacts L.gen Ls + F)) :=
        bears.of_eq (by simp only [pausedFacts]; abel)
      have whole := ih bears'.right (level bears' h)
      simpa [levelGens, root] using whole

end Resting

/-! ## Giving up -/

/-- The errors that a driver gives up with. -/
def GivesUp (op : Val) (e : Ending) : Prop :=
  ∀ st, ∃ st' x, Driver.escapedError st op = (st', x.exc) ∧ st'.engine = st.engine ∧
    e.Replies (Deep.Answer.failed x).reply

theorem givesUp_resend {context : Val} (place : Deep.Place context) (id : Nat) (e : Effect)
    (args : Arguments) (k : Val) :
    GivesUp (.resend id ⟨.effect e, args, k, context⟩) (.uncaught e) := by
  intro st
  obtain ⟨st', x, made, kind, detail⟩ := Deep.uncaught_of_place place st
    (.resend id ⟨.effect e, args, k, context⟩) e
  have engine := (OneShot.Driver.quiet_abandon (fun _ => ()) st
    (.resend id ⟨.effect e, args, k, context⟩) []).engine
  have errs : OneShot.Driver.escapedError st (.resend id ⟨.effect e, args, k, context⟩) = (st', x) :=
    made
  simp only [OneShot.Driver.abandon, errs] at engine
  have isException : x.isException = true := by
    unfold Exc.isException
    rw [kind]
    decide
  exact ⟨st', ⟨x, isException, by simp [kind]⟩, errs, engine, .uncaught kind detail⟩

theorem givesUp_escape (id : Nat) (action : Val) : GivesUp (.escape id action) .escaped := by
  intro st
  exact ⟨_, ⟨(OneShot.Driver.escapedError st (.escape id action)).2, rfl, nofun⟩, rfl, rfl, .escaped rfl rfl⟩

/-- What a driver cannot answer, and what a run then ends with. -/
inductive Unanswered (async : Bool) : Val → Ending → Prop
  | resend (id : Nat) (e : Effect) (args : Arguments) (k context : Val) :
      Unanswered async (.resend id ⟨.effect e, args, k, context⟩) (.uncaught e)
  | escape (id : Nat) (action : Val) (sync : async = false) : Unanswered async (.escape id action) .escaped

/--
A driver hears of what it cannot answer.  The generators that are on the joined stack then
are closed, each once, topmost first, and so is the code of the program that waits in them.
After that the driver raises the error, with which the run ends.
-/
inductive Abandons (async : Bool) (M : Memory c) (e : Ending) (C : Config (guest c)) : Exc → Prop
  | intro {D : Base c} {B : Facts (guest c)} {g : Gen} {op : Val} {gs : List Gen} {C₁ C₂ : Config (guest c)}
      {w : World (guest c)} {x : Exc} (driver : Driver async D B) (stack : C.stack = D g)
      (signal : C.signal = .reply (.yielded op)) (unanswered : Unanswered async op e)
      (hangs : C.world.Hangs (C.world.carried op ++ [.gen g]) gs) (closes : C.Exits gs C₁)
      (once : gs.Nodup) (ended : ∀ h ∈ gs, C₁.world.status h = .finished)
      (log : M.log = C.world.memory.memory.log ++ (gs.filterMap (waits? C.world)).map .exit)
      (raises : C₁.step = .ok C₂) (error : C₂.signal = .reply (.raised x)) (replies : e.Replies (.raised x))
      (rest : ∃ n, Config.Reaches n C₂ ⟨w, [], .reply (.raised x)⟩) (memory : w.memory.memory = M) :
      Abandons async M e C x

theorem Abandons.stops {M : Memory c} {e : Ending} {x : Exc} (h : Abandons async M e C x) :
    Leads 1 C fun C' => ∃ w, C' = ⟨w, [], .reply (.raised x)⟩ ∧ w.memory.memory = M ∧ e.Replies (.raised x) := by
  obtain ⟨-, -, -, -, -, closes, -, -, -, raises, -, replies, ⟨n, rest⟩, memory⟩ := h
  obtain ⟨k, reached⟩ := closes.reaches
  exact ⟨k + (n + 1), _, by omega, reached.trans (.step raises rest), _, rfl, memory, replies⟩

/-- What comes after the same step. -/
theorem shuts_of_step (C' : Config (guest c)) {P : Config (guest c) → Prop} (same : C.step = C'.step) (quiet : C.exits? = C'.exits?)
    (moved : ¬ P C') (h : Shuts gs C' P) : Shuts gs C P := by
  obtain ⟨C'', exits, holds⟩ := h
  cases exits with
  | refl => exact absurd holds moved
  | step first rest => exact ⟨C'', quiet ▸ .step (same.trans first) rest, holds⟩

/-- A driver that gives up closes what pieces hold, and then its machine. -/
theorem At.abandons (seat : Option Gen) {q : Process} (closer : List Val → Process) {op : Val} {ps : List (Piece c)}
    (gives : ∀ st, q.step st (.yielded op) =
      (closer (Driver.abandoned st g op)).step st (.value .none))
    (next : ∀ st v rest, (closer (v :: rest)).step st (.value .none) =
      (st, .ask (.closing v) (closer rest)))
    (distinct : ∀ rest, closer rest = closer [] → rest = [])
    (abandoned : ∀ w : World (guest c), w.Bears (I + (facts ps + (F + R))) →
      Driver.abandoned w.store g op = contents ps ++ [.gen g])
    (closes : Closes g F ms gs)
    (h : At (.body seat (.library q) :: A) (.reply (.yielded op)) mem (I + (facts ps + (F + R))) C) :
    Shuts (pieceGens ps ++ gs) C (At (.body seat (.library (closer [])) :: A) (.reply (.value .none))
      (mem.exits (pieceMarks ps ++ ms)) (shut (pieceGens ps ++ gs) + (I + R))) := by
  obtain ⟨w, rfl, rfl, bears⟩ := h
  have gives' := (gives w.store).trans (by rw [abandoned w bears])
  refine shuts_of_step ⟨w, .body seat (.library (closer (contents ps ++ [.gen g]))) :: A,
    .reply (.value .none)⟩ ?_ ?_ ?_ ?_
  · simp only [Config.step_body, Routine.step, gives']
  · cases seat <;> simp only [Activation.body, Config.exits?, Routine.step, gives']
  · rintro ⟨w', same, -, -⟩
    have heads := congrArg (fun C => C.stack.head?) same
    have none_left := distinct (contents ps ++ [.gen g]) (by cases seat <;> simpa [Activation.body] using heads)
    exact List.append_ne_nil_of_right_ne_nil _ (List.cons_ne_nil _ _) none_left
  · have there : At (.body seat (.library (closer (contents ps ++ [.gen g]))) :: A)
        (.reply (.value .none)) w.memory (facts ps + (I + (F + R))) ⟨w, _, _⟩ :=
      At.mk (bears.of_eq (by abel))
    refine (At.closesAll seat closer next there).bind fun C₁ there => ?_
    have asked := At.asksClosing (g := g) (r := closer []) there fun st => next st _ _
    refine asked.before fun C₂ there => ?_
    rw [Memo.exits_append, shut_append]
    refine (closes (there.of_eq (E := F + (shut (pieceGens ps) + (I + R))) (by abel))).mono
      fun C₃ closed => closed.of_eq (by abel)

/-- A driver that has closed everything raises its error. -/
theorem At.errs {q : Process} {op : Val} {ending : Ending} (errs : GivesUp op ending)
    (raises : ∀ st, q.step st (.value .none) =
      ((OneShot.Driver.escapedError st op).1, .raise (OneShot.Driver.escapedError st op).2))
    (h : At (.body seat (.library q) :: A) (.reply (.value .none)) mem F C) :
    ∃ C' x, C.step = .ok C' ∧ ending.Replies (Deep.Answer.failed x).reply ∧
      Turning seat A (Deep.Answer.failed x).turn mem F C' := by
  obtain ⟨w, rfl, rfl, bears⟩ := h
  obtain ⟨st, x, made, engine, replies⟩ := errs w.store
  have stepped : Routine.step w (.library q) (.value .none) =
      ({ w with store := st }, (Deep.Answer.failed x).turn) := by
    simp only [Routine.step, raises, made]
    rfl
  refine ⟨_, x, Config.step_body w A seat _ _, replies, { w with store := st }, ?_, rfl, bears.store st engine⟩
  rw [stepped]

/-- What is known where a driver hears of what it cannot answer. -/
theorem Driver.abandons (ps : List (Piece c)) {op : Val} {ending : Ending}
    (driver : Driver async D B) (unanswered : Unanswered async op ending)
    (errs : GivesUp op ending)
    (abandoned : ∀ w : World (guest c), w.Bears (B + (facts ps + (F + R))) →
      OneShot.Driver.abandoned w.store g op = contents ps ++ [.gen g] ∧
        w.carried op = contents ps ∧ Resting w [.gen g] gs ms)
    (closes : Closes g F ms gs)
    (h : At (D g) (.reply (.yielded op)) mem (B + (facts ps + (F + R))) C) :
    ∃ x, Abandons async (mem.memory.exits (pieceMarks ps ++ ms)) ending C x := by
  obtain ⟨w, same, memory, bears⟩ := id h
  obtain ⟨-, carried, resting⟩ := abandoned w bears
  have rests := (Resting.pieces (bears.of_eq (E := facts ps + (B + (F + R))) (by abel))).append resting
  have gives (w : World (guest c)) (bears : w.Bears (B + (facts ps + (F + R)))) := (abandoned w bears).1
  have log : (mem.memory.exits (pieceMarks ps ++ ms)).log = C.world.memory.memory.log ++
      ((pieceGens ps ++ gs).filterMap (waits? C.world)).map .exit := by
    rw [Memory.log_exits, same, rests.waits, memory]
  have hangs : C.world.Hangs (C.world.carried op ++ [.gen g]) (pieceGens ps ++ gs) := by
    rw [same]
    exact carried ▸ rests.hangs
  have stack : C.stack = D g := by rw [same]
  have signal : C.signal = .reply (.yielded op) := by rw [same]
  cases driver with
  | sync =>
      obtain ⟨C₁, exits, there⟩ := At.abandons none
        (fun rest => .execute (.abandoning op rest)) (fun st => rfl) (fun st v rest => rfl)
        (fun rest same => by cases same; rfl) gives closes h
      obtain ⟨C₂, x, stepped, replies, turned⟩ := At.errs errs (fun st => rfl) there
      obtain ⟨w₁, same₁, -, bears₁⟩ := id there
      obtain ⟨w₂, rfl, memory₂, -⟩ := Turning.returns turned
      refine ⟨x.exc, .intro .sync stack signal unanswered hangs exits bears₁.shut_nodup ?_ log stepped rfl replies
        ⟨0, .refl _⟩ (congrArg Memo.memory memory₂)⟩
      rw [same₁]
      exact bears₁.shut_finished
  | async d n outer =>
      have asks (st : Store) : (Process.executeAsync (.running g n)).step st (.yielded op) =
          (Process.executeAsync (.abandoning op (OneShot.Driver.abandoned st g op))).step st (.value .none) := by
        cases unanswered with
        | resend => rfl
        | escape id action sync => contradiction
      obtain ⟨C₁, exits, there⟩ := At.abandons (some d)
        (fun rest => .executeAsync (.abandoning op rest)) asks (fun st v rest => rfl)
        (fun rest same => by cases same; rfl) gives closes h
      obtain ⟨C₂, x, stepped, replies, turned⟩ := At.errs errs (fun st => rfl) there
      obtain ⟨w₁, same₁, -, bears₁⟩ := id there
      have left := Turning.ends (turned.of_eq (E := {.gen d.id .running} + (shut (pieceGens ps ++ gs) + R))
        (add_left_comm _ _ _))
      obtain ⟨w₂, same₂, -, -⟩ := id left
      obtain ⟨k, C₃, -, reached, w₃, rfl, memory₃, -⟩ := At.loopReturns left
      refine ⟨x.exc, .intro (.async d n outer) stack signal unanswered hangs exits bears₁.shut_nodup ?_ log stepped
        ?_ replies ⟨k, reached⟩ (congrArg Memo.memory memory₃)⟩
      · rw [same₁]
        exact bears₁.shut_finished
      · rw [same₂]
        rfl

/-- An effect that nobody has answered ends the run. -/
theorem Uncaught.abandons (h : Uncaught (Driver async) J e s C) :
    ∃ x, Abandons async (J.memory.closing (.code s :: J.stack)) (.uncaught e) C x := by
  obtain ⟨D, B, es, mem, args, context, p, us, k, id, g, m, driver, recalls, place, marked, here⟩ := h
  have abandons := Driver.abandons (p :: us)
    (F := {.gen g.id (.suspended (Tip.relay m).routine (Tip.relay m : Tip c).how)})
    (R := {.cont k.index (vals (p :: us)) false} + ((Tip.relay m).facts + entryFacts es))
    driver (.resend id e args (.cont k) context) (givesUp_resend place id e args (.cont k)) (fun w bears => ?_)
    ((Tip.relay m).leaves.closes _) (At.of_eq here (by abel))
  · rw [Memory.closing_eq, stackMarks_cons, ← recalls.memory]
    simpa [marked, Tip.marks, Part.marks] using abandons
  · have frames := (bears.of_eq (E := {.cont k.index (vals (p :: us)) false} + (B + (facts (p :: us) +
      ({.gen g.id (.suspended (Tip.relay m).routine (Tip.relay m : Tip c).how)} +
        ((Tip.relay m).facts + entryFacts es))))) (by abel)).frames
    refine ⟨?_, ?_, Resting.tip (.relay m) (bears.of_eq (E := {.gen g.id (.suspended
      (Tip.relay m).routine (Tip.relay m : Tip c).how)} + ((Tip.relay m).facts + (B + (facts (p :: us) +
        ({.cont k.index (vals (p :: us)) false} + entryFacts es))))) (by abel))⟩
    · simp only [OneShot.Driver.abandoned, frames, contents]
    · simp only [World.carried, frames, contents]

theorem Escapes.abandons {t : c.Task} {held : List (Part c.State)} (h : Escapes (Driver false) J t s held C) :
    ∃ x, Abandons false (J.memory.closing held) .escaped C x := by
  obtain ⟨D, B, es, mem, driver, recalls, escaped⟩ := h
  -- The levels are closed from the innermost generator outward.
  have closed {d : Gen} {L : Level c} {Ls : List (Level c)} {id : Nat} {action : Val} {q : Routine (guest c)}
      {how : Suspension} {R : Facts (guest c)} {ms : List (Mark c.State)} (leaves : Leaves q ms)
      (rests : ∀ w : World (guest c), w.status d = .suspended q how → Resting w [.gen d] [d] ms)
      (here : At (D (root d (L :: Ls))) (.reply (.yielded (.escape id action))) mem
        (B + (pausedFacts d (L :: Ls) + {.gen d.id (.suspended q how)} + R)) C) :
      ∃ x, Abandons false (mem.memory.exits (ms ++ marks (L :: Ls))) .escaped C x := by
    refine driver.abandons [] (R := R) (.escape id action rfl) (givesUp_escape id action)
      (fun w bears => ⟨rfl, rfl, ?_⟩) ((leaves.closes how).levels (L :: Ls))
      (At.of_eq here (by simp only [facts]; abel))
    have bears' : w.Bears (pausedFacts d (L :: Ls) + ({.gen d.id (.suspended q how)} + (B + R))) :=
      bears.of_eq (by simp only [facts]; abel)
    exact Resting.levels bears' (rests w (World.status_of bears'.right.here))
  rw [Memory.closing_eq, ← recalls.memory]
  generalize stackMarks held = left at escaped
  cases escaped with
  | @code d L Ls id action C marked asking here =>
      rw [← marked]
      refine closed (leaves_code s) (R := entryFacts es) (fun w status => ⟨.suspended status (by simp [codeRoutine]) .nil, ?_⟩)
        (At.of_eq here (by abel))
      simp [waits?, status, codeRoutine, codes]
  | @clause d g L Ls k p below id i C kind waits marked here =>
      refine closed (leaves_waiting k) (R := {.gen g.id (.fresh (.guest (Body.task t)))} +
        ({.cont k.index (vals (p :: below)) false} + (facts (p :: below) + entryFacts es)))
          (fun w status => ⟨.suspended status (by simp [waitingRoutine]) .nil, ?_⟩) (At.of_eq here (by abel))
      simp [waits?, status, waitingRoutine, codes]

/-- How a run ends from a configuration on: its computation has ended, or its driver gives up. -/
inductive Halts (async : Bool) (M : Memory c) : Ending → Config (guest c) → Prop
  | returns {r : Result} {C : Config (guest c)} (stops : Leads 1 C (Stops M (.result r))) :
      Halts async M (.result r) C
  | abandons {e : Ending} {C : Config (guest c)} (abandons : ∃ x, Abandons async M e C x) : Halts async M e C

theorem Halts.stops {M : Memory c} {e : Ending} (h : Halts async M e C) : Leads 1 C (Stops M e) := by
  cases h with
  | returns stops => exact stops
  | abandons abandons =>
      obtain ⟨x, abandons⟩ := abandons
      refine abandons.stops.mono ?_
      rintro C' ⟨w, rfl, memory, replies⟩
      exact ⟨w, _, rfl, memory, replies⟩

end OneShot.Joined
