import OneShot.Proofs.Deep.Focus
import OneShot.Proofs.Refusal

/-!
# Calls of return handlers, clauses and continuations

What a machine comes to that calls a return handler or a clause, and what a
clause comes to that resumes its continuation.
-/

namespace OneShot.Deep

open Config (Leads Reaches)

variable {c : Code} {layers : List Layer} {s₀ : c.Plain}

/-- A machine that waits for a clause or a return handler. -/
def calling (m : Nat) : Routine (guest c layers s₀) := .library (.machine m .calling)

theorem step_closure (w : World (guest c layers s₀))
    (acts : List (Activation (guest c layers s₀))) (id : Nat) (name : String) (args : List Val)
    (caller : Caller) :
    Config.step ⟨w, acts, .call (.closure id name) args caller⟩ =
      .ok (match enter layers s₀ id args with
        | .run b => ⟨w, .calling (.guest b) :: acts, .reply (.value .none)⟩
        | .spawn kind b =>
            ⟨(w.spawn kind name (.guest b)).1, acts,
              .reply (.value (.gen (w.spawn kind name (.guest b)).2))⟩
        | .fault f => Config.refuse w acts f) := by
  have stepped : Config.step ⟨w, acts, .call (.closure id name) args caller⟩ =
      .ok (Config.call w acts (.closure id name) args caller) := by
    cases acts <;> rfl
  rw [stepped]
  simp only [Config.call]
  cases enter layers s₀ id args <;> rfl

/-! ## What a call gives to a machine -/

theorem step_called {w : World (guest c layers s₀)} (gm : Gen) (m : Nat)
    (acts : List (Activation (guest c layers s₀))) (r : Result) :
    Config.step ⟨w, .running gm (calling m) :: acts, .reply r.answer.reply⟩ =
      .ok (settled w gm m acts r.answer.outcome) := by
  refine (step_machine w gm m _ acts _).trans ?_
  cases r with
  | value v h =>
      simp only [Result.answer, Answer.reply, Machine.step, h]
      rfl
  | failed x =>
      simp only [Result.answer, Answer.reply, Machine.step, Machine.fail, if_pos x.isException]
      rfl

theorem step_answering (w : World (guest c layers s₀)) (r : Result) (reply : Reply)
    (acts : List (Activation (guest c layers s₀))) :
    Config.step ⟨w, .calling (.guest (.answering r)) :: acts, .reply reply⟩ =
      .ok ⟨w, acts, .reply r.answer.reply⟩ := by
  cases r <;> rfl

/-- A machine puts the generator that a call gave on its stack, and starts it. -/
theorem Stage.push {w : World (guest c layers s₀)} {gm : Gen} {m : Nat}
    {acts : List (Activation (guest c layers s₀))} {fs : List (Scope c)} {foot : List Loc}
    (h : Stage w gm m [] acts fs foot) (apart : foot.Nodup) {g : Gen}
    (kind : g.kind = .generator) :
    ∃ w' t, Config.step ⟨w, .running gm (calling m) :: acts, .reply (.value (.gen g))⟩ =
        .ok ⟨w', .running gm (advancing m g) :: acts, .advance g (.send .none)⟩ ∧
      Stage w' gm m [genFrame g t] acts fs foot ∧ w.Changes w' [.machine m] := by
  cases h with
  | @mk vals owner fs fs' foot foot' acts running stack frames nest =>
      let t := w.store.freshTag.2
      let w₁ : World (guest c layers s₀) := { w with store := w.store.freshTag.1 }
      have stack₁ : w₁.store.machines[m]? = some ⟨.own vals, owner⟩ := stack
      let w₂ : World (guest c layers s₀) :=
        { w₁ with store := w₁.store.setStack m (genFrame g t :: vals) }
      have stack₂ : w₂.store.machines[m]? = some ⟨.own (genFrame g t :: vals), owner⟩ :=
        Store.machines_setStack stack₁ _
      have changes : w.Changes w₂ [.machine m] :=
        ((World.Changes.of_store w.store.freshTag.1 rfl).trans
          (World.Changes.setStack stack₁ _)).mono (by simp)
      refine ⟨w₂, t, ?_, .mk running stack₂ (frames.keep changes (by grind [List.Disjoint]))
        (nest.keep changes (by grind [List.Disjoint])), changes⟩
      refine (step_machine w gm m _ acts _).trans (congrArg Except.ok ?_)
      refine Eq.trans ?_ (settled_gen stack₂ acts (.ok .none))
      have made : (Val.gen g).generator? = some g := if_pos kind
      simp only [Machine.step, made]
      rw [show Store.stack _ m = vals from Store.stack_of_own stack₁]
      rfl

/-- A computation that a call gave is run by the machine. -/
theorem Stage.start {w : World (guest c layers s₀)} {gm : Gen} {m : Nat}
    {acts : List (Activation (guest c layers s₀))} {fs : List (Scope c)} {foot foot' : List Loc}
    (h : Stage w gm m [] acts fs foot') {g : Gen} (kind : g.kind = .generator) {q : State c}
    {K : Answer → Prog c} (fresh : w.gens[g.id]? = some (.fresh (code q)))
    (standing : Standing w q K foot) (apart : (.gen g.id :: (foot ++ foot')).Nodup) :
    Leads 1 ⟨w, .running gm (calling m) :: acts, .reply (.value (.gen g))⟩
      (Focus (K (.value .none)) fs) := by
  obtain ⟨w', t, pushed, stage, changes⟩ := h.push (by grind) kind
  have mem : Loc.machine m ∈ foot' := by cases h with | mk => simp
  have fresh' := gen_kept changes fresh (by simp)
  have standing' := standing.keep changes (by grind [List.Disjoint])
  have started : Config.advance w' (.running gm (advancing m g) :: acts) g (.send .none) =
      ⟨w'.setStatus g .running, .running g (code q) :: .running gm (advancing m g) :: acts,
        .reply (Answer.value .none).reply⟩ := by
    simp only [Config.advance, World.status_of fresh']
    rfl
  have changes' := World.Changes.setStatus w' g .running
  have focus : Focus (K (.value .none)) fs ⟨w'.setStatus g .running, .running g (code q) ::
      .running gm (advancing m g) :: acts, .reply (Answer.value .none).reply⟩ :=
    .code (.value .none) rfl (World.getElem?_setStatus (World.has_gen fresh') _)
      (standing'.keep changes' (by grind [List.Disjoint]))
      (stage.keep changes' (by grind [List.Disjoint])) apart
  refine Leads.weaken (n := 2) ?_ (by omega)
  refine .step pushed (.step ?_ (.here focus))
  exact (step_advance _ _ _ _).trans (congrArg Except.ok started)

/-- A function that answers at once. -/
theorem Stage.answered {w : World (guest c layers s₀)} {gm : Gen} {m : Nat}
    {acts : List (Activation (guest c layers s₀))} {fs : List (Scope c)} {foot : List Loc}
    (h : Stage w gm m [] acts fs foot) (apart : foot.Nodup) {id : Nat} {args : List Val}
    {r : Result} (entered : enter layers s₀ id args = .run (.answering r)) (name : String)
    (caller : Caller) :
    Leads 1 ⟨w, .running gm (calling m) :: acts, .call (.closure id name) args caller⟩
      (Focus (.done r) fs) := by
  have called := step_closure w (.running gm (calling m) :: acts) id name args caller
  rw [entered] at called
  refine Leads.weaken (n := 3) ?_ (by omega)
  refine .step called (.step (step_answering _ _ _ _) (.step (step_called _ _ _ _) ?_))
  exact .here (.done r h apart)

/-- A function that makes a generator. -/
theorem Stage.opened {w : World (guest c layers s₀)} {gm : Gen} {m : Nat}
    {acts : List (Activation (guest c layers s₀))} {fs : List (Scope c)} {foot foot' : List Loc}
    (h : Stage w gm m [] acts fs foot') {q : State c} {K : Answer → Prog c}
    (standing : Standing w q K foot) (apart : (foot ++ foot').Nodup) {id : Nat}
    {args : List Val} (entered : enter layers s₀ id args = .spawn .generator (.waiting q))
    (name : String) (caller : Caller) :
    Leads 1 ⟨w, .running gm (calling m) :: acts, .call (.closure id name) args caller⟩
      (Focus (K (.value .none)) fs) := by
  have called := step_closure w (.running gm (calling m) :: acts) id name args caller
  rw [entered] at called
  have changes := World.Changes.spawn w .generator name (code q)
  have new : ∀ l ∈ foot ++ foot', l ≠ .gen (w.spawn .generator name (code q)).2.id := by
    intro l mem same
    have has : w.Has l := by
      rcases List.mem_append.1 mem with inner | outer
      · exact standing.has l inner
      · exact h.has l outer
    rw [same] at has
    exact Nat.lt_irrefl _ has
  refine Leads.weaken (n := 2) ?_ (by omega)
  refine .step called ?_
  exact (h.keep changes (by simp)).start rfl (World.getElem?_spawn _ _ _ _)
    (standing.keep changes (by simp)) (List.nodup_cons.2 ⟨fun mem => new _ mem rfl, apart⟩)

/-- A value passes a handler by its return handler. -/
theorem Stage.returned {w : World (guest c layers s₀)} {gm : Gen} {m : Nat} {l : Layer} {t : Tag}
    {acts : List (Activation (guest c layers s₀))} {fs : List (Scope c)} {foot : List Loc}
    (h : Stage w gm m [layerFrame l t] acts fs foot) (apart : foot.Nodup) (v : Val)
    (plain : v.generator? = none) :
    Leads 1 (settled w gm m acts (.ok v)) (Focus (Prog.returned l v plain) fs) := by
  cases h with
  | @mk vals owner fs fs' foot foot' acts running stack frames nest =>
      let w₁ : World (guest c layers s₀) := { w with store := w.store.setStack m vals }
      have changes : w.Changes w₁ [.machine m] := World.Changes.setStack stack vals
      have stage : Stage w₁ gm m [] acts (fs ++ fs')
          (.gen gm.id :: .machine m :: (foot ++ foot')) :=
        .mk running (Store.machines_setStack stack vals)
          (frames.keep changes (by grind [List.Disjoint]))
          (nest.keep changes (by grind [List.Disjoint]))
      have asked : settled w gm m acts (.ok v) =
          ⟨w₁, .running gm (calling m) :: acts, .call l.handler.onReturn [v] .machine⟩ := by
        rw [settled, settle_layer stack]
        rfl
      rw [asked]
      cases number : l.onReturn with
      | none =>
          have identity : l.handler.onReturn = .native .identity := by
            simp [Layer.handler, number]
          have same : Prog.returned l v plain = (.done (.value v plain) : Prog c) := by
            simp [Prog.returned, number]
          rw [identity, same]
          have called := step_called (w := w₁) gm m acts (.value v plain)
          refine Leads.weaken (n := 2) ?_ (by omega)
          exact .step rfl (.step called (.here (.done _ stage apart)))
      | some i =>
          have closure : l.handler.onReturn = .closure (3 * i + 1) "on_return" := by
            simp [Layer.handler, number]
          have entered := enter_onReturn layers s₀ i v
          rw [closure]
          cases came : c.onReturn i v with
          | result r =>
              have same : Prog.returned l v plain = (.done r : Prog c) := by
                simp [Prog.returned, number, came]
              rw [came] at entered
              rw [same]
              exact stage.answered apart entered _ _
          | run s =>
              have same : Prog.returned l v plain = (.plain s (.value .none) : Prog c) := by
                simp [Prog.returned, number, came]
              rw [came] at entered
              rw [same]
              exact stage.opened (.plain s) apart entered _ _

/-! ## Requests -/

namespace Answer

/-- What the request for an answer sends. -/
def sent : Answer → Val
  | .value v => v
  | .failed _ => .none

/-- What it throws. -/
def thrown : Answer → Val
  | .value _ => .none
  | .failed x => .exc x.exc

end Answer

/-- The generator that asks to resume a continuation. -/
def asking (id : Nat) (k : Cont) (b : Answer) : Routine (guest c layers s₀) :=
  .library (.asking (.yield (.resumption id ⟨.cont k, b.sent, b.thrown⟩) .direct))

section Requesting

variable {w : World (guest c layers s₀)} {k : Cont} {frames : List Val} {inner : Option Val}

/-- The signal of the call that requests a resumption. -/
def Answer.signal (k : Cont) (caller : Caller) : Answer → Signal
  | .value v => .call (.cont k) [v] caller
  | .failed x => .call (.native (.service .throwInto)) [.cont k, .exc x.exc] caller

theorem request_of_pending {s : Store} (pending : s.isTaken k = false) (value error : Val)
    (text : Store → String) :
    ∃ s' id, k.request s value error text =
        (s', .spawn .generator "_request"
          (.asking (.yield (.resumption id ⟨.cont k, value, error⟩) .direct))) ∧
      s'.engine = (s.take k).1.engine := by
  have taken : s.take k = ((s.take k).1, true) := Prod.ext rfl (by simp [pending])
  unfold Cont.request
  rw [taken]
  exact ⟨_, _, rfl, Store.engine_note _ _ _⟩

theorem step_request (h : w.store.conts[k.index]? = some ⟨frames, inner, false⟩)
    (acts : List (Activation (guest c layers s₀))) (b : Answer) (caller : Caller) :
    ∃ w' d id, Config.step ⟨w, acts, b.signal k caller⟩ = .ok ⟨w', acts, .reply (.value (.gen d))⟩ ∧
      d.kind = .generator ∧ w'.gens[d.id]? = some (.fresh (asking id k b)) ∧
      w.Changes w' [.cont k.index] ∧ ¬ w.Has (.gen d.id) ∧
      w'.store.conts[k.index]? = some ⟨frames, inner, true⟩ := by
  have pending : w.store.isTaken k = false := by simp [Store.isTaken, h]
  have made : (b.signal k caller).request? = some ⟨k, b.sent, b.thrown⟩ := by cases b <;> rfl
  have called : ∃ f args, b.signal k caller = .call f args caller := by
    cases b <;> exact ⟨_, _, rfl⟩
  obtain ⟨f, args, call⟩ := called
  rw [call] at made ⊢
  obtain ⟨hf, text, invoked⟩ := Signal.invoke_of_request made w.store
  obtain ⟨s, id, spawned, engine⟩ := request_of_pending pending b.sent b.thrown text
  have stepped : Config.step ⟨w, acts, .call f args caller⟩ =
      .ok (Config.call w acts f args caller) := by
    cases acts <;> rfl
  let w₁ : World (guest c layers s₀) := { w with store := s }
  have changes : w.Changes w₁ [.cont k.index] :=
    ((World.Changes.take w k).trans (World.Changes.of_store s engine)).mono (by simp)
  have spawn := World.Changes.spawn w₁ .generator "_request" (asking id k b)
  refine ⟨(w₁.spawn .generator "_request" (asking id k b)).1, _, id,
    stepped.trans (congrArg Except.ok (Config.call_of_spawn w acts hf (invoked.trans spawned))),
    rfl, World.getElem?_spawn _ _ _ _, (changes.trans spawn).mono (by simp),
    Nat.lt_irrefl _, ?_⟩
  have taken := (Store.conts_take h).2
  rw [← Store.conts_of_engine engine] at taken
  exact taken

/-- A request yields what is to be resumed. -/
theorem leads_asking {d : Gen} {id : Nat} {b : Answer}
    (fresh : w.gens[d.id]? = some (.fresh (asking id k b)))
    (acts : List (Activation (guest c layers s₀))) :
    Reaches 2 ⟨w, acts, .advance d (.send .none)⟩
      ⟨(w.setStatus d .running).setStatus d (.suspended passing .direct), acts,
        .reply (.yielded (.resumption id ⟨.cont k, b.sent, b.thrown⟩))⟩ := by
  have started : Config.advance w acts d (.send .none) =
      ⟨w.setStatus d .running, .running d (asking id k b) :: acts, .reply (.value .none)⟩ := by
    simp only [Config.advance, World.status_of fresh]
    rfl
  exact .step ((step_advance _ _ _ _).trans (congrArg Except.ok started)) (.one rfl)

/-- A machine that gets a request pushes the slice, and delivers the answer to its top. -/
theorem Stage.pushed {gm g : Gen} {m : Nat} {t : Tag} {vals : List Val} {q : State c}
    {K : Answer → Prog c} {acts : List (Activation (guest c layers s₀))}
    {fs fs' : List (Scope c)} {foot foot' spot : List Loc} {taken : Bool}
    (h : Stage w gm m [] acts fs' spot)
    (slice : w.store.conts[k.index]? = some ⟨genFrame g t :: vals, inner, taken⟩)
    (top : w.gens[g.id]? = some (.suspended (code q) .direct)) (standing : Standing w q K foot)
    (below : Frames w vals fs foot') (apart : (.gen g.id :: (foot ++ foot' ++ spot)).Nodup)
    (g₀ : Gen) (id : Nat) (b : Answer) :
    Leads 1 ⟨w, .running gm (advancing m g₀) :: acts,
        .reply (.yielded (.resumption id ⟨.cont k, b.sent, b.thrown⟩))⟩
      (Focus (plug (K b) fs) fs') := by
  cases h with
  | @mk vals' owner gs gs' spot spot' acts running stack frames nest =>
      have lookup : w.store.frames k = genFrame g t :: vals := by simp [Store.frames, slice]
      let w₁ : World (guest c layers s₀) :=
        { w with store := w.store.setStack m (genFrame g t :: (vals ++ vals')) }
      have changes : w.Changes w₁ [.machine m] := World.Changes.setStack stack _
      have stack₁ : w₁.store.machines[m]? =
          some ⟨.own (genFrame g t :: (vals ++ vals')), owner⟩ :=
        Store.machines_setStack stack _
      have received : Config.step ⟨w, .running gm (advancing m g₀) :: acts,
            .reply (.yielded (.resumption id ⟨.cont k, b.sent, b.thrown⟩))⟩ =
          .ok (settled w₁ gm m acts b.outcome) := by
        refine (step_machine w gm m _ acts _).trans ?_
        simp only [Machine.step, Machine.receive, lookup, Store.stack_of_own stack]
        cases b <;> rfl
      rw [settled_gen stack₁] at received
      have top₁ := gen_kept changes top (by simp)
      have changes₁ := World.Changes.setStatus w₁ g .running
      have both := changes.trans changes₁
      have alone : (Loc.gen g.id :: (foot ++ (.gen gm.id :: .machine m ::
          (foot' ++ (spot ++ spot'))))).Nodup := by
        refine World.nodup_of_count apart fun x => ?_
        simp only [List.count_cons, List.count_append]
        omega
      simp only [List.nodup_cons, List.nodup_append, List.mem_cons, List.mem_append] at apart
      have stage : Stage (w₁.setStatus g .running) gm m [genFrame g t] acts (fs ++ (gs ++ gs'))
          (.gen gm.id :: .machine m :: (foot' ++ (spot ++ spot'))) := by
        rw [← List.append_assoc, ← List.append_assoc]
        refine .mk (gen_kept changes₁ (gen_kept changes running (by simp)) (by grind)) stack₁
          ((below.append frames).keep both ?_) (nest.keep both ?_)
        · grind [List.Disjoint]
        · grind [List.Disjoint]
      have focus : Focus (K b) (fs ++ (gs ++ gs')) ⟨w₁.setStatus g .running,
          .running g (code q) :: .running gm (advancing m g) :: acts, .reply b.reply⟩ :=
        .code b rfl (World.getElem?_setStatus (World.has_gen top₁) _)
          (standing.keep both (by grind [List.Disjoint])) stage alone
      refine Leads.weaken (n := 2) ?_ (by omega)
      refine .step received (.step ?_ (.here focus.plug))
      exact (step_advance _ _ _ _).trans (congrArg Except.ok (advance_suspended top₁ _ b))

theorem Stage.bind {gm g d : Gen} {m : Nat} {t : Tag} {s : c.Plain}
    {acts : List (Activation (guest c layers s₀))} {fs : List (Scope c)} {foot : List Loc}
    (h : Stage w gm m [genFrame g t] acts fs foot)
    (clause : w.gens[g.id]? = some (.delegating (code (.plain s)) d))
    (request : w.gens[d.id]? = some (.suspended passing .direct)) :
    ∃ foot', Stage w gm m [] acts (.bind s :: fs) foot' ∧
      foot'.Perm (.gen g.id :: .gen d.id :: foot) := by
  cases h with
  | @mk vals owner fs fs' foot foot' acts running stack frames nest =>
      have stage : Stage w gm m [] acts (.bind s :: fs ++ fs') (.gen gm.id :: .machine m ::
          (.gen g.id :: .gen d.id :: foot ++ foot')) :=
        .mk running stack (.bind clause request frames) nest
      refine ⟨_, stage, ?_⟩
      refine List.perm_iff_count.2 fun x => ?_
      simp only [List.count_cons, List.count_append]
      omega

theorem Stage.pass {gm d : Gen} {m : Nat} {t : Tag}
    {acts : List (Activation (guest c layers s₀))} {fs : List (Scope c)} {foot : List Loc}
    (h : Stage w gm m [genFrame d t] acts fs foot)
    (request : w.gens[d.id]? = some (.suspended passing .direct)) :
    ∃ foot', Stage w gm m [] acts fs foot' ∧ foot'.Perm (.gen d.id :: foot) := by
  cases h with
  | @mk vals owner fs fs' foot foot' acts running stack frames nest =>
      have stage : Stage w gm m [] acts (fs ++ fs') (.gen gm.id :: .machine m ::
          (.gen d.id :: foot ++ foot')) :=
        .mk running stack (.pass request frames) nest
      refine ⟨_, stage, ?_⟩
      refine List.perm_iff_count.2 fun x => ?_
      simp only [List.count_cons, List.count_append]
      omega

/-- A clause resumes its continuation, and goes on with the outcome later. -/
theorem Stage.resume {gm g g' : Gen} {m : Nat} {t t' : Tag} {vals : List Val} {q : State c}
    {K : Answer → Prog c} {acts : List (Activation (guest c layers s₀))}
    {fs fs' : List (Scope c)} {foot foot' spot : List Loc} {s : c.Holding} {s' : c.Plain}
    {a b : Answer} (h : Stage w gm m [genFrame g t] acts fs' spot)
    (slice : w.store.conts[k.index]? = some ⟨genFrame g' t' :: vals, inner, false⟩)
    (top : w.gens[g'.id]? = some (.suspended (code q) .direct)) (standing : Standing w q K foot)
    (below : Frames w vals fs foot') (running : w.gens[g.id]? = some .running)
    (apart : (.gen g.id :: .cont k.index :: .gen g'.id :: (foot ++ foot' ++ spot)).Nodup)
    (acted : c.holding s a = .resume b s') :
    Leads 1 ⟨w, .running g (code (.holding s k)) :: .running gm (advancing m g) :: acts,
        .reply a.reply⟩
      (Focus (plug (K b) fs) (.bind s' :: fs')) := by
  have asked : Config.step ⟨w, .running g (code (.holding s k)) ::
        .running gm (advancing m g) :: acts, .reply a.reply⟩ =
      .ok ⟨w, .running g (.guest (.requesting s')) :: .running gm (advancing m g) :: acts,
        b.signal k .program⟩ := by
    have stepped : (Body.waiting (.holding s k)).step a.reply = .ask (b.call k) (.requesting s') := by
      simp only [Body.step, Answer.ofReply?_reply, Body.act, acted]
    change Except.ok (Config.turnOf w (.running gm (advancing m g) :: acts) g
      (((Body.waiting (.holding s k)).step a.reply).map .guest)) = _
    rw [stepped]
    cases b <;> rfl
  obtain ⟨w₁, d, id, requested, kind, fresh, changes, new, taken⟩ :=
    step_request slice (.running g (.guest (.requesting s')) ::
      .running gm (advancing m g) :: acts) b .program
  have made : (Val.gen d).generator? = some d := if_pos kind
  have delegated : Config.step ⟨w₁, .running g (.guest (.requesting s')) ::
        .running gm (advancing m g) :: acts, .reply (.value (.gen d))⟩ =
      .ok ⟨w₁, .relaying g (code (.plain s')) d :: .running gm (advancing m g) :: acts,
        .advance d (.send .none)⟩ := by
    change Except.ok (Config.turnOf w₁ (.running gm (advancing m g) :: acts) g
      (.ask (.delegate (.gen d)) (code (.plain s')))) = _
    simp only [Config.turnOf, made]
  let w₂ := (w₁.setStatus d .running).setStatus d (.suspended passing .direct)
  let w₃ := w₂.setStatus g (.delegating (code (.plain s')) d)
  have changes₂ : w₁.Changes w₂ [.gen d.id] :=
    ((World.Changes.setStatus w₁ d _).trans (World.Changes.setStatus _ d _)).mono (by simp)
  have changes₃ : w₂.Changes w₃ [.gen g.id] := World.Changes.setStatus w₂ g _
  have all : w.Changes w₃ [.cont k.index, .gen d.id, .gen g.id] :=
    (changes.trans (changes₂.trans changes₃)).mono (by simp)
  have yielded := leads_asking fresh (.relaying g (code (.plain s')) d ::
    .running gm (advancing m g) :: acts)
  have relayed : Config.step ⟨w₂, .relaying g (code (.plain s')) d ::
        .running gm (advancing m g) :: acts,
        .reply (.yielded (.resumption id ⟨.cont k, b.sent, b.thrown⟩))⟩ =
      .ok ⟨w₃, .running gm (advancing m g) :: acts,
        .reply (.yielded (.resumption id ⟨.cont k, b.sent, b.thrown⟩))⟩ := rfl
  have out : ∀ l ∈ foot ++ foot' ++ spot, l ≠ .gen d.id := by
    intro l mem same
    have has : w.Has l := by
      simp only [List.mem_append] at mem
      rcases mem with (first | second) | third
      · exact standing.has l first
      · exact below.has l second
      · exact h.has l third
    exact new (same ▸ has)
  have other : g.id ≠ d.id := fun same => new (same ▸ World.has_gen running)
  have other' : g'.id ≠ d.id := fun same => new (same ▸ World.has_gen top)
  have request : w₃.gens[d.id]? = some (.suspended passing .direct) := by
    refine gen_kept changes₃ (World.getElem?_setStatus ?_ _) (by simpa using Ne.symm other)
    exact World.has_gen (World.getElem?_setStatus (World.has_gen fresh) .running)
  have clause : w₃.gens[g.id]? = some (.delegating (code (.plain s')) d) := by
    refine World.getElem?_setStatus ?_ _
    have there := gen_kept changes running (by simp)
    exact World.has_gen (gen_kept changes₂ there (by simpa using other))
  have alone : ∀ l ∈ foot ++ foot' ++ spot, l ≠ .cont k.index ∧ l ≠ .gen g.id := by
    simp only [List.nodup_cons, List.mem_cons, not_or] at apart
    intro l mem
    exact ⟨fun same => apart.2.1.2 (same ▸ mem), fun same => apart.1.2.2 (same ▸ mem)⟩
  have disjoint : (foot ++ foot' ++ spot).Disjoint [.cont k.index, .gen d.id, .gen g.id] := by
    intro l mem place
    simp only [List.mem_cons, List.not_mem_nil, or_false] at place
    rcases place with same | same | same
    · exact (alone l mem).1 same
    · exact out l mem same
    · exact (alone l mem).2 same
  simp only [List.disjoint_append_left] at disjoint
  obtain ⟨spot', stage, perm⟩ := (h.keep all disjoint.2).bind clause request
  have slice₃ : w₃.store.conts[k.index]? = some ⟨genFrame g' t' :: vals, inner, true⟩ := taken
  have top₃ : w₃.gens[g'.id]? = some (.suspended (code q) .direct) := by
    refine gen_kept all top ?_
    simp only [List.nodup_cons, List.mem_cons, not_or] at apart
    simp only [List.mem_cons, Loc.gen.injEq, List.not_mem_nil, or_false, reduceCtorEq,
      false_or, not_or]
    exact ⟨other', fun same => apart.1.2.1 (congrArg Loc.gen same.symm)⟩
  have nodup : (Loc.gen g'.id :: (foot ++ foot' ++ spot')).Nodup := by
    refine World.nodup_of_count (l := .gen d.id :: .gen g.id :: .cont k.index :: .gen g'.id ::
      (foot ++ foot' ++ spot)) (List.nodup_cons.2 ⟨?_, apart⟩) fun x => ?_
    · intro mem
      simp only [List.mem_cons, Loc.gen.injEq, reduceCtorEq, false_or] at mem
      rcases mem with same | same | mem
      · exact other same.symm
      · exact other' same.symm
      · exact out _ mem rfl
    · simp only [List.count_cons, List.count_append, perm.count_eq]
      omega
  have pushed := stage.pushed slice₃ top₃ (standing.keep all disjoint.1.1)
    (below.keep all disjoint.1.2) nodup g id b
  refine Leads.weaken (n := 7) ?_ (by omega)
  refine .step asked (.step requested (.step delegated ?_))
  exact (Leads.reached yielded (.step relayed pushed)).weaken (by omega)

/-- A clause that is a plain function passes the resumption of its continuation on. -/
theorem Stage.resumeAtOnce {gm g' : Gen} {m : Nat} {t' : Tag} {vals : List Val} {q : State c}
    {K : Answer → Prog c} {acts : List (Activation (guest c layers s₀))}
    {fs fs' : List (Scope c)} {foot foot' spot : List Loc} {b : Answer}
    (h : Stage w gm m [] acts fs' spot)
    (slice : w.store.conts[k.index]? = some ⟨genFrame g' t' :: vals, inner, false⟩)
    (top : w.gens[g'.id]? = some (.suspended (code q) .direct)) (standing : Standing w q K foot)
    (below : Frames w vals fs foot')
    (apart : (.cont k.index :: .gen g'.id :: (foot ++ foot' ++ spot)).Nodup) {id : Nat}
    {args : List Val} (entered : enter layers s₀ id args = .run (.resuming k b)) (name : String)
    (caller : Caller) :
    Leads 1 ⟨w, .running gm (calling m) :: acts, .call (.closure id name) args caller⟩
      (Focus (plug (K b) fs) fs') := by
  have called := step_closure w (.running gm (calling m) :: acts) id name args caller
  rw [entered] at called
  have asked : Config.step ⟨w, .calling (.guest (.resuming k b)) :: .running gm (calling m) :: acts,
        .reply (.value .none)⟩ =
      .ok ⟨w, .calling (.guest .passing) :: .running gm (calling m) :: acts,
        b.signal k .program⟩ := by
    cases b <;> rfl
  obtain ⟨w₁, d, i, requested, kind, fresh, changes, new, taken⟩ :=
    step_request slice (.calling (.guest .passing) :: .running gm (calling m) :: acts) b .program
  have passed : Config.step ⟨w₁, .calling (.guest .passing) :: .running gm (calling m) :: acts,
        .reply (.value (.gen d))⟩ =
      .ok ⟨w₁, .running gm (calling m) :: acts, .reply (.value (.gen d))⟩ := rfl
  have out : ∀ l ∈ foot ++ foot' ++ spot, l ≠ .gen d.id := by
    intro l mem same
    have has : w.Has l := by
      simp only [List.mem_append] at mem
      rcases mem with (first | second) | third
      · exact standing.has l first
      · exact below.has l second
      · exact h.has l third
    exact new (same ▸ has)
  have other : g'.id ≠ d.id := fun same => new (same ▸ World.has_gen top)
  have machine : Loc.machine m ∈ spot := by
    cases h with | mk => simp
  have alone : ∀ l ∈ foot ++ foot' ++ spot, l ≠ .cont k.index := by
    simp only [List.nodup_cons, List.mem_cons, not_or] at apart
    exact fun l mem same => apart.1.2 (same ▸ mem)
  have separate : ∀ l ∈ foot ++ foot', l ≠ .machine m := by
    simp only [List.nodup_cons, List.nodup_append] at apart
    intro l mem
    exact apart.2.2.2.2 l mem _ machine
  have stage₁ := h.keep changes fun l mem place => alone l (by simp [mem]) (by simpa using place)
  obtain ⟨w₂, t, pushed, stage₂, changes₂⟩ := stage₁.push
    (World.nodup_of_count apart fun x => by simp only [List.count_cons, List.count_append]; omega) kind
  have fresh₂ := gen_kept changes₂ fresh (by simp)
  have yielded := leads_asking fresh₂ (.running gm (advancing m d) :: acts)
  let w₃ := (w₂.setStatus d .running).setStatus d (.suspended passing .direct)
  have changes₃ : w₂.Changes w₃ [.gen d.id] :=
    ((World.Changes.setStatus w₂ d _).trans (World.Changes.setStatus _ d _)).mono (by simp)
  have all : w.Changes w₃ [.cont k.index, .machine m, .gen d.id] :=
    (changes.trans (changes₂.trans changes₃)).mono (by simp)
  have request : w₃.gens[d.id]? = some (.suspended passing .direct) := by
    refine World.getElem?_setStatus ?_ _
    exact World.has_gen (World.getElem?_setStatus (World.has_gen fresh₂) .running)
  have stage₃ := stage₂.keep changes₃ fun l mem place =>
    out l (by simp [mem]) (by simpa using place)
  obtain ⟨spot', stage, perm⟩ := stage₃.pass request
  have slice₃ : w₃.store.conts[k.index]? = some ⟨genFrame g' t' :: vals, inner, true⟩ :=
    cont_kept changes₂ taken (by simp)
  have top₃ : w₃.gens[g'.id]? = some (.suspended (code q) .direct) :=
    gen_kept all top (by simpa using other)
  have disjoint : (foot ++ foot').Disjoint [.cont k.index, .machine m, .gen d.id] := by
    intro l mem place
    simp only [List.mem_cons, List.not_mem_nil, or_false] at place
    rcases place with same | same | same
    · exact alone l (List.mem_append_left _ mem) same
    · exact separate l mem same
    · exact out l (List.mem_append_left _ mem) same
  simp only [List.disjoint_append_left] at disjoint
  have nodup : (Loc.gen g'.id :: (foot ++ foot' ++ spot')).Nodup := by
    refine World.nodup_of_count (l := .gen d.id :: .cont k.index :: .gen g'.id ::
      (foot ++ foot' ++ spot)) (List.nodup_cons.2 ⟨?_, apart⟩) fun x => ?_
    · intro mem
      simp only [List.mem_cons, Loc.gen.injEq, reduceCtorEq, false_or] at mem
      rcases mem with same | mem
      · exact other same.symm
      · exact out _ mem rfl
    · simp only [List.count_cons, List.count_append, perm.count_eq]
      omega
  have resumed := stage.pushed slice₃ top₃ (standing.keep all disjoint.1)
    (below.keep all disjoint.2) nodup d i b
  refine Leads.weaken (n := 8) ?_ (by omega)
  refine .step called (.step asked (.step requested (.step passed (.step pushed ?_))))
  exact (Leads.reached yielded resumed).weaken (by omega)

/-- A machine calls the clause of an effect with the continuation that it captured. -/
theorem Stage.clause {gm g : Gen} {m : Nat} {t : Tag} {vals : List Val} {q : State c}
    {K : Answer → Prog c} {acts : List (Activation (guest c layers s₀))}
    {fs gs : List (Scope c)} {foot foot' spot : List Loc} (h : Stage w gm m [] acts gs spot)
    (slice : w.store.conts[k.index]? = some ⟨genFrame g t :: vals, inner, false⟩)
    (top : w.gens[g.id]? = some (.suspended (code q) .direct)) (standing : Standing w q K foot)
    (below : Frames w vals fs foot')
    (apart : (.cont k.index :: .gen g.id :: (foot ++ foot' ++ spot)).Nodup) (j : Nat)
    (args : List Val) (caller : Caller) :
    Leads 1 ⟨w, .running gm (calling m) :: acts,
        .call (.closure (3 * j + 2) "clause") (.cont k :: args) caller⟩
      (Focus (Prog.clause j (fun b => plug (K b) fs) args) gs) := by
  have entered := enter_clause layers s₀ j k args
  cases came : c.clause j args with
  | result r =>
      have same : Prog.clause j (fun b => plug (K b) fs) args = .done r := by
        simp [Prog.clause, came]
      rw [came] at entered
      rw [same]
      refine h.answered (World.nodup_of_count apart fun x => ?_) entered _ _
      simp only [List.count_cons, List.count_append]
      omega
  | resume b =>
      have same : Prog.clause j (fun b => plug (K b) fs) args = plug (K b) fs := by
        simp [Prog.clause, came]
      rw [came] at entered
      rw [same]
      exact h.resumeAtOnce slice top standing below apart entered _ _
  | run s =>
      have same : Prog.clause j (fun b => plug (K b) fs) args =
          .holding s (.value .none) fun b => plug (K b) fs := by
        simp [Prog.clause, came]
      rw [came] at entered
      rw [same]
      refine h.opened (.holding slice top standing below) ?_ entered _ _
      simpa using apart

end Requesting

end OneShot.Deep
