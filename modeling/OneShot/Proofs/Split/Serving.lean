import OneShot.Proofs.Frames.Uttering
import OneShot.Proofs.Split.Advancing

/-!
# Replies to what runs no machine

Replies to code and to the routines of the library, and to what waits for a generator.
Where the first run closes the relay as well, it takes some steps more.
-/

namespace OneShot.Split

open Config (Reaches)
open List (Forall₂)

variable {c : Code} {J : Joint} {w w' : World (guest c)} {S T : List (Activation (guest c))} {g h : Gen} {r r' : Reply}
  {seat seat' : Option Gen} {vs ws : List Val}

/-! ## The relay is closed -/

/-- A machine that has resent everything is told to exit, and does so. -/
theorem reaches_exit {x : Exc} (w : World (guest c)) (S : List (Activation (guest c))) (m : Nat) (exit : x.kind = .generatorExit) :
    Reaches 2 ⟨w, .running g (machine m .resent) :: .closing g :: S, .reply (.raised x)⟩
      (Config.reply (w.setStatus g .finished) S (.value .none)) := by
  have fatal : x.isException = false := by
    rw [Exc.isException, exit]
    decide
  have leaves : x.kind.isA .generatorExit = true := by
    rw [exit]
    decide
  have left : Config.step ⟨w, .running g (machine m .resent) :: .closing g :: S, .reply (.raised x)⟩ =
      .ok (Config.reply (w.setStatus g .finished) (.closing g :: S) (.raised x)) := by
    rw [show Config.step ⟨w, .running g (machine m .resent) :: .closing g :: S, .reply (.raised x)⟩ = _ from
      Machine.step_activation w g m .resent (.closing g :: S) (.raised x)]
    simp [Machine.step, Machine.fail, fatal, Machine.turned, Turn.map, Config.turnOf, Config.leave, exit]
  refine .step left (.one ?_)
  simp [Config.step, Config.reply, Config.deliver, leaves]

/-- The relay is closed quietly, if it still waits for something. -/
theorem Worlds.closes_relay (W : Worlds J w w') (lost : J.place = .lost) (S : List (Activation (guest c))) :
    ∃ n w₁, Reaches n ⟨w, S, .close J.seam.relay⟩ (Config.reply w₁ S (.value .none)) ∧
      Worlds (J.on w₁.store w'.store) w₁ w' ∧ J.Keeps (J.on w₁.store w'.store) (fun _ => False) fun _ => False := by
  rcases W.lost lost with relays | finished
  · let made := w.store.newException .generatorExit [] .plain
    let told : World (guest c) := { w with store := made.1 }
    have W' : Worlds (J.on made.1 w'.store) told w' := W.quiet _ _ rfl rfl
    have closed := W'.setRelay .finished (by simp [Joint.after, lost]) (by simp [Joint.after, lost])
      (by simp [Joint.after, lost, Place.Holds]) fun _ => .inr rfl
    have exits := reaches_exit (g := J.seam.relay) (x := made.2) (told.setStatus J.seam.relay .running) S J.seam.inner rfl
    rw [World.setStatus_setStatus] at exits
    refine ⟨3, told.setStatus J.seam.relay .finished, .step ?_ exits, closed, W.keeps_quiet _ _ rfl rfl⟩
    rw [Config.step_close', Config.close, relays.waits]
    rfl
  · refine ⟨1, w, .one ?_, W.quiet w.store w'.store rfl rfl, W.keeps_quiet _ _ rfl rfl⟩
    rw [Config.step_close', Config.close, finished]

theorem step_closing (w : World (guest c)) (vs : List Val) (v : Val) :
    Routine.step w (.library (.closing vs)) (.value v) = (w, (Process.closeNext w.store vs).2.map .library) := by
  cases vs <;> rfl

theorem turned_closeNext (w : World (guest c)) (S : List (Activation (guest c))) (seat : Option Gen) (s : Store) (g : Gen)
    (vs : List Val) : Config.turned w S seat ((Process.closeNext s (.gen g :: vs)).2.map .library) =
      ⟨w, .body seat (.library (.closing vs)) :: S, .close g⟩ :=
  turned_close S _ w seat g

/-- What is to be closed is closed, one after the other. -/
theorem Worlds.closesNext (contents : Contents J.names J.seam.relay (J.place = .lost) vs ws) (W : Worlds J w w')
    (layout : Stacks J S T) (seats : SeatAlike J.names seat seat') (heard : seat.isSome → Heard S) :
    Meets J.lone (Config.turned w S seat ((Process.closeNext w.store vs).2.map .library))
      (Config.turned w' T seat' ((Process.closeNext w'.store ws).2.map .library)) := by
  generalize same : J.names = N at contents
  generalize same' : J.seam.relay = n at contents
  generalize here : (J.place = .lost) = P at contents
  induction contents generalizing J w with
  | nil => exact (W.turned_done layout seats .none).meets
  | @cons g h vs ws pair rest ih =>
      subst same same' here
      rw [turned_closeNext, turned_closeNext]
      exact (Corresponds.joint J W (layout.body seats heard (.closing rest)) (.close pair)).meets
  | @relay vs ws allowed rest ih =>
      subst same same' here
      obtain ⟨n, w₁, reached, W₁, keeps⟩ := W.closes_relay allowed (.body seat (.library (.closing vs)) :: S)
      rw [turned_closeNext]
      refine Meets.before (fun alone => by simpa [allowed] using W.lone alone) (reached.trans (.one (Config.step_body w₁ S seat _ _))) (.refl _) ?_
      rw [step_closing]
      exact ih (J := J.on w₁.store w'.store) W₁ (layout.keep keeps fun _ _ => id) (seats.mono keeps.names) rfl rfl rfl

/-! ## Machines that are made -/

/-- Both runs make a machine. -/
theorem Worlds.turns_machine (W : Worlds J w w') (u u' : Store) (same : u.engine = w.store.engine)
    (same' : u'.engine = w'.store.engine) (fs fs' : List Val) (v v' : Val) :
    Turns J (fun _ => False) (fun _ => False) (u.newMachine (.own fs) v).1 (u'.newMachine (.own fs') v').1 J.place := by
  have quiet := W.turns_quiet same same'
  exact {
    seats := J.seats_none
    moves := .stays rfl
    owned := quiet.owned.newMachine fs v
    owned' := quiet.owned'.newMachine fs' v'
    settings := quiet.settings
    machines := Nat.le_trans quiet.machines (by simp [Store.newMachine])
    machines' := Nat.le_trans quiet.machines' (by simp [Store.newMachine])
    onStacks := fun m i ran idle => by
      have inside := W.runs m i ran
      rw [W.store] at inside
      rw [Store.stack_newMachine, if_neg (Nat.ne_of_lt (Nat.lt_of_lt_of_le inside quiet.machines))]
      exact quiet.onStacks m i ran idle
    onStacks' := fun m i ran idle => by
      have inside := W.runs' m i ran
      rw [W.store'] at inside
      rw [Store.stack_newMachine, if_neg (Nat.ne_of_lt (Nat.lt_of_lt_of_le inside quiet.machines'))]
      exact quiet.onStacks' m i ran idle
    frames := quiet.frames
    taken := quiet.taken
    conts := quiet.conts
    conts' := quiet.conts' }

/-- A machine that is made of a generator and a handler is run. -/
theorem Worlds.applied (W : Worlds J w w') (layout : Stacks J S T) (seats : SeatAlike J.names seat seat')
    (heard : seat.isSome → Heard S) (l : Layer) (t u : Tag) (pair : J.names.gens g h) :
    Meets J.lone (Config.turned (Routine.step w (.library (.applied l.handler t)) (.value (.gen g))).1 S seat
        (Routine.step w (.library (.applied l.handler t)) (.value (.gen g))).2)
      (Config.turned (Routine.step w' (.library (.applied l.handler u)) (.value (.gen h))).1 T seat'
        (Routine.step w' (.library (.applied l.handler u)) (.value (.gen h))).2) := by
  let fs : List Val := [genFrame g w.store.freshTag.2, layerFrame l t]
  let fs' : List Val := [genFrame h w'.store.freshTag.2, layerFrame l u]
  let made := w.store.freshTag.1.newMachine (.own fs) (.handler l.handler)
  let made' := w'.store.freshTag.1.newMachine (.own fs') (.handler l.handler)
  have turns : Turns J (fun _ => False) (fun _ => False) made.1 made'.1 J.place := W.turns_machine w.store.freshTag.1 w'.store.freshTag.1 rfl rfl fs fs' _ _
  have keeps := turns.keeps (le_refl _)
  have W' := W.sets turns (fun _ _ _ => False.elim) fun live other => absurd live other
  have first : Routine.step w (.library (.applied l.handler t)) (.value (.gen g)) =
      ({ w with store := made.1 }, .ask (.call (.native (.service .runMachine)) [.machine made.2]) (.library .passing)) := rfl
  have second : Routine.step w' (.library (.applied l.handler u)) (.value (.gen h)) =
      ({ w' with store := made'.1 }, .ask (.call (.native (.service .runMachine)) [.machine made'.2]) (.library .passing)) := rfl
  rw [first, second, turned_call, turned_call]
  have idle : J.runs w.store.machines.size = none := by
    cases ran : J.runs w.store.machines.size with
    | none => rfl
    | some i => exact absurd (W.runs _ i ran) (Nat.lt_irrefl _)
  have idle' : J.runs' w'.store.machines.size = none := by
    cases ran : J.runs' w'.store.machines.size with
    | none => rfl
    | some i => exact absurd (W.runs' _ i ran) (Nat.lt_irrefl _)
  have stack : made.1.stack made.2 = fs := (Store.stack_newMachine _ _ _ _).trans (if_pos rfl)
  have stack' : made'.1.stack made'.2 = fs' := (Store.stack_newMachine _ _ _ _).trans (if_pos rfl)
  refine (Corresponds.joint _ W' ((layout.keep keeps fun _ _ => id).body (seats.mono keeps.names) heard .passing)
    (.runMachine _ ?_ ?_ idle idle' ?_)).meets
  · exact Nat.lt_of_lt_of_eq (Nat.lt_succ_self _) (Array.size_push _).symm
  · exact Nat.lt_of_lt_of_eq (Nat.lt_succ_self _) (Array.size_push _).symm
  · refine ⟨fs', stack'.trans (List.append_nil _).symm, ?_⟩
    show Spread J.names _ _ (made.1.stack made.2) fs'
    rw [stack]
    exact .cons (.gen _ _ pair) (.cons (.layer l _ _) .nil)

/-! ## Replies -/

/-- Of the routines of the library only machines are told of suspensions. -/
theorem not_hears {p : Process} (seat : Option Gen) (silent : ∀ m u, p ≠ .machine m (.advancing u)) :
    ¬Hears (.body seat (.library p) : Activation (guest c)) := by
  cases seat with
  | none => exact id
  | some g =>
      cases p with
      | machine m phase =>
          cases phase with
          | advancing u => exact absurd rfl (silent m u)
          | _ => exact id
      | _ => exact id

theorem step_applied_other (w : World (guest c)) (h : Handler) (t : Tag) {v : Val} (other : ∀ g, v ≠ .gen g) :
    Routine.step w (.library (.applied h t)) (.value v) = (w, .done v) := by
  cases v <;> first | rfl | exact absurd rfl (other _)

/-- What a call has given is converted. -/
theorem Worlds.converted (W : Worlds J w w') (layout : Stacks J S T) (seats : SeatAlike J.names seat seat') {v v' : Val}
    (alike : Alike J.names v v') :
    Corresponds J.lone
      (Config.turned (Routine.step w (.library .converting) (.value v)).1 S seat (Routine.step w (.library .converting) (.value v)).2)
      (Config.turned (Routine.step w' (.library .converting) (.value v')).1 T seat'
        (Routine.step w' (.library .converting) (.value v')).2) := by
  rcases alike.generator? with ⟨other, other'⟩ | ⟨g, h, rfl, rfl, pair⟩
  · simp only [Routine.step, Process.step, other, other', Turn.map]
    exact W.turned_fault layout seats (.about rfl rfl rfl rfl)
  · obtain ⟨-, -, kind, kind'⟩ := W.fits.gen pair
    have found : (Val.gen g).generator? = some g := if_pos kind
    have found' : (Val.gen h).generator? = some h := if_pos kind'
    simp only [Routine.step, Process.step, found, found', Turn.map]
    exact W.turned_done layout seats (.gen pair)

/-- Code and routines of the library that run no machine get a reply. -/
theorem Worlds.serves (W : Worlds J w w') (layout : Stacks J S T) (seats : SeatAlike J.names seat seat')
    (heard : seat.isSome → Heard S) {p q : Routine (guest c)} (alike : PlainAlike J p q) (reply : ReplyAlike J r r')
    (hears : ∀ v, r = .yielded v → Hears (.body seat p)) :
    Meets J.lone (Config.turned (p.step w r).1 S seat (p.step w r).2) (Config.turned (q.step w' r').1 T seat' (q.step w' r').2) := by
  have code (s : c.State) : Meets J.lone (Config.turned (Routine.step w (.guest (.code s)) r).1 S seat (Routine.step w (.guest (.code s)) r).2)
      (Config.turned (Routine.step w' (.guest (.code s)) r').1 T seat' (Routine.step w' (.guest (.code s)) r').2) := by
    obtain ⟨memory, turn⟩ := W.memory.answered W.fits.toOnce s reply
    exact (W.memory_alike memory).turned layout seats heard turn
  have raised {p q : Process} {x x' : Exc} (alike : Alike J.names (.exc x) (.exc x'))
      (first : p.step w.store (.raised x) = (w.store, .raise x)) (second : q.step w'.store (.raised x') = (w'.store, .raise x')) :
      Meets J.lone (Config.turned (Routine.step w (.library p) (.raised x)).1 S seat (Routine.step w (.library p) (.raised x)).2)
        (Config.turned (Routine.step w' (.library q) (.raised x')).1 T seat' (Routine.step w' (.library q) (.raised x')).2) := by
    simp only [Routine.step, first, second, Turn.map]
    exact (W.turned_raise layout seats alike).meets
  have deaf {p : Process} {v : Val} {P : Prop} (told : ∀ u, Reply.yielded v = .yielded u → Hears (.body seat (.library p) : Activation (guest c)))
      (silent : ∀ m u, p ≠ .machine m (.advancing u)) : P := absurd (told v rfl) (not_hears seat silent)
  cases alike with
  | code s => exact code s
  | looking s v =>
      obtain ⟨memory, turn⟩ := W.memory.looked W.fits.toOnce s v r r'
      exact (W.memory_alike memory).turned layout seats heard turn
  | @discarding s k l pair slices =>
      cases reply with
      | value alike =>
          show Meets J.lone (Config.turned w S seat (.ask (.call (.native (.service .close)) [.cont k]) (.guest (.code s))))
            (Config.turned w' T seat' (.ask (.call (.native (.service .close)) [.cont l]) (.guest (.code s))))
          rw [turned_call, turned_call]
          exact (Corresponds.joint J W (layout.body_code seats heard s) (.dismiss _ pair slices)).meets
      | _ => exact code s
  | @calling v v' alike =>
      show Meets J.lone (Config.turned w S seat (.ask (.call v []) (.library .converting)))
        (Config.turned w' T seat' (.ask (.call v' []) (.library .converting)))
      rw [turned_call, turned_call]
      exact (Corresponds.joint J W (layout.body seats heard .converting) (.call _ alike .nil)).meets
  | converting =>
      cases reply with
      | value alike => exact (W.converted layout seats alike).meets
      | raised alike => exact raised alike rfl rfl
      | _ => exact deaf hears fun _ _ => by simp
  | @applying l t u v v' alike =>
      show Meets J.lone (Config.turned w S seat (.ask (.call (.native (.service .toGenerator)) [v]) (.library (.applied l.handler t))))
        (Config.turned w' T seat' (.ask (.call (.native (.service .toGenerator)) [v']) (.library (.applied l.handler u))))
      rw [turned_call, turned_call]
      exact (Corresponds.joint J W (layout.body seats heard (.applied l t u)) (.convert _ alike)).meets
  | applied l t u =>
      cases reply with
      | value alike =>
          rcases alike.gen? with ⟨g, h, rfl, rfl, pair⟩ | ⟨other, other'⟩
          · exact W.applied layout seats heard l t u pair
          · rw [step_applied_other w _ _ other, step_applied_other w' _ _ other']
            exact (W.turned_done layout seats alike).meets
      | raised alike => exact raised alike rfl rfl
      | _ => exact deaf hears fun _ _ => by simp
  | passing =>
      cases reply with
      | value alike => exact (W.turned_done layout seats alike).meets
      | raised alike => exact raised alike rfl rfl
      | _ => exact deaf hears fun _ _ => by simp
  | closing contents =>
      cases reply with
      | value alike =>
          rw [step_closing, step_closing]
          exact W.closesNext contents layout seats heard
      | raised alike => exact raised alike rfl rfl
      | _ => exact deaf hears fun _ _ => by simp

/-! ## What waits for a generator -/

theorem ReplyAlike.yields (reply : ReplyAlike J r r') : (∃ v v', r = .yielded v ∧ r' = .yielded v') ∨
    (∃ v v', r = .value v ∧ r' = .value v' ∧ Alike J.names v v') ∨
    ∃ x x', r = .raised x ∧ r' = .raised x' ∧ Alike J.names (.exc x) (.exc x') := by
  cases reply with
  | value alike => exact .inr (.inl ⟨_, _, rfl, rfl, alike⟩)
  | raised alike => exact .inr (.inr ⟨_, _, rfl, rfl, alike⟩)
  | _ => exact .inl ⟨_, _, rfl, rfl⟩

/-- A generator in the place of which another one runs gets a reply. -/
theorem Worlds.relays (W : Worlds J w w') (layout : Stacks J S T) (heard : Heard S) (s : c.State) {d e : Gen}
    (pair : J.names.gens g h) (below : J.names.gens d e) (reply : ReplyAlike J r r') :
    Corresponds J.lone (Config.deliver w (.relaying g (.guest (.code s)) d) S r)
      (Config.deliver w' (.relaying h (.guest (.code s)) e) T r') := by
  have goes : Stacks J (.running g (.guest (.code s)) :: S) (.running h (.guest (.code s)) :: T) :=
    layout.body_code (.generator pair) (fun _ => heard) s
  rcases reply.yields with ⟨v, v', rfl, rfl⟩ | ⟨v, v', rfl, rfl, alike⟩ | ⟨x, x', rfl, rfl, alike⟩
  · exact .joint J (W.setStatus pair (.delegating s below)) layout (.reply reply fun _ _ => heard)
  · exact W.gives goes alike
  · simp only [Config.deliver, Reply.ended, alike.kind]
    split
    · rename_i stop
      exact W.gives goes (alike.stopValue (alike.kind.trans stop))
    · exact W.raises goes alike

theorem Worlds.closed (W : Worlds J w w') (layout : Stacks J S T) (pair : J.names.gens g h) (reply : ReplyAlike J r r') :
    Corresponds J.lone (Config.deliver w (.closing g) S r) (Config.deliver w' (.closing h) T r') := by
  obtain ⟨-, -, kind, kind'⟩ := W.fits.gen pair
  rcases reply.yields with ⟨v, v', rfl, rfl⟩ | ⟨v, v', rfl, rfl, alike⟩ | ⟨x, x', rfl, rfl, alike⟩
  · simp only [Config.deliver, kind, kind']
    exact W.refuses layout (.same rfl)
  · exact W.gives layout .none
  · simp only [Config.deliver, alike.kind]
    split
    · exact W.gives layout .none
    · exact W.raises layout alike

/-- What a generator delegates to has been closed. -/
theorem Worlds.exits (W : Worlds J w w') (layout : Stacks J S T) (heard : Heard S) (s : c.State) {x x' : Exc}
    (pair : J.names.gens g h) (error : Alike J.names (.exc x) (.exc x')) (reply : ReplyAlike J r r') :
    Corresponds J.lone (Config.deliver w (.exiting g (.guest (.code s)) x) S r)
      (Config.deliver w' (.exiting h (.guest (.code s)) x') T r') := by
  have goes : Stacks J (.running g (.guest (.code s)) :: S) (.running h (.guest (.code s)) :: T) :=
    layout.body_code (.generator pair) (fun _ => heard) s
  rcases reply.yields with ⟨v, v', rfl, rfl⟩ | ⟨v, v', rfl, rfl, -⟩ | ⟨y, y', rfl, rfl, alike⟩
  · exact W.raises goes error
  · exact W.raises goes error
  · exact W.raises goes alike

/-! ## Requests -/

/-- The running generators are the one on top of a stack and those with bodies on the stack. -/
def Busy (w : World (guest c)) (S : List (Activation (guest c))) (g : Gen) : Prop := Running w.gens (g.id :: active S)

theorem Busy.running (busy : Busy w S g) : w.status g = .running :=
  World.status_of ((Running.running busy g.id).2 List.mem_cons_self)

theorem Busy.beneath (busy : Busy w S g) (mem : h.id ∈ active S) : w.status h = .running :=
  World.status_of ((Running.running busy h.id).2 (List.mem_cons_of_mem _ mem))

theorem Busy.apart (busy : Busy w S g) : g.id ∉ active S := (List.nodup_cons.1 busy.once).1

theorem Busy.of_active {a : Activation (guest c)} {signal : Signal} (is_active : Config.Active ⟨w, a :: S, signal⟩)
    (here : a.active? = some g) : Busy w S g := by
  have running : Running w.gens (active (a :: S)) := is_active
  rwa [active_cons_of_some here] at running

theorem Turns.widen {t t' : Store} {p : Place} {own own' : Nat → Prop}
    (turns : Turns J (fun _ => False) (fun _ => False) t t' J.place) (seats : J.Seats own own') (moves : J.Moves own t p) :
    Turns J own own' t t' p where
  seats := seats
  moves := moves
  owned := turns.owned
  owned' := turns.owned'
  settings := turns.settings
  machines := turns.machines
  machines' := turns.machines'
  onStacks m i ran _ := turns.onStacks m i ran id
  onStacks' m i ran _ := turns.onStacks' m i ran id
  frames := turns.frames
  taken := turns.taken
  conts := turns.conts
  conts' := turns.conts'

theorem Worlds.busy (W : Worlds J w w') (pair : J.names.gens g h) (running : w.status g = .running)
    (running' : w'.status h = .running) (d e : Gen) (other : J.names.gens d e) (same : d.id = g.id) :
    w.status d = .running ∧ w'.status e = .running := by
  obtain ⟨rfl, rfl⟩ := W.fits.gens other pair (.inl same)
  exact ⟨running, running'⟩

/-- A generator asks to have a continuation resumed. -/
theorem Worlds.asks (W : Worlds J w w') (layout : Stacks J S T) (heard : Heard S) (pair : J.names.gens g h)
    (running : Busy w S g) (running' : Busy w' T h) (a b : Nat) {k l : Cont} {v v' e e' : Val} (conts : J.names.conts k l)
    (value : Alike J.names v v') (error : Alike J.names e e') (slices : J.Slices (J.place = .asked g.id) k l) :
    Corresponds J.lone (Config.turnOf w S g (.ask (.yield (.resumption a ⟨.cont k, v, e⟩) .direct) (.library .passing)))
      (Config.turnOf w' T h (.ask (.yield (.resumption b ⟨.cont l, v', e'⟩) .direct) (.library .passing))) := by
  let p : Place := if J.place = .asked g.id then .flight else J.place
  have moves : J.Moves (· = g.id) w.store p := by
    by_cases here : J.place = .asked g.id
    · rw [show p = .flight from if_pos here]
      refine .leaves (by simp [here, Place.Holds]) (.inl trivial) (fun m i _ there => ?_) (fun i there => ?_) fun k l _ there => ?_
      · exact absurd (here.symm.trans there) (by simp)
      · exact (by simpa [here] using there : g.id = i).symm
      · exact absurd (here.symm.trans there) (by simp)
    · exact .stays (if_neg here)
  have turns := (W.turns_quiet (t := w.store) rfl (Eq.refl w'.store.engine)).widen (W.seats pair) moves
  have keeps := turns.keeps (le_refl _)
  have W' := W.sets turns (W.busy pair running.running running'.running) fun live other => by
    refine absurd ?_ other
    rw [show p = J.place from if_neg (by simp [live])]
    exact live
  refine .joint (J.after p J.names w.store w'.store) (W'.setStatus pair (.suspended .direct (.plain .passing))) (layout.keep keeps fun i mem same => ?_)
    (.reply (.request a b conts value error (slices.keep keeps conts fun here => if_pos here)) fun _ _ => heard)
  exact running.apart (same ▸ mem)

end OneShot.Split
