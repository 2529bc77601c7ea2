import OneShot.Proofs.Refusal
import OneShot.Proofs.Split.Knowing
import OneShot.Proofs.Split.Updating

/-!
# Runs that meet

Two runs meet if they come to configurations that correspond, each after some steps of its
own.  They do after a reply, after the end of the body of a generator, and after the turn
of code.
-/

namespace OneShot.Split

open Config (Reaches)
open List (Forall₂)

variable {c : Code} {J : Joint} {w w' : World (guest c)} {S T : List (Activation (guest c))} {C C' D D' : Config (guest c)}
  {t t' : Store} {f f' : Fault} {v v' : Val} {x x' : Exc} {g h : Gen} {k l : Cont}

/-- After steps of their own, two runs correspond; they do at once if nothing is split. -/
def Meets (lone : Prop) (C C' : Config (guest c)) : Prop :=
  ∃ m n D D', Reaches m C D ∧ Reaches n C' D' ∧ Corresponds lone D D' ∧ (lone → m = 0 ∧ n = 0)

theorem Corresponds.meets {lone : Prop} (h : Corresponds lone C C') : Meets lone C C' :=
  ⟨0, 0, C, C', .refl C, .refl C', h, fun _ => ⟨rfl, rfl⟩⟩

theorem Meets.before {lone : Prop} {m n : Nat} (split : ¬lone) (there : Reaches m C D) (there' : Reaches n C' D')
    (h : Meets lone D D') : Meets lone C C' := by
  obtain ⟨i, j, E, E', rest, rest', corresponds, -⟩ := h
  exact ⟨_, _, E, E', there.trans rest, there'.trans rest', corresponds, fun alone => absurd alone split⟩

/-! ## Stores that are left alone -/

theorem Worlds.quiet (W : Worlds J w w') (t t' : Store) (same : t.engine = w.store.engine) (same' : t'.engine = w'.store.engine) :
    Worlds (J.on t t') { w with store := t } { w' with store := t' } :=
  W.sets (W.turns_quiet same same') (fun _ _ _ => False.elim) fun live other => absurd live other

theorem Worlds.keeps_quiet (W : Worlds J w w') (t t' : Store) (same : t.engine = w.store.engine) (same' : t'.engine = w'.store.engine) :
    J.Keeps (J.on t t') (fun _ => False) fun _ => False :=
  (W.turns_quiet same same').keeps (le_refl _)

/-! ## Replies -/

theorem Worlds.gives (W : Worlds J w w') (layout : Stacks J S T) (alike : Alike J.names v v') :
    Corresponds J.lone (Config.reply w S (.value v)) (Config.reply w' T (.value v')) :=
  .joint J W layout (.reply (.value alike) fun _ => nofun)

theorem Worlds.raises (W : Worlds J w w') (layout : Stacks J S T) (alike : Alike J.names (.exc x) (.exc x')) :
    Corresponds J.lone (Config.reply w S (.raised x)) (Config.reply w' T (.raised x')) :=
  .joint J W layout (.reply (.raised alike) fun _ => nofun)

theorem Worlds.refuses (W : Worlds J w w') (layout : Stacks J S T) (alike : FaultAlike J.names f f') :
    Corresponds J.lone (Config.refuse w S f) (Config.refuse w' T f') := by
  have keeps := W.keeps_quiet ((w.store.fault f).1) ((w'.store.fault f').1) rfl rfl
  exact (W.quiet ((w.store.fault f).1) ((w'.store.fault f').1) rfl rfl).raises
    (layout.keep keeps fun _ _ => id) (alike _ _)

/-- The bodies of corresponding generators end with alike exceptions. -/
theorem Worlds.leaves (W : Worlds J w w') (layout : Stacks J S T) (pair : J.names.gens g h)
    (alike : Alike J.names (.exc x) (.exc x')) : Corresponds J.lone (Config.leave w S g x) (Config.leave w' T h x') := by
  have W := W.setStatus pair .finished
  obtain ⟨-, -, kind, kind'⟩ := W.fits.gen pair
  unfold Config.leave
  dsimp only
  rw [alike.kind, kind, kind']
  split
  · exact W.refuses layout (.same rfl)
  · exact W.raises layout alike

theorem Worlds.faults (W : Worlds J w w') (layout : Stacks J S T) (pair : J.names.gens g h) (alike : FaultAlike J.names f f') :
    Corresponds J.lone (Config.leave (w.fault f).1 S g (w.fault f).2) (Config.leave (w'.fault f').1 T h (w'.fault f').2) := by
  have keeps := W.keeps_quiet ((w.store.fault f).1) ((w'.store.fault f').1) rfl rfl
  exact (W.quiet ((w.store.fault f).1) ((w'.store.fault f').1) rfl rfl).leaves
    (layout.keep keeps fun _ _ => id) pair (alike _ _)

/-! ## Continuations that are taken -/

theorem settings_take (s : Store) (k : Cont) : (s.take k).1.settings = s.settings := by
  unfold Store.take
  split <;> rfl

/-- Corresponding continuations are taken. -/
theorem Worlds.turns_take (W : Worlds J w w') (pair : J.names.conts k l) {p : Place}
    (moves : J.Moves (fun _ => False) t p) (same : t.engine = (w.store.take k).1.engine)
    (same' : t'.engine = (w'.store.take l).1.engine) : Turns J (fun _ => False) (fun _ => False) t t' p where
  seats := J.seats_none
  moves := moves
  owned := W.own.of_machines ((Store.machines_of_engine same).trans (Store.machines_take _ k))
  owned' := W.own'.of_machines ((Store.machines_of_engine same').trans (Store.machines_take _ l))
  settings := by
    rw [Store.settings_of_engine same, Store.settings_of_engine same', settings_take, settings_take, W.settings]
  machines := Nat.le_of_eq (by rw [Store.machines_of_engine same, Store.machines_take, W.store])
  machines' := Nat.le_of_eq (by rw [Store.machines_of_engine same', Store.machines_take, W.store'])
  onStacks m i _ _ := by
    rw [← W.store]
    exact W.own.stack_eq ((Store.machines_of_engine same).trans (Store.machines_take _ k)) m
  onStacks' m i _ _ := by
    rw [← W.store']
    exact W.own'.stack_eq ((Store.machines_of_engine same').trans (Store.machines_take _ l)) m
  frames i j _ := by
    rw [Store.frames_of_conts (Store.conts_of_engine same), Store.frames_of_conts (Store.conts_of_engine same'),
      Store.frames_take, Store.frames_take, W.store, W.store']
    exact ⟨rfl, rfl⟩
  taken i j other := by
    obtain ⟨inside, inside'⟩ := W.fits.cont other
    have once : k.index = i.index ↔ l.index = j.index :=
      ⟨fun same => by rw [(W.fits.conts pair other (.inl same)).2],
        fun same => by rw [(W.fits.conts pair other (.inr same)).1]⟩
    have hit : (some k).any (·.index == i.index) = (some l).any (·.index == j.index) := by
      rw [Bool.eq_iff_iff]
      simpa using once
    rw [Store.isTaken_of_conts (Store.conts_of_engine same), Store.isTaken_of_conts (Store.conts_of_engine same'),
      (Store.Takes.take w.store k).taken i inside, (Store.Takes.take w'.store l).taken j inside', hit,
      ← (W.conts i j other).1, ← W.store]
    exact ⟨rfl, fun pending => (Bool.or_eq_false_iff.1 pending).1⟩
  conts := Nat.le_of_eq (by rw [Store.conts_of_engine same, Store.size_take, W.store])
  conts' := Nat.le_of_eq (by rw [Store.conts_of_engine same', Store.size_take, W.store'])

/-- The place of the relay after the take of `k`, if `p` is where to find what `k` has captured. -/
def Joint.placed (J : Joint) (k : Cont) (p : Place) : Place :=
  if J.place = .slice k.index then p else J.place

theorem Joint.moves_take {p : Place} (next : p.Holds ∨ p = .lost)
    {s : Store} (same : t.engine = (s.take k).1.engine) : J.Moves (fun _ => False) t (J.placed k p) := by
  unfold Joint.placed
  split
  · rename_i here
    refine .leaves (by simp [here, Place.Holds]) next (fun m i _ there => ?_) (fun i there => ?_) fun i j other there => ?_
    · exact absurd (here.symm.trans there) (by simp)
    · exact absurd (here.symm.trans there) (by simp)
    · have index : k.index = i.index := by simpa [here] using there
      rw [Store.isTaken_of_conts (Store.conts_of_engine same), ← Store.isTaken_of_index index, Store.isTaken_take]
  · exact .stays rfl

/-- What a pending continuation has captured is to be found elsewhere once it is taken. -/
theorem Worlds.slices_take (W : Worlds J w w') (pair : J.names.conts k l) (pending : w.store.isTaken k = false) (p : Place) :
    J.Slices (J.placed k p = p) k l := by
  refine ((W.conts k l pair).2 pending).mono (le_refl _) fun here => ?_
  unfold Joint.placed
  rw [if_pos here]

/-- Worlds after a take. -/
theorem Worlds.takes (W : Worlds J w w') (pair : J.names.conts k l) {p : Place} (next : p.Holds ∨ p = .lost)
    (same : t.engine = (w.store.take k).1.engine) (same' : t'.engine = (w'.store.take l).1.engine) :
    Worlds (J.after (J.placed k p) J.names t t') { w with store := t } { w' with store := t' } ∧
      J.Keeps (J.after (J.placed k p) J.names t t') (fun _ => False) fun _ => False := by
  have turns := W.turns_take pair (J.moves_take next same) same same'
  refine ⟨W.sets turns (fun _ _ _ => False.elim) fun live other => ?_, turns.keeps (le_refl _)⟩
  refine absurd ?_ other
  unfold Joint.placed
  rw [if_neg (by simp [live])]
  exact live

/-! ## Code -/

theorem Stacks.body {seat seat' : Option Gen} {p q : Routine (guest c)} (layout : Stacks J S T) (seats : SeatAlike J.names seat seat')
    (heard : seat.isSome → Heard S) (alike : PlainAlike J p q) :
    Stacks J (.body seat p :: S) (.body seat' q :: T) := by
  cases seats with
  | function => exact .cons (.calling alike) nofun layout
  | generator pair => exact .cons (.running pair (.plain alike)) (fun _ => heard rfl) layout

theorem heard_code {seat : Option Gen} (b : Body c) : Heard (.body seat (.guest b) :: S) :=
  .of_head (by cases seat <;> trivial)

theorem Stacks.body_code {seat seat' : Option Gen} (layout : Stacks J S T) (seats : SeatAlike J.names seat seat')
    (heard : seat.isSome → Heard S) (s : c.State) :
    Stacks J (.body seat (.guest (.code s)) :: S) (.body seat' (.guest (.code s)) :: T) :=
  layout.body seats heard (.code s)

section Turned

variable {seat seat' : Option Gen} (A : List (Activation (guest c))) (p : Routine (guest c))

theorem turned_call (w : World (guest c)) (seat : Option Gen) (f : Val) (args : List Val) :
    Config.turned w A seat (.ask (.call f args) p) = ⟨w, .body seat p :: A, .call f args p.caller⟩ := by
  cases seat <;> rfl

theorem turned_advance (w : World (guest c)) (seat : Option Gen) (g : Gen) (i : Input) :
    Config.turned w A seat (.ask (.advance g i) p) = ⟨w, .body seat p :: A, .advance g i⟩ := by
  cases seat <;> rfl

theorem turned_close (w : World (guest c)) (seat : Option Gen) (g : Gen) :
    Config.turned w A seat (.ask (.close g) p) = ⟨w, .body seat p :: A, .close g⟩ := by
  cases seat <;> rfl

theorem turned_more (w : World (guest c)) (seat : Option Gen) :
    Config.turned w A seat (.more p) = Config.reply w (.body seat p :: A) (.value .none) := by
  cases seat <;> rfl

variable {A p}

theorem Worlds.turned_done (W : Worlds J w w') (layout : Stacks J S T) (seats : SeatAlike J.names seat seat')
    (alike : Alike J.names v v') : Corresponds J.lone (Config.turned w S seat (.done v)) (Config.turned w' T seat' (.done v')) := by
  cases seats with
  | function => exact W.gives layout alike
  | generator pair => exact (W.setStatus pair .finished).gives layout alike

theorem Worlds.turned_raise (W : Worlds J w w') (layout : Stacks J S T) (seats : SeatAlike J.names seat seat')
    (alike : Alike J.names (.exc x) (.exc x')) :
    Corresponds J.lone (Config.turned w S seat (.raise x)) (Config.turned w' T seat' (.raise x')) := by
  cases seats with
  | function => exact W.raises layout alike
  | generator pair => exact W.leaves layout pair alike

theorem Worlds.turned_fault (W : Worlds J w w') (layout : Stacks J S T) (seats : SeatAlike J.names seat seat')
    (alike : FaultAlike J.names f f') :
    Corresponds J.lone (Config.turned w S seat (.fault f)) (Config.turned w' T seat' (.fault f')) := by
  cases seats with
  | function => exact W.refuses layout alike
  | generator pair => exact W.faults layout pair alike

/-- A generator lets another one run in its place. -/
theorem Worlds.delegates (W : Worlds J w w') (layout : Stacks J S T) (heard : Heard S) (pair : J.names.gens g h) (s : c.State)
    (alike : Alike J.names v v') : Corresponds J.lone (Config.turnOf w S g (.ask (.delegate v) (.guest (.code s))))
      (Config.turnOf w' T h (.ask (.delegate v') (.guest (.code s)))) := by
  rcases alike.generator? with ⟨other, other'⟩ | ⟨d, e, rfl, rfl, below⟩
  · simp only [Config.turnOf, other, other']
    exact W.refuses (layout.body_code (.generator pair) (fun _ => heard) s) (.same rfl)
  · obtain ⟨-, -, kind, kind'⟩ := W.fits.gen below
    have found : (Val.gen d).generator? = some d := if_pos kind
    have found' : (Val.gen e).generator? = some e := if_pos kind'
    simp only [Config.turnOf, found, found']
    exact .joint J W (.cons (.relaying s pair below) (fun _ => heard) layout) (.advance below (.send .none) (.of_head trivial))

/-- Code has marked a continuation as consumed, to close what it has captured. -/
theorem Worlds.marks (W : Worlds J w w') (layout : Stacks J S T) (seats : SeatAlike J.names seat seat')
    (heard : seat.isSome → Heard S) (pair : J.names.conts k l) (s : c.State) (caller : Caller) :
    Corresponds J.lone (Config.call w (.body seat (.guest (.discarding s k)) :: S) (.native (.op .markConsumed)) [.cont k] caller)
      (Config.call w' (.body seat' (.guest (.discarding s l)) :: T) (.native (.op .markConsumed)) [.cont l] caller) := by
  have both := (W.conts k l pair).1
  cases taken : w.store.isTaken k with
  | true =>
      rw [Config.call_of_isTaken (k := k) rfl taken, Config.call_of_isTaken (k := l) rfl (both ▸ taken)]
      let u := w.store.doubleResumeError (.cont k)
      let u' := w'.store.doubleResumeError (.cont l)
      have same : u.1.engine = w.store.engine := Store.engine_doubleResumeError _ _
      have same' : u'.1.engine = w'.store.engine := Store.engine_doubleResumeError _ _
      exact .refused (J.on u.1 u'.1) s (W.quiet _ _ same same') seats heard
        (layout.keep (W.keeps_quiet _ _ same same') fun _ _ => id) (.failure rfl nofun rfl rfl (.cont pair))
  | false =>
      rw [Config.call_of_mark taken, Config.call_of_mark (both ▸ taken)]
      obtain ⟨W', keeps⟩ := W.takes pair (p := .lost) (.inr rfl) rfl rfl
      have slices := (W.slices_take pair taken .lost).keep keeps pair id
      exact W'.gives ((layout.keep keeps fun _ _ => id).body (seats.mono keeps.names) heard (.discarding s pair slices)) .none

/-- Code has made a turn. -/
theorem Worlds.turned (W : Worlds J w w') (layout : Stacks J S T) (seats : SeatAlike J.names seat seat')
    (heard : seat.isSome → Heard S) {a a' : Turn (Body c)} (alike : TurnAlike J.names a a') :
    Meets J.lone (Config.turned w S seat (a.map .guest)) (Config.turned w' T seat' (a'.map .guest)) := by
  cases alike with
  | done alike => exact (W.turned_done layout seats alike).meets
  | raise alike => exact (W.turned_raise layout seats alike).meets
  | fault alike => exact (W.turned_fault layout seats alike).meets
  | call s alike args =>
      rw [Turn.map, Turn.map, turned_call, turned_call]
      exact (Corresponds.joint J W (layout.body_code seats heard s) (.call _ alike args)).meets
  | throw s pair alike =>
      rw [Turn.map, Turn.map, turned_call, turned_call]
      exact (Corresponds.joint J W (layout.body_code seats heard s) (.throwInto _ pair alike)).meets
  | consume s pair =>
      rw [Turn.map, Turn.map, Body.consuming, Body.consuming, turned_call, turned_call]
      exact (Corresponds.joint J W (layout.body_code seats heard s) (.consume _ pair)).meets
  | @discard k l s pair =>
      rw [Turn.map, Turn.map, Body.consuming, Body.consuming, turned_call, turned_call]
      exact (Corresponds.discards J s _ W seats heard layout pair).meets
  | check s pair =>
      rw [Turn.map, Turn.map, Body.checking, Body.checking, turned_call, turned_call]
      exact (Corresponds.joint J W (layout.body_code seats heard s) (.check _ pair)).meets
  | yield s alike =>
      cases seats with
      | function => exact (W.refuses (layout.body_code .function heard s) (.same rfl)).meets
      | generator pair =>
          refine Corresponds.meets (.joint J (W.setStatus pair (.suspended .direct (.plain (.code s)))) layout ?_)
          exact .reply (.yielded alike) fun _ _ => heard rfl
  | delegate s alike =>
      cases seats with
      | function => exact (W.refuses (layout.body_code .function heard s) (.same rfl)).meets
      | generator pair => exact (W.delegates layout (heard rfl) pair s alike).meets
  | advance s pair alike =>
      rw [Turn.map, Turn.map, turned_advance, turned_advance]
      exact (Corresponds.joint J W (layout.body_code seats heard s) (.advance pair alike (heard_code _))).meets
  | close s pair =>
      rw [Turn.map, Turn.map, turned_close, turned_close]
      exact (Corresponds.joint J W (layout.body_code seats heard s) (.close pair)).meets
  | look s v =>
      simp only [Turn.map, turned_more]
      exact (W.gives (layout.body seats heard (.looking s v)) .none).meets

end Turned

end OneShot.Split
