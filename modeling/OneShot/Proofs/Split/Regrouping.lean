import OneShot.Proofs.Split.Alone

/-!
# Machines on top of machines

A stack of frames may be split: what is above goes to a machine of its own, which is what
the frame on top of the others runs.  Whatever code does with the generator of the one or
of the other, it cannot tell them apart.
-/

namespace OneShot.Split

open Config (Reaches)
open List (Forall₂)
open Machine (Phase)

variable {c : Code} {J : Joint} {w : World (guest c)} {S : List (Activation (guest c))} {g : Gen} {upper lower : List Val} {f : Val}

/-! ## New machines -/

/-- A new machine with frames, and the generator that runs it. -/
def machineOn (w : World (guest c)) (frames : List Val) : World (guest c) × Gen :=
  World.spawn { w with store := (w.store.newMachine (.own frames) .none).1 } .generator "Machine.run" (machine w.store.machines.size .start)

/-- A machine with the upper frames, inside a machine with the others. -/
def nested (w : World (guest c)) (upper lower : List Val) : World (guest c) × Gen :=
  let inner := machineOn w upper
  machineOn { inner.1 with store := inner.1.store.freshTag.1 } (genFrame inner.2 inner.1.store.freshTag.2 :: lower)

/-- Frames that a machine can be started with: those of handlers and of generators that code knows, and what continuations
that it knows have captured. -/
inductive Framed (w : World (guest c)) : Val → Prop
  | layer (l : Layer) (t : Tag) : Framed w (layerFrame l t)
  | known {g : Gen} (t : Tag) (mem : .gen g ∈ w.memory.known) : Framed w (genFrame g t)
  | captured {k : Cont} {f : Val} (mem : .cont k ∈ w.memory.known) (pending : w.store.isTaken k = false)
      (framed : f ∈ w.store.frames k) : Framed w f

/-- Such frames are alike in two runs that part here. -/
theorem Framed.alike (framed : Framed w f) (W : Worlds J w w) (absent : J.place = .absent) : FrameAlike J.names f f := by
  have known {v : Val} (mem : v ∈ w.memory.known) : Alike J.names v v := List.forall₂_same.1 W.memory.known v mem
  cases framed with
  | layer l t => exact .layer l t t
  | known t mem =>
      cases known mem with
      | gen pair => exact .gen t t pair
  | captured mem pending framed =>
      cases known mem with
      | cont pair =>
          have slices := (W.conts _ _ pair).2 pending
          unfold Joint.Slices at slices
          rw [← W.store, ← W.store'] at slices
          exact List.forall₂_same.1 (slices.spread.frames (by simp [absent])) f framed

/-! ## Where the stack is split -/

/-- Where the stack of a machine that is made in `w` is split. -/
def seamAt (w : World (guest c)) (upper lower : List Val) : Seam where
  relay := (machineOn w upper).2
  inner := w.store.machines.size
  nested := (nested w upper lower).2
  outer := (machineOn w upper).1.store.machines.size
  flat := (machineOn w (upper ++ lower)).2
  whole := w.store.machines.size

/-- With what is made to run the stack, split and as a whole. -/
def Joint.splitting (J : Joint) (w : World (guest c)) (upper lower : List Val) : Joint :=
  let Z := seamAt w upper lower
  { J.at Z with
    place := .live
    names := J.names.withGen Z.nested Z.flat
    runs := Function.update (Function.update J.runs Z.inner (some Z.relay.id)) Z.outer (some Z.nested.id)
    runs' := Function.update J.runs' Z.whole (some Z.flat.id)
    store := (nested w upper lower).1.store
    store' := (machineOn w (upper ++ lower)).1.store }

theorem stack_machineOn (w : World (guest c)) (frames : List Val) (m : Nat) : (machineOn w frames).1.store.stack m =
    if m = w.store.machines.size then frames else w.store.stack m := Store.stack_newMachine _ _ _ _

@[simp] theorem machines_machineOn (w : World (guest c)) (frames : List Val) :
    (machineOn w frames).1.store.machines.size = w.store.machines.size + 1 := Array.size_push _

@[simp] theorem gens_machineOn (w : World (guest c)) (frames : List Val) :
    (machineOn w frames).1.gens.size = w.gens.size + 1 := Array.size_push _

theorem status_machineOn {frames : List Val} (inside : g.id < w.gens.size) : (machineOn w frames).1.status g = w.status g :=
  status_spawn_of_lt inside

theorem fresh_machineOn (w : World (guest c)) (frames : List Val) :
    (machineOn w frames).1.status (machineOn w frames).2 = .fresh (machine w.store.machines.size .start) :=
  World.status_spawn _ _ _ _

theorem stack_nested (w : World (guest c)) (upper lower : List Val) (m : Nat) : (nested w upper lower).1.store.stack m =
    if m = w.store.machines.size + 1 then genFrame (machineOn w upper).2 (machineOn w upper).1.store.freshTag.2 :: lower
    else if m = w.store.machines.size then upper else w.store.stack m := by
  have size : (machineOn w upper).1.store.freshTag.1.machines.size = w.store.machines.size + 1 := machines_machineOn w upper
  refine (stack_machineOn _ _ m).trans ?_
  refine if_congr (by rw [size]) rfl (stack_machineOn w upper m)

theorem size_nested (w : World (guest c)) (upper lower : List Val) : (nested w upper lower).1.gens.size = w.gens.size + 2 :=
  (gens_machineOn _ _).trans (congrArg (· + 1) (gens_machineOn w upper))

theorem machines_nested (w : World (guest c)) (upper lower : List Val) :
    (nested w upper lower).1.store.machines.size = w.store.machines.size + 2 :=
  (machines_machineOn _ _).trans (congrArg (· + 1) (machines_machineOn w upper))

theorem id_nested (w : World (guest c)) (upper lower : List Val) : (nested w upper lower).2.id = w.gens.size + 1 :=
  gens_machineOn w upper

theorem status_nested (inside : g.id < w.gens.size) : (nested w upper lower).1.status g = w.status g :=
  (status_machineOn (by simpa using Nat.lt_succ_of_lt inside)).trans (status_machineOn inside)

theorem fresh_nested (w : World (guest c)) (upper lower : List Val) : (nested w upper lower).1.status (nested w upper lower).2 =
    .fresh (machine (machineOn w upper).1.store.machines.size .start) :=
  World.status_spawn _ _ _ _

theorem fresh_inner (w : World (guest c)) (upper lower : List Val) : (nested w upper lower).1.status (machineOn w upper).2 =
    .fresh (machine w.store.machines.size .start) :=
  (status_machineOn (Nat.lt_of_lt_of_eq (Nat.lt_succ_self _) (gens_machineOn w upper).symm)).trans (fresh_machineOn w upper)

section Splitting

variable (W : Worlds J w w) (absent : J.place = .absent)

include W absent

theorem Worlds.keeps_splitting :
    (J.at (seamAt w upper lower)).Keeps (J.splitting w upper lower) (fun _ => False) fun _ => False where
  seats := Joint.seats_none
  seam := rfl
  names := J.names.le_withGen _ _
  runs m i ran := by
    have inside := W.runs m i ran
    have other : m ≠ (machineOn w upper).1.store.machines.size := by
      rw [machines_machineOn]
      omega
    exact (Function.update_of_ne other _ _).trans ((Function.update_of_ne (Nat.ne_of_lt inside) _ _).trans ran)
  runs' m i ran := (Function.update_of_ne (Nat.ne_of_lt (W.runs' m i ran)) _ _).trans ran
  onStacks m i ran _ := by
    have inside := W.runs m i ran
    have same : J.store.stack m = w.store.stack m := by rw [W.store]
    exact (stack_nested w upper lower m).trans ((if_neg (by omega)).trans ((if_neg (by omega)).trans same.symm))
  onStacks' m i ran _ := by
    have same : J.store'.stack m = w.store.stack m := by rw [W.store']
    exact (stack_machineOn w (upper ++ lower) m).trans ((if_neg (Nat.ne_of_lt (W.runs' m i ran))).trans same.symm)
  frames k l _ := by
    have same : J.store.frames k = w.store.frames k := by rw [W.store]
    have same' : J.store'.frames l = w.store.frames l := by rw [W.store']
    exact ⟨same.symm, same'.symm⟩
  stack _ _ _ _ here := absurd (absent.symm.trans here) nofun
  asked _ _ here := absurd (absent.symm.trans here) nofun
  lost here := absurd (absent.symm.trans here) nofun
  live here := absurd (absent.symm.trans here) nofun

/-- The two machines wait as the one with all does. -/
theorem Worlds.spans_splitting (framed : ∀ f ∈ upper ++ lower, Framed w f) : Spans (J.splitting w upper lower) .start .start := by
  have alike {fs : List Val} (among : ∀ f ∈ fs, Framed w f) : Forall₂ (FrameAlike (J.splitting w upper lower).names) fs fs :=
    List.forall₂_same.2 fun f mem => ((among f mem).alike W absent).mono (J.names.le_withGen _ _)
  have above := alike fun f mem => framed f (List.mem_append_left lower mem)
  have below := alike fun f mem => framed f (List.mem_append_right upper mem)
  have stack : (nested w upper lower).1.store.stack w.store.machines.size = upper :=
    (stack_nested w upper lower _).trans ((if_neg (by omega)).trans (if_pos rfl))
  have stack' : (machineOn w (upper ++ lower)).1.store.stack w.store.machines.size = upper ++ lower :=
    (stack_machineOn w (upper ++ lower) _).trans (if_pos rfl)
  have outer : (nested w upper lower).1.store.stack (machineOn w upper).1.store.machines.size =
      genFrame (machineOn w upper).2 (machineOn w upper).1.store.freshTag.2 :: lower :=
    (stack_nested w upper lower _).trans (if_pos (machines_machineOn w upper))
  have apart : w.store.machines.size ≠ (machineOn w upper).1.store.machines.size := by simp
  refine ⟨lower, ⟨rfl, ?_, Function.update_self .., Function.update_self .., .inr ⟨rfl, rfl⟩, _, lower, outer, below⟩, .start ⟨upper, stack', ?_⟩⟩
  · exact (Function.update_of_ne apart _ _).trans (Function.update_self ..)
  · exact stack.symm ▸ Spread.of_frames above

/-- The worlds correspond in which the stack is split, and in which it is not. -/
theorem Worlds.splitting (framed : ∀ f ∈ upper ++ lower, Framed w f) :
    Worlds (J.splitting w upper lower) (nested w upper lower).1 (machineOn w (upper ++ lower)).1 := by
  let Z := seamAt w upper lower
  have keeps : (J.at Z).Keeps (J.splitting w upper lower) (fun _ => False) fun _ => False := W.keeps_splitting absent
  have spans := W.spans_splitting absent framed
  have W' := W.at absent Z
  exact {
    store := rfl
    store' := rfl
    lone := False.elim
    own := (W.own.newMachine upper .none).newMachine _ _
    own' := W.own'.newMachine _ _
    settings := rfl
    memory := W'.memory.mono keeps.names
    fits := W'.fits.withGen (by simp [seamAt, id_nested]) (le_refl _) (by simp [seamAt, id_nested, size_nested])
      (by simp [seamAt, machineOn, World.spawn]) rfl rfl (le_refl _) (le_refl _)
    runs := fun m i ran => by
      have size := machines_nested w upper lower
      have outer := machines_machineOn w upper
      by_cases last : m = (machineOn w upper).1.store.machines.size
      · omega
      · by_cases before : m = w.store.machines.size
        · omega
        · have old := W.runs m i ((Function.update_of_ne before _ _).symm.trans ((Function.update_of_ne last _ _).symm.trans ran))
          omega
    runs' := fun m i ran => by
      have size := machines_machineOn w (upper ++ lower)
      by_cases last : m = w.store.machines.size
      · omega
      · have old := W.runs' m i ((Function.update_of_ne last _ _).symm.trans ran)
        omega
    gens := fun g h pair => by
      rcases pair with pair | ⟨rfl, rfl⟩
      · obtain ⟨inside, inside', -⟩ := W.fits.gen pair
        rw [status_nested inside, status_machineOn inside']
        exact ((W.gens g h pair).at absent Z).keep keeps pair id
      · show StatusAlike _ _ _ _ ((nested w upper lower).1.status (nested w upper lower).2)
          ((machineOn w (upper ++ lower)).1.status (machineOn w (upper ++ lower)).2)
        rw [fresh_nested, fresh_machineOn]
        exact .splitFresh rfl rfl spans (fresh_inner w upper lower)
    conts := fun k l pair => ⟨(W'.conts k l pair).1, fun pending => ((W'.conts k l pair).2 pending).keep keeps pair
      fun here => absurd (absent.symm.trans here) nofun⟩
    relay := fun _ => by
      refine ⟨?_, rfl, fun g h pair => ?_⟩
      · rw [size_nested]
        exact Nat.lt_add_of_pos_right (Nat.succ_pos 1)
      · rcases pair with pair | ⟨rfl, rfl⟩
        · exact Nat.ne_of_lt (W.fits.gen pair).1
        · exact (id_nested w upper lower).trans_ne (Nat.succ_ne_self _)
    holds := False.elim
    lost := nofun }

end Splitting

/-! ## What code sees of the machines -/

/-- Who waits for a reply gets a generator. -/
def returning (S : List (Activation (guest c))) (made : World (guest c) × Gen) : Config (guest c) :=
  ⟨made.1, S, .reply (.value (.gen made.2))⟩

theorem running_machineOn {frames : List Val} {ids : List Nat} (running : Running w.gens ids) :
    Running (machineOn w frames).1.gens ids :=
  Running.spawn (w := { w with store := (w.store.newMachine (.own frames) .none).1 }) running .generator "Machine.run" _

/--
Nested machines and one flat machine agree.  Wherever a run of code has come to, somebody who
waits for a reply gets the generator of a machine, with a stack that is split or with all of it.
Whatever code goes on to do, it is run in the same order, and gets to see the same: whether
it advances the generator by hand or has other machines do so, and whether it resumes what is
resent, throws into it or drops it.
-/
theorem nested_alike {trace : Trace (guest c)} {a : Activation (guest c)} {x : Val}
    (run : RunOf Ruly trace ⟨w, a :: S, .reply (.value x)⟩) (framed : ∀ f ∈ upper ++ lower, Framed w f)
    (tame : Tame (returning (a :: S) (machineOn w (upper ++ lower)))) :
    SeenAlike (returning (a :: S) (nested w upper lower)) (returning (a :: S) (machineOn w (upper ++ lower))) := by
  obtain ⟨J, absent, W, layout, running⟩ := joint_self run
  have layout' := (layout.at absent (seamAt w upper lower)).keep (W.keeps_splitting absent) fun _ _ => id
  have corresponds : Corresponds False (returning (a :: S) (nested w upper lower))
      (returning (a :: S) (machineOn w (upper ++ lower))) :=
    .joint (J.splitting w upper lower) (W.splitting absent framed) layout' (.reply (.value (.gen (.inr ⟨rfl, rfl⟩))) fun _ => nofun)
  exact Together.seen ⟨⟨False, corresponds⟩, running_machineOn (running_machineOn running), running_machineOn running, tame⟩

/--
Code whose computation performs two effects.  The second one is handled by nobody, so that the
code which advances the machine gets to see it, and resumes what it comes with under a handler.
-/
def inquiring : Code where
  Memory := Item
  State := Nat × Item
  enter m j args := (m, match j, args with
    | 1, _ => .spawn (10, .none)
    | 3, k :: _ => .spawn (30, k)
    | 4, _ => .spawn (40, m)
    | _, _ => .run (if j = 0 then 0 else 20, .none))
  step m s a := match s.1, a with
    | 0, _ => (m, .call (.item (.function 1)) [] (1, .none))
    | 1, _ => (m, .call (.item (.function 2)) [] (2, .none))
    | 2, .value g => (m, .advance g (.send (.item .none)) (3, .none))
    | 3, .resent _ _ k _ => (k, .call (.handler ⟨none, []⟩) [.item (.function 4)] (4, .none))
    | 4, .value g => (m, .advance g (.send (.item .none)) (5, .none))
    | 10, _ => (m, .call (.item (.effect 0)) [] (11, .none))
    | 11, .value i => (m, .yield (.item i) (12, .none))
    | 12, _ => (m, .call (.item (.effect 1)) [] (13, .none))
    | 13, .value i => (m, .yield (.item i) (14, .none))
    | 30, _ => (m, .call (.item s.2) [.item (.int 5)] (31, .none))
    | 40, _ => (m, .call (.item s.2) [.item (.int 7)] (31, .none))
    | 31, .value r => (m, .delegate (.item r) (32, .none))
    | 20, _ => (m, .done (.item .none))
    | _, .value v => (m, .done (.item v))
    | _, _ => (m, .done (.item .none))

/-- Whether this code has seen the second effect resent, and has come to the end that it is resumed with. -/
def inquired : Config (guest inquiring) → Bool
  | ⟨w, [], .reply r⟩ =>
      let told := match (w.memory.answer r).2 with
        | .value (.int 7) => true
        | _ => false
      told && w.memory.log.any fun
        | .code _ (.resent 1 [] _ _) => true
        | _ => false
  | _ => false

theorem ends_of_inquired {C D : Config (guest inquiring)} {n : Nat} (reached : comes n C = some D) (found : inquired D = true) :
    Tame C ∧ ∃ log, Ends C log (.value (.int 7)) ∧ ∃ s k place, .code s (.resent 1 [] k place) ∈ log := by
  unfold inquired at found
  split at found
  · rename_i w r
    obtain ⟨told, seen⟩ := Bool.and_eq_true_iff.1 found
    refine ⟨tame_of_comes reached, w.memory.log, ⟨n, w, r, reaches_of_comes reached, rfl, ?_⟩, ?_⟩
    · split at told
      · assumption
      · cases told
    · obtain ⟨e, mem, resent⟩ := List.any_eq_true.1 seen
      split at resent
      · exact ⟨_, _, _, mem⟩
      · cases resent
  · cases found

/-- A generator under a handler of nothing. -/
def upperFrames (g : Gen) : List Val := [genFrame g ⟨1, .none⟩, layerFrame ⟨none, []⟩ ⟨2, .none⟩]

/-- A handler of the first effect, which resumes it. -/
def lowerFrames : List Val := [layerFrame ⟨none, [(0, 3)]⟩ ⟨3, .none⟩]

/-- Whether that is what comes of one machine, once the code has made a generator. -/
def inquires (n m : Nat) : Bool :=
  match comes n (begun inquiring .none) with
  | some ⟨w, a :: S, .reply (.value _)⟩ =>
      match w.memory.known with
      | [.gen g] => (comes m (returning (a :: S) (machineOn w (upperFrames g ++ lowerFrames)))).any inquired
      | _ => false
  | _ => false

theorem exists_of_inquires {n m : Nat} (found : inquires n m = true) : ∃ w a S x g D,
    comes n (begun inquiring .none) = some ⟨w, a :: S, .reply (.value x)⟩ ∧ .gen g ∈ w.memory.known ∧
      comes m (returning (a :: S) (machineOn w (upperFrames g ++ lowerFrames))) = some D ∧ inquired D = true := by
  unfold inquires at found
  split at found
  · rename_i w a S x come
    split at found
    · rename_i g known
      obtain ⟨some, found⟩ := (Option.any_eq_true_iff_get _ _).1 found
      exact ⟨w, a, S, x, g, _, come, known ▸ List.mem_cons_self, (Option.some_get some).symm, found⟩
    · cases found
  · cases found

/-- The first effect is handled by the lower frames; the code resumes the second one, in a new machine. -/
theorem nested_alike_resent : ∃ (trace : Trace (guest inquiring)) (w : World (guest inquiring)) (a : Activation (guest inquiring))
    (S : List (Activation (guest inquiring))) (x : Val) (upper lower : List Val) (log : List (Event inquiring)),
    RunOf Ruly trace ⟨w, a :: S, .reply (.value x)⟩ ∧ (∀ f ∈ upper ++ lower, Framed w f) ∧
      Tame (returning (a :: S) (machineOn w (upper ++ lower))) ∧
      Ends (returning (a :: S) (nested w upper lower)) log (.value (.int 7)) ∧
      Ends (returning (a :: S) (machineOn w (upper ++ lower))) log (.value (.int 7)) ∧
      ∃ s k place, .code s (.resent 1 [] k place) ∈ log := by
  obtain ⟨w, a, S, x, g, D, come, known, come', found⟩ := exists_of_inquires (n := 6) (m := 66) (by decide +kernel)
  have begins := begins_begun inquiring .none
  obtain ⟨trace, run⟩ := run_of_comes (.start begins.toFresh) (fun _ => begins) come
  obtain ⟨tame, log, ends, seen⟩ := ends_of_inquired come' found
  have framed : ∀ f ∈ upperFrames g ++ lowerFrames, Framed w f := by
    simp only [upperFrames, lowerFrames, List.cons_append, List.nil_append, List.forall_mem_cons]
    exact ⟨.known _ known, .layer _ _, .layer _ _, nofun⟩
  have alike := nested_alike run framed tame
  exact ⟨trace, w, a, S, x, upperFrames g, lowerFrames, log, run, framed, tame, (alike.ends log _).2 ends, ends, seen⟩

end OneShot.Split
