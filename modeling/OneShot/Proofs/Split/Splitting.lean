import OneShot.Proofs.Split.Sweeping

/-!
# Two machines that wait as one does

While both machines of the first run wait, each in its own generator, the generator of the
lower one goes with that of the other run.  What it is told is passed on to the upper one.
-/

namespace OneShot.Split

open Config (Reaches)
open List (Forall₂)
open Machine (Phase settle)

variable {c : Code} {J K : Joint} {w w' : World (guest c)} {S T : List (Activation (guest c))} {g h d e : Gen} {m n : Nat}
  {tail : List Val} {x x' : Exc} {r r' : Reply} {i j : Input} {o : Outcome}

/-! ## The upper machine is told -/

theorem settle_gen {s : Store} (own : s.Own) (inside : m < s.machines.size) {t : Tag} {fs : List Val}
    (stack : s.stack m = genFrame d t :: fs) (o : Outcome) :
    settle s m o = (s, .ask (.advance d o.input) (.advancing (.gen d))) := by
  obtain ⟨owner, there⟩ := own.machine inside
  rw [settle_of (by rw [stack]; exact deliver_gen o d t fs s), ← stack, Store.setStack_self there]

section Told

variable (own : w.store.Own) (inside : m < w.store.machines.size) {t : Tag} {fs : List Val} (stack : w.store.stack m = genFrame d t :: fs)

include own inside stack

/-- A machine that starts has the generator on top start, and so what this one runs. -/
theorem reaches_start (fresh : w.status d = .fresh (machine n .start)) (S : List (Activation (guest c))) :
    Reaches 3 ⟨w, .running g (machine m .start) :: S, .reply (.value .none)⟩
      (Machine.turned (w.setStatus d .running) d n (.running g (machine m (.advancing (.gen d))) :: S) (Machine.start w.store n)) := by
  let below : List (Activation (guest c)) := .running g (machine m (.advancing (.gen d))) :: S
  have first : Config.step ⟨w, .running g (machine m .start) :: S, .reply (.value .none)⟩ = .ok ⟨w, below, .advance d (.send .none)⟩ := by
    refine (Machine.step_activation w g m .start S _).trans ?_
    rw [Machine.step, start_own own inside, settle_gen own inside stack]
    · rfl
    · exact fun _ => by simp
  have second := Config.step_advance' w below d (.send .none)
  rw [advance_fresh w below fresh] at second
  exact .step first (.step second (.one (Machine.step_activation (w.setStatus d .running) d n .start below _)))

/-- What a machine that has passed an escape on is told goes to where the escape has come from. -/
theorem reaches_resumed (escaped : w.status d = .suspended (machine n .escaped) .direct) (S : List (Activation (guest c)))
    (tells : Outcome.Tells o r) :
    Reaches 2 (Machine.turned w g m S (settle w.store m o))
      (Machine.turned (w.setStatus d .running) d n (.running g (machine m (.advancing (.gen d))) :: S)
        (Machine.step w.store n .escaped r)) := by
  let below : List (Activation (guest c)) := .running g (machine m (.advancing (.gen d))) :: S
  have first : Machine.turned w g m S (settle w.store m o) = ⟨w, below, .advance d o.input⟩ := by
    rw [settle_gen own inside stack]
    rfl
  have second := Config.step_advance' w below d o.input
  rw [tells.resumes escaped nofun] at second
  rw [first]
  exact .step second (.one (Machine.step_activation (w.setStatus d .running) d n .escaped below r))

end Told

/-! ## Both machines go on -/

section Both

variable (W : Worlds J w w') (splits : Splits J tail) (heard : Heard S) (layout : Stacks J S T) (busy : Busy w S J.seam.nested)
  (busy' : Busy w' T J.seam.flat)

include W splits heard layout busy busy'

/-- Both machines start, and the one that has all. -/
theorem Worlds.starts_split (stands : J.Stands J.seam.inner J.seam.whole tail)
    (fresh : w.status J.seam.relay = .fresh (machine J.seam.inner .start)) :
    Meets J.lone ⟨w, .running J.seam.nested (machine J.seam.outer .start) :: S, .reply (.value .none)⟩
      ⟨w', .running J.seam.flat (machine J.seam.whole .start) :: T, .reply (.value .none)⟩ := by
  have there : J.place ≠ .absent := by simp [splits.live]
  obtain ⟨t, fs, stack, -⟩ := splits.below
  rw [← W.store] at stack
  have reached := reaches_start W.own (W.runs _ _ splits.outer) stack fresh (g := J.seam.nested) S
  have W₁ := W.setRelay .running there (fun _ => busy.running) (by simp [splits.live, Place.Holds]) (by simp [splits.live])
  refine Meets.before (fun alone => there (W.lone alone)) reached
    (.one (Machine.step_activation w' J.seam.flat J.seam.whole .start T _)) ?_
  exact (Drives.split splits heard layout).starts W₁ (Running.push busy fresh (by simp) (by simp)) busy' stands

variable (tops : J.Tops J.seam.inner J.seam.whole tail)
  (escaped : w.status J.seam.relay = .suspended (machine J.seam.inner .escaped) .direct)

include tops escaped

/-- What the machines get is delivered to the generators on top. -/
theorem Worlds.settles_split {o' : Outcome} (alike : OutcomeAlike J.names o o') (tells : Outcome.Tells o r)
    (settled : Machine.step w.store J.seam.inner .escaped r = settle w.store J.seam.inner o) :
    Meets J.lone (Machine.turned w J.seam.nested J.seam.outer S (settle w.store J.seam.outer o))
      (Machine.turned w' J.seam.flat J.seam.whole T (settle w'.store J.seam.whole o')) := by
  have there : J.place ≠ .absent := by simp [splits.live]
  obtain ⟨t, fs, stack, -⟩ := splits.below
  rw [← W.store] at stack
  have reached := reaches_resumed W.own (W.runs _ _ splits.outer) stack escaped (g := J.seam.nested) S tells
  have W₁ := W.setRelay .running there (fun _ => busy.running) (by simp [splits.live, Place.Holds]) (by simp [splits.live])
  rw [settled] at reached
  refine Meets.before (fun alone => there (W.lone alone)) reached (.refl _) (Corresponds.meets ?_)
  exact (Drives.split splits heard layout).settles_topped W₁ (Running.push busy escaped (by simp) (by simp)) busy' tops alike

omit busy' in
/-- The machines are told to exit. -/
theorem Worlds.exits_split (error : Alike J.names (.exc x) (.exc x')) :
    Meets J.lone (Machine.turned w J.seam.nested J.seam.outer S
        (Machine.closeNext w.store x ((w.store.stack J.seam.outer).filterMap Val.framed?)))
      (Machine.turned w' J.seam.flat J.seam.whole T
        (Machine.closeNext w'.store x' ((w'.store.stack J.seam.whole).filterMap Val.framed?))) := by
  have there : J.place ≠ .absent := by simp [splits.live]
  obtain ⟨t, fs, stack, below⟩ := splits.below
  obtain ⟨gs, stack', topped⟩ := tops
  rw [← W.store] at stack topped
  rw [← W.store'] at stack'
  let vs := fs.filterMap Val.framed?
  let made := w.store.newException .generatorExit [] .plain
  let S₁ : List (Activation (guest c)) := .closing J.seam.relay :: .running J.seam.nested (machine J.seam.outer (.closing vs x)) :: S
  let told : World (guest c) := World.setStatus { w with store := made.1 } J.seam.relay .running
  -- the lower machine closes the relay, in which the upper one is told to exit
  have first : Machine.turned w J.seam.nested J.seam.outer S
      (Machine.closeNext w.store x ((w.store.stack J.seam.outer).filterMap Val.framed?)) =
      ⟨w, .running J.seam.nested (machine J.seam.outer (.closing vs x)) :: S, .close J.seam.relay⟩ := by
    rw [stack]
    rfl
  have second := Config.step_close' w (.running J.seam.nested (machine J.seam.outer (.closing vs x)) :: S) J.seam.relay
  rw [Config.close, escaped] at second
  have third : Config.step ⟨told, .running J.seam.relay (machine J.seam.inner .escaped) :: S₁, .reply (.raised made.2)⟩ =
      .ok (Machine.turned told J.seam.relay J.seam.inner S₁
        (Machine.closeNext made.1 made.2 ((made.1.stack J.seam.inner).filterMap Val.framed?))) :=
    Machine.step_activation told J.seam.relay J.seam.inner .escaped S₁ _
  rw [first]
  refine Meets.before (fun alone => there (W.lone alone)) (.step second (.one third)) (.refl _) ?_
  have keeps := W.keeps_quiet made.1 w'.store rfl rfl
  have W₁ := (W.quiet made.1 w'.store rfl rfl).setRelay .running (by simpa [Joint.after] using there) (fun _ => busy.running)
    (by simp [Joint.after, splits.live, Place.Holds]) (by simp [Joint.after, splits.live])
  have upper : Contents J.names J.seam.relay False _ _ := topped.spread.contents.mono (le_refl _) (by simp [splits.live])
  have lower : Contents J.names J.seam.relay False vs (tail.filterMap Val.framed?) :=
    (Spread.of_frames below).contents
  have all : (w'.store.stack J.seam.whole).filterMap Val.framed? = gs.filterMap Val.framed? ++ tail.filterMap Val.framed? := by
    rw [stack', List.filterMap_append]
  rw [all]
  have base := splits.keep keeps id
  refine W₁.sweeps (J := J.on made.1 w'.store) ⟨base.live, base.inner, base.outer, base.whole, base.pair, ?_⟩ upper lower rfl error heard
    (layout.keep keeps fun _ _ => id) ?_
  · exact ⟨_, _, _, _, _, _, _, rfl, rfl, rfl, rfl, upper, lower, error⟩
  · exact (World.status_setStatus_of_ne (fun same => (W.relay there).2.2 _ _ splits.pair same) _).trans busy.running

/-- Both machines get a reply to the escape that they have passed on. -/
theorem Worlds.resumes_split (reply : ReplyAlike J r r') (silent : ∀ v, r ≠ .yielded v) :
    Meets J.lone (Machine.turned w J.seam.nested J.seam.outer S (Machine.step w.store J.seam.outer .escaped r))
      (Machine.turned w' J.seam.flat J.seam.whole T (Machine.step w'.store J.seam.whole .escaped r')) := by
  rcases reply.yields with ⟨v, v', rfl, rfl⟩ | ⟨v, v', rfl, rfl, alike⟩ | ⟨x, x', rfl, rfl, alike⟩
  · exact absurd rfl (silent v)
  · exact W.settles_split splits heard layout busy busy' tops escaped (.ok alike) (.ok v) rfl
  · cases leaves : x.kind.isA .generatorExit with
    | true =>
        simp only [Machine.step, leaves, alike.kind ▸ leaves, if_true]
        exact W.exits_split splits heard layout busy tops escaped alike
    | false =>
        have leaves' : x'.kind.isA .generatorExit = false := alike.kind ▸ leaves
        cases caught : x.isException with
        | true =>
            have caught' : x'.isException = true := alike.isException ▸ caught
            simp only [Machine.step, Machine.fail, leaves, leaves', caught, caught', if_true, Bool.false_eq_true, if_false]
            refine W.settles_split splits heard layout busy busy' tops escaped (.failed alike) (.failed x) ?_
            simp only [Machine.step, Machine.fail, leaves, caught, if_true, Bool.false_eq_true, if_false]
        | false =>
            have caught' : x'.isException = false := alike.isException ▸ caught
            simp only [Machine.step, Machine.fail, leaves, leaves', caught, caught', Bool.false_eq_true, if_false]
            exact (W.turned_raise layout (.generator splits.pair) alike).meets

theorem Worlds.replied_split (reply : ReplyAlike J r r') (silent : ∀ v, r ≠ .yielded v) :
    Meets J.lone ⟨w, .running J.seam.nested (machine J.seam.outer .escaped) :: S, .reply r⟩
      ⟨w', .running J.seam.flat (machine J.seam.whole .escaped) :: T, .reply r'⟩ :=
  Meets.before (fun alone => absurd (splits.live.symm.trans (W.lone alone)) nofun)
    (.one (Machine.step_activation w J.seam.nested J.seam.outer .escaped S r))
    (.one (Machine.step_activation w' J.seam.flat J.seam.whole .escaped T r'))
    (W.resumes_split splits heard layout busy busy' tops escaped reply silent)

end Both

/-! ## Generators that are advanced or closed -/

/-- Two generators, of which the first one runs the lower machine: what they wait for. -/
inductive Waits (J : Joint) (relay : Status (guest c)) (g h : Gen) : Status (guest c) → Status (guest c) → Prop
  | fresh {tail : List Val} (nested : g = J.seam.nested) (flat : h = J.seam.flat) (splits : Splits J tail)
      (stands : J.Stands J.seam.inner J.seam.whole tail) (fresh : relay = .fresh (machine J.seam.inner .start)) :
      Waits J relay g h (.fresh (machine J.seam.outer .start)) (.fresh (machine J.seam.whole .start))
  | escaped {tail : List Val} (nested : g = J.seam.nested) (flat : h = J.seam.flat) (splits : Splits J tail)
      (tops : J.Tops J.seam.inner J.seam.whole tail) (escaped : relay = .suspended (machine J.seam.inner .escaped) .direct) :
      Waits J relay g h (.suspended (machine J.seam.outer .escaped) .direct) (.suspended (machine J.seam.whole .escaped) .direct)

theorem StatusAlike.plain_or_waits {relay s t : Status (guest c)} (alike : StatusAlike J relay g h s t) :
    StatusAlike.Plain J g h s t ∨ Waits J relay g h s t := by
  cases alike with
  | fresh alike => exact .inl (.fresh alike)
  | suspended how alike => exact .inl (.suspended how alike)
  | delegating s below => exact .inl (.delegating s below)
  | running => exact .inl .running
  | finished => exact .inl .finished
  | splitFresh nested flat spans fresh =>
      obtain ⟨tail, splits, resident⟩ := spans
      cases resident with
      | start stands => exact .inr (.fresh nested flat splits stands fresh)
  | splitEscaped nested flat spans escaped =>
      obtain ⟨tail, splits, resident⟩ := spans
      cases resident with
      | escaped tops => exact .inr (.escaped nested flat splits tops escaped)

section

variable (W : Worlds J w w') (layout : Stacks J S T) (pair : J.names.gens g h) (running : Running w.gens (active S))
  (running' : Running w'.gens (active T))

include W layout pair running running'

/-- Corresponding generators are advanced. -/
theorem Worlds.advanced (heard : Heard S) (alike : InputAlike J.names i j) :
    Meets J.lone (Config.advance w S g i) (Config.advance w' T h j) := by
  rcases (W.gens g h pair).plain_or_waits with plain | waits
  · exact (W.advances layout heard pair plain alike).meets
  generalize there : w.status g = s at waits
  generalize there' : w'.status h = t at waits
  cases waits with
  | fresh nested flat splits stands fresh =>
      subst nested flat
      by_cases starts : i = .send .none
      · subst starts
        cases alike with
        | send alike =>
            cases alike
            rw [advance_fresh w S there, advance_fresh w' T there']
            refine (W.setStatus pair .running).starts_split splits heard layout (Running.push running there (by simp) (by simp))
              (Running.push running' there' (by simp) (by simp)) stands ?_
            exact (World.status_setStatus_of_ne ((W.relay (by simp [splits.live])).2.2 _ _ pair).symm _).trans fresh
      · exact (W.advances_unstarted layout pair there there' alike starts).meets
  | escaped nested flat splits tops escaped =>
      subst nested flat
      have waits : (w.setStatus J.seam.nested .running).status J.seam.relay = _ :=
        (World.status_setStatus_of_ne ((W.relay (by simp [splits.live])).2.2 _ _ pair).symm _).trans escaped
      have replied {r r' : Reply} (reply : ReplyAlike J r r') (silent : ∀ v, r ≠ .yielded v) :=
        (W.setStatus pair .running).replied_split splits heard layout (Running.push running there (by simp) (by simp))
          (Running.push running' there' (by simp) (by simp)) tops waits reply silent
      cases alike with
      | send alike =>
          rw [advance_suspended w S there, advance_suspended w' T there']
          exact replied (.value alike) fun _ => by simp
      | throw alike =>
          rcases alike.exc? with ⟨x, x', rfl, rfl, alike⟩ | ⟨other, other'⟩
          · have thrown := (Outcome.Tells.failed x).resumes there (by simp) S
            have thrown' := (Outcome.Tells.failed x').resumes there' (by simp) T
            simp only [Outcome.input] at thrown thrown'
            rw [thrown, thrown']
            exact replied (.raised alike) fun _ => by simp
          · exact (W.refuses_direct layout there there' other other').meets

/-- Corresponding generators are closed. -/
theorem Worlds.closed_all : Meets J.lone (Config.close w S g) (Config.close w' T h) := by
  rcases (W.gens g h pair).plain_or_waits with plain | waits
  · exact (W.closes layout pair plain).meets
  generalize there : w.status g = s at waits
  generalize there' : w'.status h = t at waits
  unfold Config.close
  rw [there, there']
  cases waits with
  | fresh => exact ((W.setStatus pair .finished).gives layout .none).meets
  | escaped nested flat splits tops escaped =>
      subst nested flat
      have below : Stacks J (.closing J.seam.nested :: S) (.closing J.seam.flat :: T) := .cons (.closing pair) nofun layout
      have hears : Heard (.closing J.seam.nested :: S : List (Activation (guest c))) := .of_head trivial
      let made := w.store.newException .generatorExit [] .plain
      let made' := w'.store.newException .generatorExit [] .plain
      have keeps := W.keeps_quiet made.1 made'.1 rfl rfl
      have W₁ := (W.quiet made.1 made'.1 rfl rfl).setStatus pair .running
      have exit : Alike J.names (.exc made.2) (.exc made'.2) := .ofArgs _ _ .nil
      have pushed := Running.push (w := { w with store := made.1 }) running there nofun nofun
      have pushed' := Running.push (w := { w' with store := made'.1 }) running' there' nofun nofun
      refine W₁.replied_split (J := J.on made.1 made'.1) (splits.keep keeps id) hears (below.keep keeps fun _ _ => id) pushed pushed'
        (tops.keep keeps splits.inner splits.whole id id) ?_ (.raised exit) fun _ => nofun
      exact (World.status_setStatus_of_ne ((W.relay (by simp [splits.live])).2.2 _ _ pair).symm _).trans escaped

end

end OneShot.Split
