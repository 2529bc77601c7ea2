import OneShot.Proofs.Split.Exiting

/-!
# Two machines that exit as one does

The upper machine closes what it has, and then the lower one what it has; the machine of
the other run closes one after the other.
-/

namespace OneShot.Split

open Config (Reaches)
open List (Forall₂)
open Machine (Phase settle)

variable {c : Code} {J K : Joint} {w w' : World (guest c)} {S T : List (Activation (guest c))} {g h : Gen} {m m' : Nat}
  {x x' y z : Exc} {p q r : Phase} {v v' : Val}

/-- What the upper machine closes is what the other one closes first. -/
theorem Worlds.sweeps (W : Worlds J w w') {vs ws vs' ws' : List Val} (sweeps : Sweeps J (.closing vs z) (.closing vs' x) (.closing (ws ++ ws') y))
    (contents : Contents J.names J.seam.relay False vs ws) (contents' : Contents J.names J.seam.relay False vs' ws')
    (exit : z.kind = .generatorExit) (error : Alike J.names (.exc x) (.exc y)) (heard : Heard S) (layout : Stacks J S T)
    (running : w.status J.seam.nested = .running) :
    Meets J.lone (Machine.turned w J.seam.relay J.seam.inner
        (.closing J.seam.relay :: .running J.seam.nested (machine J.seam.outer (.closing vs' x)) :: S) (Machine.closeNext w.store z vs))
      (Machine.turned w' J.seam.flat J.seam.whole T (Machine.closeNext w'.store y (ws ++ ws'))) := by
  obtain ⟨live, inner, outer, whole, pair, -⟩ := sweeps
  have there : J.place ≠ .absent := by simp [live]
  cases contents with
  | nil =>
      have W₁ := W.setRelay .finished there (fun _ => running) (by simp [live, Place.Holds]) (by simp [live])
      have left : Machine.turned w J.seam.relay J.seam.inner
          (.closing J.seam.relay :: .running J.seam.nested (machine J.seam.outer (.closing vs' x)) :: S) (w.store, .raise z) =
          ⟨w.setStatus J.seam.relay .finished, .closing J.seam.relay ::
            .running J.seam.nested (machine J.seam.outer (.closing vs' x)) :: S, .reply (.raised z)⟩ := by
        simp only [Machine.turned, Turn.map, Config.turnOf, Config.leave, exit]
        rfl
      have leaves : z.kind.isA .generatorExit = true := by
        rw [exit]
        decide
      have closed : Config.step ⟨w.setStatus J.seam.relay .finished, .closing J.seam.relay ::
          .running J.seam.nested (machine J.seam.outer (.closing vs' x)) :: S, .reply (.raised z)⟩ =
          .ok (Config.reply (w.setStatus J.seam.relay .finished)
            (.running J.seam.nested (machine J.seam.outer (.closing vs' x)) :: S) (.value .none)) := by
        simp [Config.step, Config.deliver, leaves]
      have next := step_sweeping (w.setStatus J.seam.relay .finished) J.seam.nested J.seam.outer vs' x S .none
      refine Meets.before (fun alone => there (W.lone alone)) (.step (left ▸ closed) (.one next)) (.refl _) ?_
      exact Worlds.closesContents (contents'.mono (le_refl _) False.elim) W₁ layout heard pair outer whole error
  | @cons g h vs ws below rest =>
      refine (Corresponds.swept J W ⟨live, inner, outer, whole, pair, ?_⟩ heard layout below).meets
      exact ⟨vs, ws, vs', ws', x, y, z, rfl, rfl, rfl, exit, rest, contents', error⟩
  | relay never => exact never.elim

/-- What was to be closed is closed. -/
theorem Worlds.swept_value (W : Worlds J w w') (sweeps : Sweeps J p q r) (heard : Heard S) (layout : Stacks J S T)
    (running : w.status J.seam.nested = .running) (v v' : Val) :
    Meets J.lone (Config.reply w (sweptBy J.seam p q S) (.value v))
      (Config.reply w' (.running J.seam.flat (machine J.seam.whole r) :: T) (.value v')) := by
  have there : J.place ≠ .absent := by simp [sweeps.live]
  obtain ⟨vs, ws, vs', ws', x, y, z, rfl, rfl, rfl, exit, rest, below, error⟩ := sweeps.rest
  exact Meets.before (fun alone => there (W.lone alone)) (.one (step_sweeping w _ _ vs z _ v))
    (.one (step_sweeping w' _ _ (ws ++ ws') y T v')) (W.sweeps sweeps rest below exit error heard layout running)

/-- What was to be closed raises something; then so do the machines. -/
theorem Worlds.swept_raised (W : Worlds J w w') (sweeps : Sweeps J p q r) (layout : Stacks J S T)
    (running : w.status J.seam.nested = .running) (alike : Alike J.names (.exc x) (.exc x'))
    (other : (x.kind.isA .generatorExit || x.kind.isA .stopIteration) = false) :
    Meets J.lone (Config.reply w (sweptBy J.seam p q S) (.raised x))
      (Config.reply w' (.running J.seam.flat (machine J.seam.whole r) :: T) (.raised x')) := by
  have there : J.place ≠ .absent := by simp [sweeps.live]
  have going : x.kind ≠ .stopIteration := by
    intro stop
    rw [stop] at other
    contradiction
  obtain ⟨live, inner, outer, whole, pair, vs, ws, vs', ws', e, e', z, rfl, rfl, rfl, -⟩ := sweeps
  have W₁ := W.setRelay .finished there (fun _ => running) (by simp [live, Place.Holds]) (by simp [live])
  let u := w.setStatus J.seam.relay .finished
  let below : List (Activation (guest c)) := .running J.seam.nested (machine J.seam.outer (.closing vs' e)) :: S
  have left : Config.step (Config.reply w (.running J.seam.relay (machine J.seam.inner (.closing vs z)) :: .closing J.seam.relay :: below) (.raised x)) =
      .ok (Config.reply u (.closing J.seam.relay :: below) (.raised x)) :=
    (Machine.step_activation w J.seam.relay J.seam.inner (.closing vs z) _ _).trans (congrArg Except.ok (if_neg going))
  have passed : Config.step (Config.reply u (.closing J.seam.relay :: below) (.raised x)) =
      .ok (Config.reply u below (.raised x)) := by
    simp [Config.step, Config.reply, Config.deliver, other]
  have raised : Config.step (Config.reply u below (.raised x)) = .ok (Machine.turned u J.seam.nested J.seam.outer S (u.store, .raise x)) :=
    Machine.step_activation u J.seam.nested J.seam.outer (.closing vs' e) S _
  have raised' : Config.step (Config.reply w' (.running J.seam.flat (machine J.seam.whole (.closing (ws ++ ws') e')) :: T) (.raised x')) =
      .ok (Machine.turned w' J.seam.flat J.seam.whole T (w'.store, .raise x')) :=
    Machine.step_activation w' J.seam.flat J.seam.whole (.closing (ws ++ ws') e') T _
  exact Meets.before (fun alone => there (W.lone alone)) (.step left (.step passed (.one raised))) (.one raised')
    (W₁.turned_raise layout (.generator pair) alike).meets

/-- What was to be closed refuses to be; then so do the machines. -/
theorem Worlds.swept_refused (W : Worlds J w w') (sweeps : Sweeps J p q r) (layout : Stacks J S T)
    (running : w.status J.seam.nested = .running) {f : Fault} (plain : f.detail = .plain)
    (other : (f.kind.isA .generatorExit || f.kind.isA .stopIteration) = false) :
    Meets J.lone (Config.refuse w (sweptBy J.seam p q S) f)
      (Config.refuse w' (.running J.seam.flat (machine J.seam.whole r) :: T) f) := by
  have keeps := W.keeps_quiet (w.store.fault f).1 (w'.store.fault f).1 rfl rfl
  have W' := W.quiet (w.store.fault f).1 (w'.store.fault f).1 rfl rfl
  exact W'.swept_raised (sweeps.keep keeps id) (layout.keep keeps fun _ _ => id) running (FaultAlike.same plain w.store w'.store) other

/-! ## What they close -/

/-- What the machines hold next is closed. -/
theorem Worlds.closes_swept (W : Worlds J w w') (sweeps : Sweeps J p q r) (heard : Heard S) (layout : Stacks J S T)
    (pair : J.names.gens g h) (running : w.status J.seam.nested = .running) :
    Meets J.lone (Config.close w (sweptBy J.seam p q S) g)
      (Config.close w' (.running J.seam.flat (machine J.seam.whole r) :: T) h) := by
  obtain ⟨-, -, kind, kind'⟩ := W.fits.gen pair
  have status := (W.gens g h pair).plain fun _ same => same ▸ running
  have below : Stacks J (.closing g :: sweptBy J.seam p q S) (.closing h :: .running J.seam.flat (machine J.seam.whole r) :: T) :=
    .swept pair sweeps heard layout
  generalize there : w.status g = t at status
  generalize there' : w'.status h = t' at status
  cases status with
  | suspended how routine => exact (W.closes_suspended pair below there there' routine).meets
  | delegating s pair' => exact (W.closes_delegating pair below there there' pair').meets
  | fresh routine =>
      unfold Config.close
      rw [there, there']
      refine (W.setStatus pair .finished).swept_value sweeps heard layout ?_ _ _
      refine (World.status_setStatus_of_ne (fun same => ?_) _).trans running
      rw [(W.fits.gens sweeps.pair pair (.inl same)).1, there] at running
      cases running
  | running =>
      unfold Config.close
      rw [there, there', kind, kind']
      exact W.swept_refused sweeps layout running rfl rfl
  | finished =>
      unfold Config.close
      rw [there, there']
      exact W.swept_value sweeps heard layout running _ _

/-- What the machines have held has been closed. -/
theorem Worlds.closed_swept (W : Worlds J w w') (sweeps : Sweeps J p q r) (heard : Heard S) (layout : Stacks J S T)
    (pair : J.names.gens g h) (running : w.status J.seam.nested = .running) {a a' : Reply} (reply : ReplyAlike J a a') :
    Meets J.lone (Config.deliver w (.closing g) (sweptBy J.seam p q S) a)
      (Config.deliver w' (.closing h) (.running J.seam.flat (machine J.seam.whole r) :: T) a') := by
  obtain ⟨-, -, kind, kind'⟩ := W.fits.gen pair
  rcases reply.yields with ⟨v, v', rfl, rfl⟩ | ⟨v, v', rfl, rfl, alike⟩ | ⟨x, x', rfl, rfl, alike⟩
  · simp only [Config.deliver, kind, kind']
    exact W.swept_refused sweeps layout running rfl rfl
  · exact W.swept_value sweeps heard layout running _ _
  · simp only [Config.deliver, alike.kind]
    split
    · exact W.swept_value sweeps heard layout running _ _
    · rename_i other
      exact W.swept_raised sweeps layout running alike (by rw [alike.kind]; exact Bool.eq_false_iff.2 other)

end OneShot.Split
