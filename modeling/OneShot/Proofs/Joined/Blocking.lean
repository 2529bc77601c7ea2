import OneShot.Proofs.Joined.Ordering
import OneShot.Proofs.Joined.Rewrapping

/-!
# Awaiting in two ways

Computations await under an asynchronous driver, which their escapes come to, or block
under any driver.  They do the same, and have their coroutines run in the same order.
-/

namespace OneShot.Joined

variable {c : Code}

/-! ## Computations that block -/

def Scope.blocking : Scope → Scope
  | .await n _ => .await n true
  | w => w

def Wrap.blocking : Wrap → Wrap
  | .scope w => .scope w.blocking
  | .combined id head inner => .combined id head.blocking inner.blocking

/-- The same computation under awaiters that block. -/
def Comp.blocking {σ : Type} (p : Comp σ) : Comp σ := ⟨p.wraps.map Wrap.blocking, p.made, p.body⟩

theorem Wrap.scopes_blocking (f : Wrap) : f.blocking.scopes = f.scopes.map Scope.blocking := by
  induction f with
  | scope w => rfl
  | combined id head inner first second => simp [Wrap.blocking, Wrap.scopes, first, second]

theorem Comp.scopes_blocking {σ : Type} (p : Comp σ) : p.blocking.scopes = p.scopes.map Scope.blocking := by
  simp [Comp.scopes, Comp.blocking, List.map_flatMap, List.flatMap_map, Wrap.scopes_blocking]

theorem stacks_blocking {c' : Code} (T : Translation c c') (names : T.name = id)
    (blocks : ∀ b, T.blocking b = true)
    {d : c.Memory} {d' : c'.Memory}
    (init : ∀ i, c'.init i d' = c.init i d) (ws : List Scope) :
    T.Stacks (parts d ws) (parts d' (ws.map Scope.blocking)) := by
  induction ws with
  | nil => exact .nil
  | cons w ws ih =>
      refine ih.append ?_
      cases w with
      | handle l =>
          have stacked := Translation.Stacks.part (T := T) (.layer l) .nil
          simp only [Translation.part, names, id] at stacked
          exact stacked
      | state i =>
          have stacked := Translation.Stacks.part (T := T) (.state i (c.init i d).1 (c.init i d).2) .nil
          simp only [Translation.part] at stacked
          simpa only [Scope.parts, Scope.blocking, init] using stacked
      | await n b =>
          have stacked := Translation.Stacks.part (T := T) (.await n b) .nil
          simp only [Translation.part, blocks] at stacked
          exact stacked
      | reset n => exact .part (.prompt n) .nil
      | nothing => exact .nil

/-! ## The two ways -/

theorem rewraps_blocking : Rewraps (c := c) Comp.blocking id (fun _ => true) fun _ => False where
  body _ := rfl
  begins d p := by
    rw [Comp.scopes_blocking]
    have stacked := stacks_blocking (d := d) (rewrapping (c := c) Comp.blocking id (fun _ => true)
      fun _ => False) rfl (fun _ => rfl) (fun _ => rfl) p.scopes
    exact Eq.mp (congrArg _ (parts_rewrap (c := c) d _)) stacked
  extra _ none_more := none_more.elim

/-- Code that leaves all waiting to its awaiters. -/
def Code.Stays (c : Code) : Prop := ∀ d s a t s', (c.step d s a).2 ≠ .escape t s'

/-- The same programs, where awaiters block. -/
abbrev stopping (c : Code) : Translation c (c.rewrap Comp.blocking) :=
  rewrapping Comp.blocking id (fun _ => true) fun _ => False

theorem follows_blocking (stays : c.Stays) : Follows true false
    (fun J J' => (stopping c).Relates J J' ∧ True) (stopping c).same :=
  Translation.follows (rewraps_blocking.lawful fun b => by simp) (fun _ _ => trivial)
    fun related _ s a control => by
      obtain ⟨same, acts⟩ := step_rewrap related.memory s a
      exact ⟨same, acts, fun o s' _ above f below _ more => more.elim,
        fun t s' escapes => absurd escapes (stays _ _ _ _ _)⟩

/--
Computations that leave all waiting to awaiters run alike under an asynchronous driver and
under a driver that is not, where the awaiters block: with the same result or the same
error, after the same code was run in the same order.  In both runs each coroutine is run to
its outcome once it is awaited, with which goes on the code that awaits it, and no other one.
-/
theorem blocking_agrees (c : Code) (stays : c.Stays) (p : Comp c.State) (d : c.Memory)
    (settings settings' : Settings) :
    Alike (start true p d settings) (start (c := c.rewrap Comp.blocking) false p.blocking d settings')
      (fun M M' => M.data = M'.data ∧ M.log = M'.log) ∧
    (∀ fuel w r, Config.run fuel (start true p d settings) = some (w, r) →
      ∃ e : Ending, e.Replies r ∧ Orderly true e w.memory.memory.log) ∧
    ∀ fuel w r, Config.run fuel (start (c := c.rewrap Comp.blocking) false p.blocking d settings') =
      some (w, r) → ∃ e : Ending, e.Replies r ∧ Orderly false e w.memory.memory.log := by
  refine ⟨(follows_blocking stays).alike ⟨rewraps_blocking.begin p d, trivial⟩ settings settings', ?_, ?_⟩
  · intro fuel w r ended
    obtain ⟨e, ends, replies⟩ := (adequate true p d settings).2 fuel w r ended
    exact ⟨e, replies, orderly_of_ends ends⟩
  · intro fuel w r ended
    obtain ⟨e, ends, replies⟩ := (adequate false _ _ _).2 fuel w r ended
    exact ⟨e, replies, orderly_of_ends ends⟩

/-- Code that waits for a coroutine, which gives way once and then fails, and catches what it fails with. -/
def catching (wait : Act Bool Bool) : Code where
  Memory := Unit
  State := Bool
  Task := Bool
  step _ waited a := ((), match waited, a with
    | false, _ => wait
    | true, .failed _ => .done (.value (.str "caught") (Val.generator?_str _))
    | true, .value _ => .done (.value .none Val.generator?_none))
  exit _ _ := ()
  task _ paused := ((), if paused then .done (.failed resumedTwice) else .pause true)
  onReturn _ _ _ := ((), .result (.value .none Val.generator?_none))
  clause _ _ _ _ := ((), .result (.value .none Val.generator?_none))
  init _ _ := (0, .none)

theorem blocking_agrees_catching : ∃ fuel w,
    Config.run fuel (start (c := (catching (.perform (.await 0 false) true)).rewrap Comp.blocking) false
      (Comp.blocking ⟨[.scope (.await 0 false)], false, false⟩) () default) =
      some (w, .value (.str "caught")) := by
  have stays : (catching (.perform (.await 0 false) true)).Stays := by
    rintro ⟨⟩ (_ | _) (_ | _) t s' <;> simp [catching]
  have ended : ((begin (c := catching (.perform (.await 0 false) true)) ⟨[.scope (.await 0 false)], false, false⟩
      ()).run true 10).map Prod.snd = some (.result (.value (.str "caught") rfl)) := rfl
  exact (blocking_agrees (catching (.perform (.await 0 false) true)) stays _ () default default).1.value ended

end OneShot.Joined
