import OneShot.Proofs.Frames.Delegation

/-!
# Spent machines

A machine that resends an invocation has given its whole stack away.  It never gets
anything back: whatever is sent or thrown into it then is its end.
-/

namespace OneShot

open Store (Quietly)

variable {G : Guest} {trace : Trace G} {c d : Config G}

/-- The machine `m`, which `g` runs, has no stack and waits at its resend, or has left it. -/
def Spent (c : Config G) (g : Gen) (m : Nat) : Prop :=
  c.world.store.stack m = [] ∧
    (c.world.status g = .suspended (.library (.machine m .resent)) .inner ∨
      (∃ h rest r, h.id = g.id ∧ c.stack = .running h (.library (.machine m .resent)) :: rest ∧
        c.signal = .reply r) ∨ c.world.status g = .finished)

/-- The status of a generator goes by its number. -/
theorem World.status_congr {g h : Gen} (w : World G) (same : h.id = g.id) :
    w.status h = w.status g := by
  unfold World.status
  rw [same]

namespace Machine

variable {s t : Store} {m : Nat} {p : Phase} {r : Reply} {moved : Turn Phase}

/-- Whatever a machine without a stack gets at its resend is its end. -/
theorem Does.of_resent (does : Does s m .resent r t moved) (own : s.Own)
    (inside : m < s.machines.size) (empty : s.stack m = []) :
    t.stack m = [] ∧ moved.next? = none := by
  cases does with
  | @settles _ _ o base left u _ _ delivers delivered after =>
      have sets := delivers.sets own inside after
      have nothing : base = [] := by
        cases delivers with
        | answered r v waits => exact empty
        | raised x waits => exact empty
      subst nothing
      cases delivered with
      | finish o =>
          refine ⟨sets.stack_eq, ?_⟩
          cases o with
          | ok v => rfl
          | failed v => cases v <;> rfl
  | halts left after ending unasked begun =>
      exact ⟨(sets_of_take left own after).stack_eq.trans empty, ending⟩
  | closes contents => rcases contents with ⟨same, -⟩ | same <;> contradiction

theorem Followed.ending {w : World G} {g : Gen} {rest : List (Activation G)}
    (followed : Followed w g m rest t moved d) (ending : moved.next? = none) :
    d.world.status g = .finished := by
  cases followed with
  | ends _ quiet final => exact World.status_setStatus_finished w g
  | _ => contradiction

/-- What a machine yields is an escape, or a resend of all that it had. -/
theorem Does.yields {v : Val} {how : Suspension} (does : Does s m p r t (.ask (.yield v how) p'))
    (own : s.Own) (inside : m < s.machines.size) :
    (∃ id action, v = .escape id action) ∨ p' = .resent ∧ how = .inner ∧ t.stack m = [] := by
  generalize made : Turn.ask (.yield v how) p' = turn at does
  cases does with
  | settles delivers delivered after => exact absurd made.symm (delivered.ask_ne_yield _ _ _)
  | halts left after ending unasked begun =>
      subst made
      contradiction
  | escapes c id action =>
      cases made
      exact .inl ⟨id, action, rfl⟩
  | @closes _ _ w rest x contents => cases w <;> cases made
  | @discards c op w rest stack unasked => cases c <;> cases made
  | captures invoked stack brings after directs =>
      cases directs with
      | owner effect clause captured unowned => cases made
      | outward id whole unowned =>
          cases made
          exact .inr ⟨rfl, rfl, (brings.sets own inside after).stack_eq.trans whole⟩

end Machine

/-- A machine that yields anything but an escape is spent. -/
theorem Standing.spent (standing : Standing trace c) (stepped : c.step = .ok d) {g : Gen} {m : Nat}
    {p : Machine.Phase} {r : Reply} {rest : List (Activation G)} {v : Val} {how : Suspension}
    {p' : Routine G} (stack : c.stack = .running g (.library (.machine m p)) :: rest)
    (signal : c.signal = .reply r)
    (turn : ((Routine.library (.machine m p)).step c.world r).2 = .ask (.yield v how) p')
    (other : ∀ id action, v ≠ .escape id action) :
    Spent d g m ∧ d.world.status g = .suspended (.library (.machine m .resent)) .inner := by
  have mem : Activation.running g (.library (.machine m p)) ∈ c.stack := by simp [stack]
  obtain ⟨i, -, ran, -⟩ := standing.seated.machine mem rfl
  have inside := standing.sound.ran m _ ran
  obtain ⟨t, moved, made, does, followed⟩ :=
    standing.sound.follows standing.seated stack signal stepped
  obtain ⟨q, turned, rfl⟩ := Turn.map_eq_ask turn
  obtain ⟨p', made', rfl⟩ := Turn.map_eq_ask turned
  have same : moved = .ask (.yield v how) p' := by
    rw [← made']
    exact (congrArg Prod.snd made).symm
  subst same
  rcases does.yields standing.sound.own inside with ⟨id, action, rfl⟩ | ⟨rfl, rfl, empty⟩
  · exact absurd rfl (other id action)
  · cases followed with
    | yields =>
        have there := (Array.getElem?_eq_some_iff.1 (Manned.running standing.active mem rfl)).1
        have status := World.status_setStatus (w := { c.world with store := t }) there
          (.suspended (.library (.machine m .resent)) .inner)
        exact ⟨⟨empty, .inl status⟩, status⟩
    | ends ending quiet final => contradiction

namespace Spent

variable {g : Gen} {m : Nat}

/-- A spent machine that is suspended stays so, or goes on to its end. -/
theorem of_suspended (moves : Moves c d) (active : c.Active)
    (status : c.world.status g = .suspended (.library (.machine m .resent)) .inner) :
    d.world.status g = .suspended (.library (.machine m .resent)) .inner ∨
      ∃ h rest r, h.id = g.id ∧ d.stack = .running h (.library (.machine m .resent)) :: rest ∧
        d.signal = .reply r := by
  have there := World.getElem?_of_status status (by simp)
  rcases moves.status_of_idle active there (by simp) with
    same | ⟨h, j, advanced, same⟩ | ⟨h, closed, same⟩
  · exact .inl (World.status_of same)
  · obtain ⟨w, stack, signal⟩ := c
    cases advanced
    have status' : w.status h = _ := (w.status_congr same).trans status
    cases moves with
    | stays quiet unmoved => exact .inl status
    | breaks x quiet ending =>
        rcases ending with ⟨p, ending⟩ | ending <;> rw [status'] at ending <;> contradiction
    | begins ending =>
        rw [status'] at ending
        contradiction
    | resumes quiet ending =>
        rw [status'] at ending
        cases ending
        exact .inr ⟨h, stack, _, same, rfl, rfl⟩
    | relays ending =>
        rw [status'] at ending
        contradiction
    | exits x ending =>
        rw [status'] at ending
        contradiction
  · obtain ⟨w, stack, signal⟩ := c
    cases closed
    have status' : w.status h = _ := (w.status_congr same).trans status
    cases moves with
    | spares quiet final => exact .inl status
    | discards ending =>
        rw [status'] at ending
        contradiction
    | interrupts x quiet ending =>
        rw [status'] at ending
        cases ending
        exact .inr ⟨h, _, _, same, rfl, rfl⟩
    | pursues x quiet ending =>
        rw [status'] at ending
        contradiction

/-- What has finished stays so. -/
theorem of_finished (moves : Moves c d) (active : c.Active) (inside : g.id < c.world.gens.size)
    (ending : c.world.status g = .finished) : d.world.status g = .finished := by
  have there : c.world.gens[g.id]? = some .finished := by
    have now := Array.getElem?_eq_getElem inside
    have status := World.status_of now
    rw [now, ← status, ending]
  rcases moves.status_of_idle active there (by simp) with
    same | ⟨h, j, advanced, same⟩ | ⟨h, closed, same⟩
  · exact World.status_of same
  · obtain ⟨w, stack, signal⟩ := c
    cases advanced
    have ending' : w.status h = .finished := (w.status_congr same).trans ending
    cases moves with
    | stays quiet unmoved => exact ending
    | breaks x quiet status =>
        have finished := World.status_setStatus_finished w h
        exact ((World.status_congr _ same).symm).trans finished
    | begins status => rw [ending'] at status; contradiction
    | resumes quiet status => rw [ending'] at status; contradiction
    | relays status => rw [ending'] at status; contradiction
    | exits x status => rw [ending'] at status; contradiction
  · obtain ⟨w, stack, signal⟩ := c
    cases closed
    have ending' : w.status h = .finished := (w.status_congr same).trans ending
    cases moves with
    | spares quiet final => exact ending
    | discards status => rw [ending'] at status; contradiction
    | interrupts x quiet status => rw [ending'] at status; contradiction
    | pursues x quiet status => rw [ending'] at status; contradiction

/-- A machine that is spent stays so. -/
theorem step (spent : Spent c g m) (standing : Standing trace c) (recorded : Recorded trace c)
    (genuine : Genuine trace c) (ran : (m, g.id) ∈ trace.ran) (stepped : c.step = .ok d) :
    Spent d g m := by
  obtain ⟨empty, state⟩ := spent
  have inside := standing.sound.ran m _ ran
  have moves := Config.moves_step stepped
  -- the machine only makes a step when its generator runs
  have unmoved {t : Status G} (status : c.world.status g = t) (idle : t ≠ .running) :
      d.world.store.stack m = [] := by
    rw [(standing.shift genuine stepped).stack_eq standing.sound standing.seated inside, empty]
    intro here
    obtain ⟨a, rest, r, p, stack, -, machine⟩ := Config.stepped?_eq_some here
    have mem : a ∈ c.stack := by simp [stack]
    obtain ⟨h, rfl, made, -⟩ := standing.seated.machine mem machine
    have same := standing.seated.once m _ _ ran made
    have running := World.status_of (Manned.running standing.active mem rfl)
    rw [World.status_congr _ same.symm, status] at running
    exact idle running
  rcases state with suspended | ⟨h, rest, r, same, stack, signal⟩ | ending
  · refine ⟨unmoved suspended (by simp), ?_⟩
    rcases of_suspended moves standing.active suspended with still | runs
    · exact .inl still
    · exact .inr (.inl runs)
  · obtain ⟨t, moved, -, does, followed⟩ :=
      standing.sound.follows standing.seated stack signal stepped
    obtain ⟨nothing, ending⟩ := does.of_resent standing.sound.own inside empty
    have own := does.own standing.sound.own inside
    refine ⟨?_, .inr (.inr ?_)⟩
    · rw [own.stack_eq (Store.machines_of_engine followed.quiet.engine), nothing]
    · exact (World.status_congr _ same.symm).trans (followed.ending ending)
  · have known := recorded.known m _ ran
    exact ⟨unmoved ending (by simp), .inr (.inr (of_finished moves standing.active known ending))⟩

end Spent
end OneShot
