import OneShot.Proofs.Split.Splitting

/-!
# Two runs step by step

Where the configurations of two runs correspond, both runs are over, or both make a step,
after which they meet again.
-/

namespace OneShot.Split

open Config (Reaches)
open List (Forall₂)
open Machine (Phase)

variable {c : Code} {J : Joint} {w w' : World (guest c)} {S T : List (Activation (guest c))} {g h : Gen}
  {C C' : Config (guest c)} {lone : Prop} {a b : Signal} {r r' : Reply}

/-- A function that a machine has called raises a stop, or a generator that it has closed raises something. -/
def misbehaves : Config (guest c) → Bool
  | ⟨_, .running _ (.library (.machine _ p)) :: _, .reply r⟩ => unruly p r
  | _ => false

/-- Both runs are over, with replies that are alike. -/
inductive Over : Config (guest c) → Config (guest c) → Prop
  | intro (J : Joint) {w w' : World (guest c)} (worlds : Worlds J w w') {r r' : Reply} (reply : ReplyAlike J r r') :
      Over ⟨w, [], .reply r⟩ ⟨w', [], .reply r'⟩

/-- Both runs make a step, and meet. -/
def Advance (lone : Prop) (C C' : Config (guest c)) : Prop :=
  ∃ D D', C.step = .ok D ∧ C'.step = .ok D' ∧ Meets lone D D'

/-! ## Replies -/

/-- The body of a generator gets a reply. -/
theorem Worlds.delivers (W : Worlds J w w') (layout : Stacks J S T) (heard : Heard S) (busy : Busy w S g) (busy' : Busy w' T h)
    (pair : J.names.gens g h) {p q : Routine (guest c)} (alike : RoutineAlike J g.id h.id p q) (reply : ReplyAlike J r r')
    (hears : ∀ v, r = .yielded v → Hears (.running g p)) (ruly : misbehaves ⟨w', .running h q :: T, .reply r'⟩ = false) :
    Meets J.lone (Config.turnOf (p.step w r).1 S g (p.step w r).2) (Config.turnOf (q.step w' r').1 T h (q.step w' r').2) := by
  cases alike with
  | plain alike => exact W.serves layout (.generator pair) (fun _ => heard) alike reply hears
  | asking a b conts value error slices => exact (W.asks layout heard pair busy busy' a b conts value error slices).meets
  | machine runs runs' resident =>
      exact W.works layout heard busy busy' pair (.machine runs runs' resident) reply hears ruly
  | resent runs runs' empty empty' =>
      exact W.works layout heard busy busy' pair (.resent runs runs' empty empty') reply hears ruly
  | closing runs runs' contents error =>
      exact W.works layout heard busy busy' pair (.closing runs runs' contents error) reply hears ruly

theorem Worlds.replies (W : Worlds J w w') (layout : Stacks J S T) (reply : ReplyAlike J r r') (heard : ∀ v, r = .yielded v → Heard S)
    (active : Config.Active ⟨w, S, .reply r⟩) (active' : Config.Active ⟨w', T, .reply r'⟩) (ruly : misbehaves ⟨w', T, .reply r'⟩ = false) :
    Over ⟨w, S, .reply r⟩ ⟨w', T, .reply r'⟩ ∨ Advance J.lone ⟨w, S, .reply r⟩ ⟨w', T, .reply r'⟩ := by
  cases layout with
  | nil => exact .inl (.intro J W reply)
  | @cons a b S T top below rest =>
      refine .inr ⟨_, _, rfl, rfl, ?_⟩
      have hears (v : Val) (same : r = .yielded v) : Hears a := heard v same a (by simp)
      cases top with
      | calling alike => exact W.serves rest .function nofun alike reply hears
      | running pair alike =>
          exact W.delivers rest (below rfl) (.of_active active rfl) (.of_active active' rfl) pair alike reply hears ruly
      | relaying s pair other => exact (W.relays rest (below rfl) s pair other reply).meets
      | closing pair => exact (W.closed rest pair reply).meets
      | exiting s pair error => exact (W.exits rest (below rfl) s pair error reply).meets
  | @split p q S T spans asks below rest =>
      refine .inr ⟨_, _, rfl, rfl, ?_⟩
      have hears (v : Val) (same : r = .yielded v) : Hears (.running J.seam.relay (machine J.seam.inner p) : Activation (guest c)) :=
        heard v same _ (by simp)
      obtain ⟨tail, splits, resident⟩ := spans
      exact (Drives.split splits below rest).works W (.of_active active rfl) (.of_active active' rfl) resident asks reply hears ruly
  | @swept p q r S T g h pair sweeps below rest =>
      refine .inr ⟨_, _, rfl, rfl, ?_⟩
      have running : w.status J.seam.nested = .running :=
        World.status_of ((Running.running active _).2 (List.mem_cons_of_mem _ List.mem_cons_self))
      exact W.closed_swept sweeps below rest pair running reply

/-! ## Steps -/

/-- Runs that correspond are both over, or make a step and meet again. -/
theorem Corresponds.progress (h : Corresponds lone C C') (active : C.Active) (active' : C'.Active) (ruly : misbehaves C' = false) :
    Over C C' ∨ Advance lone C C' := by
  cases h with
  | joint J W layout signals =>
      cases signals with
      | reply alike heard => exact W.replies layout alike heard active active' ruly
      | call caller alike args => exact .inr ⟨_, _, rfl, rfl, (W.calls layout alike args).meets⟩
      | convert caller alike => exact .inr ⟨_, _, rfl, rfl, (W.converts layout alike).meets⟩
      | throwInto caller pair alike => exact .inr ⟨_, _, rfl, rfl, (W.requests layout rfl rfl pair .none alike).meets⟩
      | consume caller pair => exact .inr ⟨_, _, rfl, rfl, (W.consumes layout pair).meets⟩
      | check caller pair => exact .inr ⟨_, _, rfl, rfl, (W.checks layout pair).meets⟩
      | dismiss caller pair slices => exact .inr ⟨_, _, rfl, rfl, (W.dismisses layout slices).meets⟩
      | runMachine caller inside inside' idle idle' stands =>
          exact .inr ⟨_, _, rfl, rfl, (W.runsMachine layout inside inside' idle idle' stands).meets⟩
      | advance pair alike heard => exact .inr ⟨_, _, rfl, rfl, W.advanced layout pair active active' heard alike⟩
      | close pair => exact .inr ⟨_, _, rfl, rfl, W.closed_all layout pair active active'⟩
  | @swept J w w' S T p q r g h W sweeps heard rest pair =>
      have running : w.status J.seam.nested = .running :=
        World.status_of ((Running.running active _).2 (List.mem_cons_of_mem _ List.mem_cons_self))
      exact .inr ⟨_, _, rfl, rfl, W.closes_swept sweeps heard rest pair running⟩
  | discards J s caller W seats heard rest pair => exact .inr ⟨_, _, rfl, rfl, (W.marks rest seats heard pair s caller).meets⟩
  | @refused J w w' S T seat seat' s k l x y W seats heard rest alike =>
      refine .inr ⟨_, _, Config.step_body w S seat _ _, Config.step_body w' T seat' _ _, ?_⟩
      have served := W.serves rest seats heard (.code s) (.raised alike) fun _ => nofun
      exact served

end OneShot.Split
