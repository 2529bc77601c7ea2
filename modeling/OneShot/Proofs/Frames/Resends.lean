import OneShot.Proofs.Frames.Flat
import OneShot.Proofs.Frames.Following

/-!
# The shape of a resend

What becomes of the first effect that a computation performs inside of nested handlers, from
its suspension to the call of the clause, or to the driver; and what becomes of the effects
that it performs once the clause has resumed it.
-/

namespace OneShot

open Config (Reaches)

variable {G : Guest} {g : Gen} {ts : List Tier} {r : Tier}

/--
At `u` the clause `f` of the handler of `t` is called for an effect that was performed at `d`
and resent through the tiers `us`.
-/
structure Landed (d u : Config G) (g : Gen) (us : List Tier) (t : Tier) (e : Effect) (args : List Val) (f : Val) :
    Prop where
  reached : Reaches (us.length + 1) d u
  called : u.signal = .call f (.cont (contAt d.world.store.conts.size us.length) :: args) .machine
  gathers : Gathers d.world.store u.world.store g (us ++ [t]) false
  sizes : ∀ n ≤ us.length, (gathered g ((us ++ [t]).take (n + 1))).length = 2 * (n + 1)
  noted : ∃ h tag, t.layer = some (h, tag) ∧
    Noted d.world.store u.world.store (outward e us ++ [h.answers e (!us.isEmpty)])

/-- What `g` performs next is answered at once, if one of some tiers owns it. -/
def Config.Direct (x : Config G) (g : Gen) (ts : List Tier) : Prop :=
  ∀ i m B id inv e us u vs h tag f, x.stack = .running i (.library (.machine m (.advancing (.gen g)))) :: B →
    x.signal = .reply (.yielded (.invocation id inv)) → inv.effect = .effect e → ts = us ++ u :: vs →
    (∀ t ∈ us, t.clause? e = none) → u.layer = some (h, tag) → h.clause? e = some f →
    ∃ y, x.step = .ok y ∧ Answered x y g e inv.args.values (us.filterMap Tier.frame?) h tag f

theorem length_gathered_take {us vs : List Tier} {t : Tier} (layers : ∀ u ∈ us ++ t :: vs, u.layer.isSome) (n : Nat)
    (inside : n ≤ us.length) : (gathered g ((us ++ [t]).take (n + 1))).length = 2 * (n + 1) := by
  have split : us ++ t :: vs = us ++ [t] ++ vs := by simp
  rw [length_gathered _ _ fun u mem => layers u (by rw [split]; exact List.mem_append_left _ (List.mem_of_mem_take mem)),
    List.length_take, Nat.min_eq_left (by simp; omega)]

/-- The handlers of tiers that do not own an effect do not own it. -/
theorem unowned_of_tiers {us : List Tier} {e : Effect} (free : ∀ t ∈ us, t.clause? e = none) :
    Unowned (.effect e) (us.filterMap Tier.frame?) := by
  intro h tag mem e' same
  cases same
  obtain ⟨t, there, frame⟩ := List.mem_filterMap.1 mem
  have none_here := free t there
  unfold Tier.frame? at frame
  obtain ⟨l, layer, same⟩ := Option.map_eq_some_iff.1 frame
  cases same
  rw [Tier.clause?, layer, Option.bind_some] at none_here
  simp [Handler.owns, none_here]

/-- Once a continuation with the stacks of some tiers is resumed, these answer at once. -/
theorem RunOf.direct {us : List Tier} {t : Tier} {more between earlier : Trace G} {b u x : Config G} {n : Nat} {k : Cont}
    (run : RunOf (InPlace g) (more ++ b :: (between ++ u :: earlier)) x)
    (captured : ∃ inner, u.world.store.conts[k.index]? = some ⟨gathered g (us ++ [t]), inner, false⟩)
    (pushed : b.pushed? = some (n, k)) : x.Direct g (us ++ [t]) := by
  obtain ⟨inner, there⟩ := captured
  have old := (Array.getElem?_eq_some_iff.1 there).1
  obtain ⟨s, ss, some_tier⟩ := List.exists_cons_of_ne_nil (l := us ++ [t]) (by simp)
  rw [some_tier] at there ⊢
  have top : gathered g (s :: ss) =
      .frame (.generator (.gen g) s.under) :: (s.frame?.toList ++ gathered s.gen ss) := rfl
  have resumed : b.world.store.frames k = gathered g (s :: ss) := by
    rw [((run.through.1).frames_eq (fun _ _ h => h.toGenuine) old).1]
    simp [Store.frames, there]
  obtain ⟨-, flat⟩ := run.flat pushed (resumed.trans top) rfl
  have around : handlers (s.frame?.toList ++ gathered s.gen ss) = (s :: ss).filterMap Tier.frame? := by
    rw [← handlers_gathered g, top]
    rfl
  rw [around] at flat
  intro i m B id inv e us' t' vs h tag f stack signal effect split free layer owns
  have frame : t'.frame? = some (.frame (.handler (.handler h) tag)) := by simp [Tier.frame?, layer]
  rw [split, List.filterMap_append, List.filterMap_cons_some frame] at flat
  exact flat.answered (run.standing fun _ _ h => h.toGenuine) stack signal effect (unowned_of_tiers free) owns

/--
The first effect that a computation performs inside of nested handlers under a driver.  It is
resent through those that do not own it, each of which captures its stack beneath what was
captured before, and reaches the clause of the first that does; when that has resumed the
computation, all effects of these handlers are answered at once.  If no handler owns it, the
machine of the driver resends it as well, and the driver gives up.
-/
theorem RunOf.resent_through {later before : Trace G} {w : World G} {A : List (Activation G)} {c : Config G} {id : Nat}
    {i : Invocation} {e : Effect} (layers : ∀ t ∈ ts, t.layer.isSome) (driver : r.layer = none)
    (run : RunOf Genuine (later ++ ⟨w, A, .advance r.gen (.send .none)⟩ :: before) c)
    (genuine : Genuine (later ++ ⟨w, A, .advance r.gen (.send .none)⟩ :: before) c)
    (nested : w.Nested g (ts ++ [r])) (first : ∀ b ∈ later, ∀ v, b.yields? ≠ some (g, v))
    (yields : c.yields? = some (g, .invocation id i)) (effect : i.effect = .effect e) :
    ∃ d, c.step = .ok d ∧
      (∀ us t vs f, ts = us ++ t :: vs → (∀ u ∈ us, u.clause? e = none) → t.clause? e = some f →
        ∃ u, Landed d u g us t e i.args.values f ∧
          ∀ more b between earlier x n, RunOf (InPlace g) (more ++ b :: (between ++ u :: earlier)) x →
            b.pushed? = some (n, contAt d.world.store.conts.size us.length) → x.Direct g (us ++ [t])) ∧
      ((∀ t ∈ ts, t.clause? e = none) → ∃ v id',
        let op := Val.resend id' ⟨.effect e, i.args, .cont (contAt d.world.store.conts.size ts.length), i.context⟩
        Reaches (ts.length + 1) d ⟨v, A, .reply (.yielded op)⟩ ∧
        Gathers d.world.store v.store g (ts ++ [r]) false ∧
        Noted d.world.store v.store (outward e (ts ++ [r])) ∧
        (i.context.Site → op.Told) ∧
        ∀ a b B, A = a :: B → a.Refuses r.gen op b → ∀ more earlier x,
          RunOf Genuine (more ++ ⟨v, A, .reply (.yielded op)⟩ :: earlier) x → Driver.GivesUp op b B more x) := by
  have outermost : whole g (ts ++ [r]) = r.gen := whole_concat g ts r
  have standing := run.standing fun _ _ h => h
  rw [← outermost] at run genuine
  obtain ⟨a, rest, w', top, body, stepped⟩ := Config.step_of_yields yields
  obtain ⟨w₁, same, built⟩ := (run.opening (fun _ _ h => h) nested first).suspends nested.gens
    (run.standing fun _ _ h => h) genuine yields stepped
  refine ⟨_, stepped, fun us t vs f split free owns => ?_, fun free => ?_⟩
  · rw [same]
    have split' : ts ++ [r] = us ++ t :: (vs ++ [r]) := by rw [split]; simp
    obtain ⟨w₂, op, reached, passed, passes⟩ := Config.reaches_passed built nested.machines effect split' free id A
    have there : w₂.store.machines[t.machine]? = some ⟨.own (t.frames (whole g us)), t.owner⟩ := by
      rw [passes.machines t.machine, built us t _ split']
      have once := nested.machines
      rw [split', List.map_append, List.nodup_append] at once
      exact fun mem => once.2.2 _ mem _ (by simp) rfl
    obtain ⟨w₃, h, tag, layer, step, gathers, noted⟩ :=
      passes.lands passed effect owns there (waiting t.gen (vs ++ [r]) ++ A)
    refine ⟨_, ⟨reached.trans (.one step), rfl, gathers,
      fun n inside => length_gathered_take (split ▸ layers) n inside, h, tag, layer, noted⟩, ?_⟩
    exact fun more b between earlier x n run pushed => run.direct ⟨_, gathers.last⟩ pushed
  · rw [same]
    have outward : ∀ t ∈ ts ++ [r], t.clause? e = none := by
      intro t mem
      rcases List.mem_append.1 mem with mem | mem
      · exact free t mem
      · rw [List.mem_singleton.1 mem, Tier.clause?, driver]
        rfl
    obtain ⟨v, op, reached, passed, passes⟩ :=
      Config.reaches_passed built nested.machines effect (List.append_nil _).symm outward id A
    obtain ⟨id', rfl⟩ := passed.of_concat
    rw [List.length_append, List.length_singleton] at reached
    rw [effect] at reached
    refine ⟨v, id', reached, passes.gathers, passes.noted, fun site => .inr ⟨_, _, rfl, site⟩, ?_⟩
    rintro a b B rfl refuses more earlier x run
    exact RunOf.gives_up (fun _ _ h => h) refuses rfl rfl more run

/-! ## Programs with nested handlers -/

/-- What there is to a handler with one clause that returns what it gets. -/
def Handler.single? : Handler → Option (Nat × Nat × String × Nat × String)
  | ⟨a, .native .identity, [(⟨n, .str text⟩, .closure j name)]⟩ => some (a, n, text, j, name)
  | _ => none

theorem Handler.eq_of_single {h h' : Handler} {q : Nat × Nat × String × Nat × String} (first : h.single? = some q)
    (second : h'.single? = some q) : h = h' := by
  unfold single? at first second
  split at first <;> cases first
  split at second <;> cases second
  rfl

namespace World

/-- The tier of a machine that was not started. -/
def tier? (w : World G) (g : Gen) (m : Nat) (r : Gen) : Option Tier :=
  match w.store.machines[m]?, w.status r with
  | some ⟨.own [.frame (.generator (.gen g') u)], .none⟩, .fresh (.library (.machine m' .start)) =>
    if g' = g ∧ m' = m then some ⟨m, r, u, none⟩ else none
  | some ⟨.own [.frame (.generator (.gen g') u), .frame (.handler (.handler h) tag)], .handler h'⟩,
      .fresh (.library (.machine m' .start)) =>
    if g' = g ∧ m' = m ∧ h.single?.isSome ∧ h.single? = h'.single? then some ⟨m, r, u, some (h, tag)⟩ else none
  | _, _ => none

theorem of_tier? {w : World G} {m : Nat} {r : Gen} {t : Tier} (found : w.tier? g m r = some t) :
    t.machine = m ∧ t.gen = r ∧ w.store.machines[m]? = some ⟨.own (t.frames g), t.owner⟩ ∧
      w.status r = .fresh (.library (.machine m .start)) := by
  unfold tier? at found
  split at found
  · rename_i there status
    split at found
    · rename_i same
      obtain ⟨rfl, rfl⟩ := same
      cases found
      exact ⟨rfl, rfl, there, status⟩
    · cases found
  · rename_i there status
    split at found
    · rename_i same
      obtain ⟨rfl, rfl, single, alike⟩ := same
      obtain ⟨q, single⟩ := Option.isSome_iff_exists.1 single
      cases Handler.eq_of_single single (alike.symm.trans single)
      cases found
      exact ⟨rfl, rfl, there, status⟩
    · cases found
  · cases found

/-- The tiers around `g`, with these machines and generators. -/
def tiers? (w : World G) : Gen → List (Nat × Gen) → Option (List Tier)
  | _, [] => some []
  | g, (m, r) :: rest => (w.tier? g m r).bind fun t => (w.tiers? r rest).map (t :: ·)

theorem of_tiers? {w : World G} {l : List (Nat × Gen)} (found : w.tiers? g l = some ts) :
    ts.map (fun t => (t.machine, t.gen)) = l ∧ w.store.Built g ts ∧
      ∀ t ∈ ts, w.status t.gen = .fresh (.library (.machine t.machine .start)) := by
  induction l generalizing g ts with
  | nil =>
      cases found
      exact ⟨rfl, by rintro us t vs split; simp at split, by simp⟩
  | cons p l ih =>
      obtain ⟨m, r⟩ := p
      obtain ⟨t, first, tail⟩ := Option.bind_eq_some_iff.1 found
      obtain ⟨ts, rest, rfl⟩ := Option.map_eq_some_iff.1 tail
      obtain ⟨rfl, rfl, there, status⟩ := of_tier? first
      obtain ⟨same, built, tiers⟩ := ih rest
      refine ⟨by simp [same], fun us u vs split => ?_, List.forall_mem_cons.2 ⟨status, tiers⟩⟩
      cases us with
      | nil =>
          cases split
          exact there
      | cons v us =>
          cases split
          rw [whole_cons]
          exact built us u vs rfl

theorem last_of_tiers? {w : World G} {t : Tier} {p : Nat × Gen} (l : List (Nat × Gen)) (us : List Tier)
    (found : w.tiers? g (l ++ [p]) = some (us ++ [t])) : p.2 = t.gen := by
  obtain ⟨same, -⟩ := of_tiers? found
  rw [List.map_append, List.map_singleton] at same
  obtain ⟨-, same⟩ := List.append_inj' same rfl
  cases same
  rfl

theorem nested_of_tiers? {w : World G} {l : List (Nat × Gen)} (found : w.tiers? g l = some ts)
    (machines : (l.map Prod.fst).Nodup) (gens : (g.id :: l.map (·.2.id)).Nodup) (main : ∃ p, w.status g = .fresh p) :
    w.Nested g ts := by
  obtain ⟨rfl, built, tiers⟩ := of_tiers? found
  rw [List.map_map] at machines gens
  exact ⟨built, machines, gens, tiers, main⟩

end World

/-- What is in order, when whatever comes back to a stack was captured with all handlers. -/
def Entire (trace : Trace G) (c : Config G) : Prop :=
  Orderly trace c ∧ ((c.received?.bind Val.brought?).all fun k => (handlers (trace.left k.index)).isEmpty) = true

instance (trace : Trace G) (c : Config G) : Decidable (Entire trace c) := by
  unfold Entire
  infer_instance

theorem Entire.inPlace {trace : Trace G} {c : Config G} (entire : Entire trace c) (g : Gen) : InPlace g trace c where
  toOrderly := entire.1
  inside := by
    intro m op k _ received brings _
    have none_left := entire.2
    rw [received, Option.bind_some, brings, Option.all_some, List.isEmpty_iff] at none_left
    rw [none_left]
    exact List.nil_prefix

namespace Script

/-- A program whose effects are answered by the outer and by the inner one of two handlers. -/
def twoLayers : Function :=
  ⟨.plain, "main", [], ["ask", "tell", "body"], [
    .assign "ask" (uses (.op .effect) []),
    .assign "tell" (uses (.op .effect) []),
    .assign "body" (.function ⟨.generator, "body", [], [], [
      .expr (.yield (.call (.name "ask") [])),
      .result (.yield (.call (.name "tell") []))]⟩),
    .result (uses (.service .execute) [.function ⟨.plain, "outer", [], [], [
      .result (uses (.service .handle) [
        uses (.op .handler) [.name "ask", .literal .none,
          .function ⟨.generator, "clause", ["k"], [], [.result (.delegate (.call (.name "k") [.literal (.int 1)]))]⟩],
        .function ⟨.plain, "inner", [], [], [
          .result (uses (.service .handle) [
            uses (.op .handler) [.name "tell", .literal .none,
              .function ⟨.plain, "drop", ["k"], [], [.result (.literal (.int 2))]⟩],
            .name "body"])]⟩])]⟩])]⟩

end Script

theorem Config.Reaches.unique {n : Nat} {c d d' : Config G} (first : Config.Reaches n c d) (second : Config.Reaches n c d') : d = d' := by
  induction first with
  | refl c =>
      cases second
      rfl
  | step stepped rest ih =>
      cases second with
      | step stepped' rest' =>
          cases stepped.symm.trans stepped'
          exact ih rest'

/-- The effect that a generator suspends with. -/
def Config.performs? (c : Config G) (g : Gen) : Option (Nat × Invocation × Effect) :=
  match c.yields? with
  | some (g', .invocation id ⟨.effect e, args, context⟩) => if g' = g then some (id, ⟨.effect e, args, context⟩, e) else none
  | _ => none

theorem Config.of_performs? {c : Config G} {id : Nat} {i : Invocation} {e : Effect}
    (performs : c.performs? g = some (id, i, e)) : c.yields? = some (g, .invocation id i) ∧ i.effect = .effect e := by
  unfold performs? at performs
  split at performs
  · rename_i yields
    split at performs
    · rename_i same
      cases same
      cases performs
      exact ⟨yields, rfl⟩
    · cases performs
  · cases performs

/-- The effect that a machine is told of by a generator. -/
def Config.hearsOf? (c : Config G) (g : Gen) : Option Effect :=
  match c.stack, c.signal with
  | .running _ (.library (.machine _ (.advancing (.gen g')))) :: _, .reply (.yielded (.invocation _ ⟨.effect e, _, _⟩)) =>
    if g' = g then some e else none
  | _, _ => none

theorem Config.of_hearsOf? {c : Config G} {e : Effect} (hears : c.hearsOf? g = some e) : ∃ i m B id inv,
    c.stack = .running i (.library (.machine m (.advancing (.gen g)))) :: B ∧
      c.signal = .reply (.yielded (.invocation id inv)) ∧ inv.effect = .effect e := by
  unfold hearsOf? at hears
  split at hears
  · rename_i stack signal
    split at hears
    · rename_i same
      cases same
      cases hears
      exact ⟨_, _, _, _, _, stack, signal, rfl⟩
    · cases hears
  · cases hears

namespace Script

def bodyGen : Gen := ⟨0, .generator, "body"⟩

def machineGen (n : Nat) : Gen := ⟨n, .generator, "Machine.run"⟩

/-- Whether a driver is about to start the outermost machine, whose generator has a number. -/
def starts (n : Nat) (c : Config language) : Bool :=
  match c.stack, c.signal, c.world.status bodyGen with
  | .calling (.library (.execute (.running r'))) :: _, .advance r (.send .none), .fresh _ =>
    r == machineGen n && r' == machineGen n
  | _, _, _ => false

theorem of_starts {n : Nat} {c : Config language} (h : starts n c = true) :
    (∃ B, c.stack = .calling (.library (.execute (.running (machineGen n)))) :: B) ∧
      c.signal = .advance (machineGen n) (.send .none) ∧ ∃ p, c.world.status bodyGen = .fresh p := by
  unfold starts at h
  split at h
  · rename_i stack asked status
    simp only [Bool.and_eq_true, beq_iff_eq] at h
    obtain ⟨rfl, rfl⟩ := h
    exact ⟨⟨_, stack⟩, asked, _, status⟩
  · cases h

/-- Whether the body has not suspended yet. -/
def silent (trace : Trace language) : Bool := trace.all fun b => b.yields?.all fun q => q.1 != bodyGen

theorem of_silent {trace : Trace language} (h : silent trace = true) :
    ∀ b ∈ trace, ∀ v, b.yields? ≠ some (bodyGen, v) := by
  intro b mem v yields
  have here := List.all_eq_true.1 h b mem
  simp [yields] at here

end Script

open Script

/-! ### A clause that resumes -/

/--
Whether the inner one of two handlers owns what is performed at `x`, after the outer one has
owned what was performed before, and has resumed the computation.
-/
def travels (trace : Trace language) (x : Config language) : Bool :=
  match trace.drop 12, trace.drop 28, trace.drop 45 with
  | b :: _, _ :: _ :: d :: c :: later, s :: _ =>
    match s.world.tiers? bodyGen [(0, machineGen 1), (1, machineGen 2), (2, machineGen 3)],
        c.performs? bodyGen, x.hearsOf? bodyGen with
    | some [t, t', r], some (_, _, e), some e' =>
      t.layer.isSome && t'.layer.isSome && r.layer.isNone && (t.clause? e).isNone && (t'.clause? e).isSome &&
        (t.clause? e').isSome && starts 3 s && silent (later.take 13) &&
        b.pushed?.map Prod.snd == some (contAt d.world.store.conts.size 1)
    | _, _, _ => false
  | _, _, _ => false

theorem drop_of_drop_cons {α : Type} {l r : List α} {a : α} {n : Nat} (h : l.drop n = a :: r) (k : Nat) :
    r.drop k = l.drop (n + (k + 1)) := by
  rw [← List.drop_drop, h, List.drop_succ_cons]

theorem exists_travels : ∃ (more between later before : Trace language) (s c d d' u b x : Config language)
    (t t' r : Tier) (e e' : Effect) (i : Nat × Invocation),
    RunOf Entire (more ++ b :: (between ++ u :: d' :: d :: c :: (later ++ s :: before))) x ∧ starts 3 s = true ∧
      s.world.tiers? bodyGen [(0, machineGen 1), (1, machineGen 2), (2, machineGen 3)] = some [t, t', r] ∧
      silent later = true ∧ c.performs? bodyGen = some (i.1, i.2, e) ∧ x.hearsOf? bodyGen = some e' ∧
      t.layer.isSome ∧ t'.layer.isSome ∧ r.layer = none ∧ t.clause? e = none ∧ (t'.clause? e).isSome ∧
      (t.clause? e').isSome ∧ b.pushed?.map Prod.snd = some (contAt d.world.store.conts.size 1) := by
  obtain ⟨trace, x, run, found⟩ : ∃ trace x, RunOf Entire trace x ∧ travels trace x = true :=
    exists_run (fresh_begin twoLayers) 144 (by decide +kernel)
  unfold travels at found
  split at found
  · rename_i b rest u d' d c later s before atb atu ats
    split at found
    · rename_i t t' r id i e e' tiers performs hears
      simp only [Bool.and_eq_true, beq_iff_eq, Option.isNone_iff_eq_none] at found
      obtain ⟨⟨⟨⟨⟨⟨⟨⟨first, second⟩, driver⟩, free⟩, owns⟩, owns'⟩, started⟩, silent⟩, resumed⟩ := found
      have split : trace = trace.take 12 ++ b :: (rest.take 15 ++ u :: d' :: d :: c :: (later.take 13 ++ s :: before)) := by
        have first := (drop_of_drop_cons atb 15).trans atu
        have second := (drop_of_drop_cons (l := trace) (n := 31) (a := c) (r := later) (by simpa using congrArg (List.drop 3) atu) 13).trans ats
        rw [← second, List.take_append_drop, ← first, List.take_append_drop, ← atb, List.take_append_drop]
      rw [split] at run
      exact ⟨_, _, _, _, s, c, d, d', u, b, x, t, t', r, e, e', (id, i), run, started, tiers, silent, performs, hears,
        first, second, driver, free, owns, owns', resumed⟩
    · cases found
  · cases found

/--
The outer one of two handlers answers the first effect of a computation, which the machine of
the inner one has resent; the inner one answers the next effect at once.
-/
theorem RunOf.resent_through_one : ∃ (g : Gen) (t t' : Tier) (d u x y : Config language) (e e' : Effect)
    (args args' : List Val) (h : Handler) (tag : Tag) (f f' : Val), Landed d u g [t] t' e args f ∧
      x.step = .ok y ∧ Answered x y g e' args' [] h tag f' := by
  obtain ⟨more, between, later, before, s, c, d, d', u, b, x, t, t', r, e, e', ⟨id, i⟩, run, started, tiers, silent,
    performs, hears, first, second, driver, free, owns, owns', resumed⟩ := exists_travels
  obtain ⟨⟨B, stack⟩, signal, main⟩ := of_starts started
  obtain ⟨yields, effect⟩ := Config.of_performs? performs
  obtain ⟨f, owns⟩ := Option.isSome_iff_exists.1 owns
  -- the run that has come to `c`
  obtain ⟨run_u, -⟩ := (RunOf.through (G := language) run).1.through
  cases run_u with
  | step run_d' _ stepped₂ =>
  cases run_d' with
  | step run_d _ stepped₁ =>
  cases run_d with
  | step run_c entire stepped =>
  obtain ⟨w, _, _⟩ := s
  cases stack
  cases signal
  have nested : w.Nested bodyGen ([t, t'] ++ [r]) := World.nested_of_tiers? tiers (by decide) (by decide) main
  have outermost : machineGen 3 = r.gen := World.last_of_tiers? [(0, machineGen 1), (1, machineGen 2)] [t, t'] tiers
  rw [outermost] at run_c entire
  obtain ⟨d₀, stepped', answered, -⟩ := RunOf.resent_through (by simp [first, second]) driver
    (run_c.mono fun _ _ h => h.1.toGenuine) entire.1.toGenuine nested (of_silent silent) yields effect
  cases stepped.symm.trans stepped'
  obtain ⟨u₀, landed, direct⟩ := answered [t] t' [] f rfl (by simpa using free) owns
  obtain rfl : u₀ = u := landed.reached.unique (.step stepped₁ (.one stepped₂))
  -- and what is performed at `x`
  obtain ⟨q, pushed, same⟩ := Option.map_eq_some_iff.1 resumed
  have around := direct _ _ _ _ x q.1 (run.mono fun _ _ entire => entire.inPlace bodyGen)
    (pushed.trans (congrArg some (Prod.ext rfl same)))
  obtain ⟨j, m, B', id', inv, stack, signal, effect'⟩ := Config.of_hearsOf? hears
  obtain ⟨⟨h, tag⟩, layer⟩ := Option.isSome_iff_exists.1 first
  obtain ⟨f', clause⟩ := Option.isSome_iff_exists.1 owns'
  rw [Tier.clause?, layer, Option.bind_some] at clause
  obtain ⟨y, stepped', answered⟩ :=
    around j m B' id' inv e' [] t [t'] h tag f' stack signal effect' rfl (by simp) layer clause
  exact ⟨bodyGen, t, t', d, u₀, x, y, e, e', i.args.values, inv.args.values, h, tag, f, f', landed, stepped', answered⟩

/-! ### A clean-up that fails -/

namespace Script

/-- A program that performs an effect which its handler does not own, and fails when it is closed. -/
def failingUnowned : Function :=
  ⟨.plain, "main", [], ["ask", "tell", "body"], [
    .assign "ask" (uses (.op .effect) []),
    .assign "tell" (uses (.op .effect) []),
    .assign "body" (.function ⟨.generator, "body", [], [], [
      .attempt [.expr (.yield (.call (.name "ask") []))] [] [
        .throw (uses (.op (.exception .value)) [.literal (.str "failing")])]]⟩),
    .result (uses (.service .execute) [.function ⟨.plain, "inner", [], [], [
      .result (uses (.service .handle) [
        uses (.op .handler) [.name "tell", .literal .none, .function ⟨.plain, "clause", ["k"], [], []⟩],
        .name "body"])]⟩])]⟩

/-- Whether a driver is left with a failure, for an effect that no handler owns. -/
def fails (trace : Trace language) (x : Config language) : Bool :=
  match trace.drop 21, trace.drop 34, x.signal with
  | c :: later, s :: _, .reply (.raised y) =>
    match s.world.tiers? bodyGen [(0, machineGen 1), (1, machineGen 2)], c.performs? bodyGen with
    | some [t, r], some (_, _, e) =>
      t.layer.isSome && r.layer.isNone && (t.clause? e).isNone && starts 2 s && silent (later.take 12) &&
        ((trace.take 21).all fun b => s.stack.length ≤ b.stack.length) && x.stack.length < s.stack.length &&
        y.kind == .value
    | _, _ => false
  | _, _, _ => false

end Script

/--
It is not so that what a driver raises, when no handler owns the first effect of a computation,
is always the error for that effect: what is closed before may fail.
-/
theorem not_always_reported : ¬ ∀ (g : Gen) (t r : Tier) (more later before : Trace language) (w : World language)
    (B : List (Activation language)) (c x : Config language) (id : Nat) (i : Invocation) (e : Effect) (y : Exc),
    t.layer.isSome → r.layer = none → w.Nested g [t, r] →
      RunOf Genuine (more ++ c :: (later ++
        ⟨w, .calling (.library (.execute (.running r.gen))) :: B, .advance r.gen (.send .none)⟩ :: before)) x →
      (∀ b ∈ later, ∀ v, b.yields? ≠ some (g, v)) → c.yields? = some (g, .invocation id i) → i.effect = .effect e →
      t.clause? e = none → (∀ b ∈ more, B.length < b.stack.length) → x.stack.length ≤ B.length →
      x.signal = .reply (.raised y) → y.kind = .uncaughtEffect := by
  intro always
  obtain ⟨trace, x, run, found⟩ : ∃ trace x, RunOf Genuine trace x ∧ fails trace x = true :=
    exists_run (fresh_begin failingUnowned) 102 (by decide +kernel)
  unfold fails at found
  split at found
  · rename_i c later s before y atc ats raised
    split at found
    · rename_i t r id i e tiers performs
      simp only [Bool.and_eq_true, beq_iff_eq, Option.isNone_iff_eq_none, decide_eq_true_eq] at found
      obtain ⟨⟨⟨⟨⟨⟨⟨layer, driver⟩, free⟩, started⟩, silent⟩, above⟩, left⟩, kind⟩ := found
      have split : trace = trace.take 21 ++ c :: (later.take 12 ++ s :: before) := by
        rw [← (drop_of_drop_cons atc 12).trans ats, List.take_append_drop, ← atc, List.take_append_drop]
      rw [split] at run
      obtain ⟨⟨B, stack⟩, signal, main⟩ := of_starts started
      obtain ⟨yields, effect⟩ := Config.of_performs? performs
      obtain ⟨w, _, _⟩ := s
      cases stack
      cases signal
      have nested : w.Nested bodyGen [t, r] := World.nested_of_tiers? tiers (by decide) (by decide) main
      have outermost : machineGen 2 = r.gen := World.last_of_tiers? [(0, machineGen 1)] [t] tiers
      rw [outermost] at run
      have below : ∀ b ∈ trace.take 21, B.length < b.stack.length := fun b mem =>
        of_decide_eq_true (List.all_eq_true.1 above b mem)
      have named := always bodyGen t r _ _ before w B c x id i e y layer driver nested run (of_silent silent) yields effect
        free below (Nat.le_of_lt_succ left) raised
      rw [kind] at named
      cases named
    · cases found
  · cases found

end OneShot
