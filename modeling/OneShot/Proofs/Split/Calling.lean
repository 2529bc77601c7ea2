import OneShot.Proofs.Split.Meeting

/-!
# Calls in two runs

What two runs call alike comes to what is alike: functions of the code, effects,
continuations and handlers, and the services that machines and code make use of.
-/

namespace OneShot.Split

open Config (Reaches)
open List (Forall₂)

variable {c : Code} {J : Joint} {w w' : World (guest c)} {S T : List (Activation (guest c))} {f f' v v' : Val}
  {args args' : List Val} {caller : Caller} {k l : Cont}

/-! ## What a call may come to -/

section Starts

variable (t t' : Store) (other : ∀ i name, f ≠ .closure i name) (other' : ∀ i name, f' ≠ .closure i name)

include other other'

theorem Worlds.starts_done (W : Worlds J w w') (layout : Stacks J S T) (made : invoke w.store f args caller = (t, .done v))
    (made' : invoke w'.store f' args' caller = (t', .done v')) (same : t.engine = w.store.engine)
    (same' : t'.engine = w'.store.engine) (alike : Alike J.names v v') :
    Corresponds J.lone (Config.call w S f args caller) (Config.call w' T f' args' caller) := by
  rw [Config.call_of_done w S other made, Config.call_of_done w' T other' made']
  exact (W.quiet _ _ same same').gives (layout.keep (W.keeps_quiet _ _ same same') fun _ _ => id) alike

theorem Worlds.starts_raise {x x' : Exc} (W : Worlds J w w') (layout : Stacks J S T)
    (made : invoke w.store f args caller = (t, .raise x)) (made' : invoke w'.store f' args' caller = (t', .raise x'))
    (same : t.engine = w.store.engine) (same' : t'.engine = w'.store.engine) (alike : Alike J.names (.exc x) (.exc x')) :
    Corresponds J.lone (Config.call w S f args caller) (Config.call w' T f' args' caller) := by
  rw [Config.call_of_raise w S other made, Config.call_of_raise w' T other' made']
  exact (W.quiet _ _ same same').raises (layout.keep (W.keeps_quiet _ _ same same') fun _ _ => id) alike

theorem Worlds.starts_fault {e e' : Fault} (W : Worlds J w w') (layout : Stacks J S T)
    (made : invoke w.store f args caller = (w.store, .fault e)) (made' : invoke w'.store f' args' caller = (w'.store, .fault e'))
    (alike : FaultAlike J.names e e') : Corresponds J.lone (Config.call w S f args caller) (Config.call w' T f' args' caller) := by
  rw [Config.call_of_invoke w S args caller other, Config.call_of_invoke w' T args' caller other', made, made']
  exact W.refuses layout alike

theorem Worlds.starts_enter {p p' : Process} (W : Worlds J w w') (layout : Stacks J S T)
    (made : invoke w.store f args caller = (t, .enter p)) (made' : invoke w'.store f' args' caller = (t', .enter p'))
    (same : t.engine = w.store.engine) (same' : t'.engine = w'.store.engine)
    (alike : PlainAlike (c := c) J (.library p) (.library p')) :
    Corresponds J.lone (Config.call w S f args caller) (Config.call w' T f' args' caller) := by
  have keeps := W.keeps_quiet _ _ same same'
  rw [Config.call_of_invoke w S args caller other, Config.call_of_invoke w' T args' caller other', made, made']
  exact (W.quiet _ _ same same').gives ((layout.keep keeps fun _ _ => id).body .function nofun (alike.keep keeps)) .none

theorem Worlds.starts_spawn {p p' : Process} {name name' : String} (W : Worlds J { w with store := t } { w' with store := t' })
    (layout : Stacks J S T)
    (made : invoke w.store f args caller = (t, .spawn .generator name p))
    (made' : invoke w'.store f' args' caller = (t', .spawn .generator name' p'))
    (alike : RoutineAlike (c := c) (J.spawning ⟨w.gens.size, .generator, name⟩ ⟨w'.gens.size, .generator, name'⟩)
      w.gens.size w'.gens.size (.library p) (.library p')) :
    Corresponds J.lone (Config.call w S f args caller) (Config.call w' T f' args' caller) := by
  rw [Config.call_of_spawn w S other made, Config.call_of_spawn w' T other' made']
  exact (W.spawn name name' alike).gives (layout.keep (Joint.keeps_spawning _ _ _) fun _ _ => id) (.gen (.inr ⟨rfl, rfl⟩))

end Starts

/-! ## Continuations -/

/-- A continuation is resumed, or something is thrown into it. -/
theorem Worlds.requests {e e' : Val} (W : Worlds J w w') (layout : Stacks J S T)
    (made : (Signal.call f args caller).request? = some ⟨k, v, e⟩) (made' : (Signal.call f' args' caller).request? = some ⟨l, v', e'⟩)
    (pair : J.names.conts k l) (value : Alike J.names v v') (error : Alike J.names e e') :
    Corresponds J.lone (Config.call w S f args caller) (Config.call w' T f' args' caller) := by
  obtain ⟨other, text, requested⟩ := Signal.invoke_of_request made w.store
  obtain ⟨other', text', requested'⟩ := Signal.invoke_of_request made' w'.store
  have both := (W.conts k l pair).1
  cases taken : w.store.isTaken k with
  | true =>
      refine W.starts_raise _ _ other other' layout (requested.trans (Cont.request_of_isTaken taken _ _ _))
        (requested'.trans (Cont.request_of_isTaken (both ▸ taken) _ _ _)) (Store.engine_doubleResumeError _ _)
        (Store.engine_doubleResumeError _ _) ?_
      exact .failure rfl nofun rfl rfl (.cont pair)
  | false =>
      obtain ⟨t, i, spawned, same⟩ := Deep.request_of_pending taken v e text
      obtain ⟨t', i', spawned', same'⟩ := Deep.request_of_pending (both ▸ taken) v' e' text'
      obtain ⟨W', keeps⟩ := W.takes pair (p := .asked w.gens.size) (.inl trivial) same same'
      have slices := (W.slices_take pair taken (.asked w.gens.size)).keep keeps pair id
      refine Worlds.starts_spawn (J := J.after (J.placed k (.asked w.gens.size)) J.names t t') _ _ other other' W'
        (layout.keep keeps fun _ _ => id) (requested.trans spawned) (requested'.trans spawned') ?_
      have grown := (J.names.le_withGen ⟨w.gens.size, .generator, "_request"⟩ ⟨w'.gens.size, .generator, "_request"⟩)
      exact .asking i i' (Names.conts_mono grown pair) (value.mono grown) (error.mono grown)
        (slices.keep (Joint.keeps_spawning _ _ _) pair id)

/-- What has been captured is closed. -/
theorem Worlds.dismisses (W : Worlds J w w') (layout : Stacks J S T) (slices : J.Slices (J.place = .lost) k l) :
    Corresponds J.lone (Config.call w S (.native (.service .close)) [.cont k] caller)
      (Config.call w' T (.native (.service .close)) [.cont l] caller) := by
  refine W.starts_enter w.store w'.store (fun _ _ => nofun) (fun _ _ => nofun) layout rfl rfl rfl rfl ?_
  refine .closing ?_
  rw [W.store, W.store']
  exact Spread.contents (Topped.spread slices)

/-- A continuation is marked as consumed. -/
theorem Worlds.consumes (W : Worlds J w w') (layout : Stacks J S T) (pair : J.names.conts k l) :
    Corresponds J.lone (Config.call w S (.native (.op .markConsumed)) [.cont k] caller)
      (Config.call w' T (.native (.op .markConsumed)) [.cont l] caller) := by
  have both := (W.conts k l pair).1
  cases taken : w.store.isTaken k with
  | true =>
      rw [Config.call_of_isTaken (k := k) rfl taken, Config.call_of_isTaken (k := l) rfl (both ▸ taken)]
      have keeps := W.keeps_quiet _ _ (Store.engine_doubleResumeError w.store (.cont k)) (Store.engine_doubleResumeError w'.store (.cont l))
      refine (W.quiet _ _ (Store.engine_doubleResumeError _ _) (Store.engine_doubleResumeError _ _)).raises
        (layout.keep keeps fun _ _ => id) ?_
      exact .failure rfl nofun rfl rfl (.cont pair)
  | false =>
      rw [Config.call_of_mark taken, Config.call_of_mark (both ▸ taken)]
      obtain ⟨W', keeps⟩ := W.takes pair (p := .lost) (.inr rfl) rfl rfl
      exact W'.gives (layout.keep keeps fun _ _ => id) .none

/-- Code asks whether a continuation is consumed. -/
theorem Worlds.checks (W : Worlds J w w') (layout : Stacks J S T) (pair : J.names.conts k l) :
    Corresponds J.lone (Config.call w S (.native (.op .field)) [.cont k, .str "consumed"] caller)
      (Config.call w' T (.native (.op .field)) [.cont l, .str "consumed"] caller) := by
  have checked (s : Store) (k : Cont) : invoke s (.native (.op .field)) [.cont k, .str "consumed"] caller =
      (s, .done (.bool (s.isTaken k))) := rfl
  refine W.starts_done w.store w'.store (fun _ _ => nofun) (fun _ _ => nofun) layout (checked _ k) (checked _ l) rfl rfl ?_
  rw [(W.conts k l pair).1]
  exact .bool _

/-! ## Computations and machines -/

theorem convert_of_generator? {s : Store} {g : Gen} (found : v.generator? = some g) :
    Computation.convert s v = (s, .done (.gen g)) := by
  simp only [Computation.convert, found]

theorem convert_of_callable {s : Store} (other : v.generator? = none) (callable : v.isCallable = true) :
    Computation.convert s v = (s, .enter (.calling v)) := by
  simp only [Computation.convert, other, callable, if_true]

theorem convert_of_other {s : Store} (other : v.generator? = none) (callable : v.isCallable = false) :
    Computation.convert s v = (s, .fault (.notComputation v.typeName)) := by
  simp [Computation.convert, other, callable]

/-- A computation is made a generator. -/
theorem Worlds.converts (W : Worlds J w w') (layout : Stacks J S T) (alike : Alike J.names v v') :
    Corresponds J.lone (Config.call w S (.native (.service .toGenerator)) [v] caller)
      (Config.call w' T (.native (.service .toGenerator)) [v'] caller) := by
  rcases alike.generator? with ⟨other, other'⟩ | ⟨g, h, rfl, rfl, pair⟩
  · have callable : v.isCallable = v'.isCallable := by cases alike <;> rfl
    cases called : v'.isCallable with
    | true =>
        exact W.starts_enter _ _ (fun _ _ => nofun) (fun _ _ => nofun) layout (convert_of_callable other (callable.trans called))
          (convert_of_callable other' called) rfl rfl (.calling alike)
    | false =>
        exact W.starts_fault (fun _ _ => nofun) (fun _ _ => nofun) layout (convert_of_other other (callable.trans called))
          (convert_of_other other' called) (.about rfl rfl rfl rfl)
  · obtain ⟨-, -, kind, kind'⟩ := W.fits.gen pair
    exact W.starts_done _ _ (fun _ _ => nofun) (fun _ _ => nofun) layout (convert_of_generator? (if_pos kind))
      (convert_of_generator? (if_pos kind')) rfl rfl (.gen pair)

/-- A machine that nobody runs yet is given a generator. -/
theorem Worlds.runsMachine {m m' : Nat} (W : Worlds J w w') (layout : Stacks J S T) (inside : m < J.store.machines.size)
    (inside' : m' < J.store'.machines.size) (idle : J.runs m = none) (idle' : J.runs' m' = none) (stands : J.Stands m m' []) :
    Corresponds J.lone (Config.call w S (.native (.service .runMachine)) [.machine m] caller)
      (Config.call w' T (.native (.service .runMachine)) [.machine m'] caller) := by
  have keeps := Joint.keeps_running idle idle' w.gens.size w'.gens.size
  have W := W.running idle idle' (W.store ▸ inside) (W.store' ▸ inside') w.gens.size w'.gens.size
  refine Worlds.starts_spawn (J := J.running m m' w.gens.size w'.gens.size) w.store w'.store (fun _ _ => nofun)
    (fun _ _ => nofun) W (layout.keep keeps fun _ _ => id) rfl rfl ?_
  refine .machine (Function.update_self _ _ _) (Function.update_self _ _ _) (.start ?_)
  obtain ⟨fs, same, spread⟩ := stands
  exact ⟨fs, same, spread.mono (Names.le_withGen _ _ _) id⟩

/-! ## Values -/

/-- An effect is called, at the same place. -/
theorem alike_invocation (W : Worlds J w w') (e : Nat) (alike : Forall₂ (Alike J.names) args args') (caller : Caller) :
    Alike J.names ((effect e).invocation w.store args caller).2 ((effect e).invocation w'.store args' caller).2 := by
  have at_place {s s' : Store} {x y : Val} (place : Memo.placeOf x = Memo.placeOf y) :
      Alike J.names ((effect e).invocationAt s args x).2 ((effect e).invocationAt s' args' y).2 :=
    .invocation _ _ e alike.length_eq (zip_of_forall₂ alike).2 place
  unfold Effect.invocation
  rw [W.settings]
  cases w'.store.settings.debug with
  | false => exact at_place rfl
  | true =>
      refine at_place ?_
      simp only [Memo.placeOf, W.settings]

theorem plain_of_fault? {p : Signature} {n : Nat} {e : Fault} (wrong : p.fault? n = some e) : e.detail = .plain := by
  simp only [Signature.fault?] at wrong
  split at wrong
  · cases wrong
    rfl
  · split at wrong
    · contradiction
    · cases wrong
      rfl

theorem invoke_of_other {s : Store} (other : f.isCallable = false) :
    invoke s f args caller = (s, .fault (.notCallable f.typeName)) := by
  cases f <;> first | rfl | contradiction

theorem Worlds.calls_identity (W : Worlds J w w') (layout : Stacks J S T) (values : Forall₂ (Alike J.names) args args') :
    Corresponds J.lone (Config.call w S (.native .identity) args caller) (Config.call w' T (.native .identity) args' caller) := by
  have start (s : Store) (vs : List Val) {e : Fault} (wrong : (Signature.fault? ⟨Native.identity.name, 0, ["value"], 0⟩ vs.length) = some e) :
      invoke s (.native .identity) vs caller = (s, .fault e) := by
    simp only [invoke, Native.start, Native.signature?, Option.bind_some, wrong]
  cases wrong : Signature.fault? ⟨Native.identity.name, 0, ["value"], 0⟩ args.length with
  | some e =>
      exact W.starts_fault (by simp) (by simp) layout (start _ _ wrong) (start _ _ (values.length_eq ▸ wrong))
        (.same (plain_of_fault? wrong))
  | none =>
      have one : args.length = 1 := by
        obtain ⟨least, most⟩ := (Signature.fault?_eq_none_iff _ _).1 wrong
        exact Nat.le_antisymm most least
      obtain ⟨v, rfl⟩ := List.length_eq_one_iff.1 one
      cases values with
      | cons head tail =>
          cases tail
          exact W.starts_done _ _ (by simp) (by simp) layout rfl rfl rfl rfl head

theorem Worlds.calls_handler (W : Worlds J w w') (layout : Stacks J S T) (l : Layer) (values : Forall₂ (Alike J.names) args args') :
    Corresponds J.lone (Config.call w S (.handler l.handler) args caller) (Config.call w' T (.handler l.handler) args' caller) := by
  have same := values.length_eq
  cases wrong : handleSignature.fault? args.length with
  | some e =>
      refine W.starts_fault (fun _ _ => nofun) (fun _ _ => nofun) layout ?_ ?_ (.same (plain_of_fault? wrong))
      · simp only [invoke, wrong]
      · simp only [invoke, same ▸ wrong]
  | none =>
      have head : Alike J.names (args.headD .none) (args'.headD .none) := by
        cases values with
        | nil => exact .none
        | cons head tail => exact head
      refine W.starts_enter w.store.freshTag.1 w'.store.freshTag.1 (fun _ _ => nofun) (fun _ _ => nofun) layout
        ?_ ?_ rfl rfl (.applying l w.store.freshTag.2 w'.store.freshTag.2 head)
      · simp only [invoke, wrong, Handler.apply]
      · simp only [invoke, same ▸ wrong, Handler.apply]

theorem Worlds.calls_cont (W : Worlds J w w') (layout : Stacks J S T) (pair : J.names.conts k l)
    (values : Forall₂ (Alike J.names) args args') :
    Corresponds J.lone (Config.call w S (.cont k) args caller) (Config.call w' T (.cont l) args' caller) := by
  have same := values.length_eq
  cases wrong : callSignature.fault? args.length with
  | some e =>
      refine W.starts_fault (fun _ _ => nofun) (fun _ _ => nofun) layout ?_ ?_ (.same (plain_of_fault? wrong))
      · simp only [invoke, wrong]
      · simp only [invoke, same ▸ wrong]
  | none =>
      obtain ⟨-, most⟩ := (Signature.fault?_eq_none_iff _ _).1 wrong
      cases values with
      | nil => exact W.requests layout rfl rfl pair .none .none
      | cons head tail =>
          cases tail with
          | nil => exact W.requests layout rfl rfl pair head .none
          | cons next rest => simp [callSignature] at most

/-- What is alike is called with what is alike. -/
theorem Worlds.calls (W : Worlds J w w') (layout : Stacks J S T) (alike : Alike J.names f f')
    (values : Forall₂ (Alike J.names) args args') : Corresponds J.lone (Config.call w S f args caller) (Config.call w' T f' args' caller) := by
  have unfit (other : f.isCallable = false) (other' : f'.isCallable = false) :
      Corresponds J.lone (Config.call w S f args caller) (Config.call w' T f' args' caller) := by
    refine W.starts_fault ?_ ?_ layout (invoke_of_other other) (invoke_of_other other') (.about rfl rfl rfl rfl)
    · rintro i name rfl
      contradiction
    · rintro i name rfl
      contradiction
  cases alike with
  | function j =>
      obtain ⟨memory, entry⟩ := W.memory.enter W.fits.toOnce j values
      have W := W.memory_alike memory
      simp only [Config.call, function]
      generalize (enter w.memory j args).2 = e at entry
      generalize (enter w'.memory j args').2 = e' at entry
      cases entry with
      | run s => exact W.gives (layout.body_code .function (by simp) s) .none
      | spawn s =>
          exact (W.spawn "function" "function" (.plain (.code s))).gives (layout.keep (Joint.keeps_spawning _ _ _) fun _ _ => id)
            (.gen (.inr ⟨rfl, rfl⟩))
  | identity => exact W.calls_identity layout values
  | effect e =>
      exact W.starts_done _ _ (by simp) (by simp) layout rfl rfl (Store.engine_invocation w.store (effect e) args caller)
        (Store.engine_invocation w'.store (effect e) args' caller) (alike_invocation W e values caller)
  | handler l => exact W.calls_handler layout l values
  | cont pair => exact W.calls_cont layout pair values
  | _ => exact unfit rfl rfl

end OneShot.Split
