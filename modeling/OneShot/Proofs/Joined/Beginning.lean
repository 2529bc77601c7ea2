import OneShot.Proofs.Joined.Advancing

/-!
# The start of a run

A driver makes the machine of a computation, with nothing below it.  When it is
started, the kernel carries out the program for the computation.
-/

namespace OneShot.Joined

open Config (Leads)

variable {c : Code} {A : List (Activation (guest c))} {mem : Memo c} {F R : Facts (guest c)}
  {C : Config (guest c)} {D : Base c} {d : Gen} {seat : Option Gen}

/-- A driver makes a machine without handlers, and the generator that runs it. -/
theorem At.makesMachine {q q' : Process}
    (launches : ∀ st, q.step st (.value (.gen d)) =
      ((Execute.launch st d).1, .ask (Execute.launch st d).2 q'))
    (h : At (.body seat (.library q) :: A) (.reply (.value (.gen d))) mem F C) :
    Leads 1 C fun C' => ∃ (g : Gen) (m : Nat) (u : Tag), g.kind = .generator ∧
      At (.body seat (.library q') :: A) (.reply (.value (.gen g))) mem
        (machineFacts g m d u [] + F) C' := by
  obtain ⟨w, rfl, rfl, bears⟩ := h
  have tagged := bears.store w.store.freshTag.1 rfl
  let frames : List Val := [genFrame d w.store.freshTag.2]
  have made := tagged.newMachine frames .none
  have turned : Turning seat A (.ask (.call (.native (.service .runMachine))
      [.machine (w.store.freshTag.1.newMachine (.own frames) .none).2]) (.library q')) w.memory
        ({.machine (w.store.freshTag.1.newMachine (.own frames) .none).2 frames} + F)
        (Config.turned { w with store := (q.step w.store (.value (.gen d))).1 } A seat
          ((q.step w.store (.value (.gen d))).2.map .library)) := by
    rw [launches]
    exact ⟨_, rfl, rfl, made⟩
  refine .step (Config.step_body w A seat _ _) (Leads.weaken ?_ (Nat.zero_le 1))
  refine (At.runsMachine turned.call).mono ?_
  rintro C' ⟨g, kind, here⟩
  refine ⟨g, (w.store.freshTag.1.newMachine (.own frames) .none).2, w.store.freshTag.2, kind,
    here.of_eq ?_⟩
  simp only [machineFacts, facts, frames, vals, List.map_nil]
  abel

/-- A driver that is about to convert a computation comes to carry out its program. -/
theorem At.begins (seat : Option Gen) {V : Drivers c} {B : Facts (guest c)} {p : Comp c.State} {i : Nat}
    {q q₁ q₂ : Process} {q₃ : Gen → Process} (driver : V D B)
    (base : ∀ g, D g = .body seat (.library (q₃ g)) :: A)
    (converts : ∀ st, q.step st (.value .none) = (st, .ask (Execute.convert (thunk i)) q₁))
    (launches : ∀ st g, q₁.step st (.value (.gen g)) =
      ((Execute.launch st g).1, .ask (Execute.launch st g).2 q₂))
    (starts : ∀ st g, q₂.step st (.value (.gen g)) = (st, .ask (.advance g (.send .none)) (q₃ g)))
    (there : mem.thunks[i]? = some (p.wraps, p.source)) (fresh : mem.memory.log = [])
    (none_known : mem.handles = [])
    (h : At (.body seat (.library q) :: A) (.reply (.value .none)) mem B C) :
    Leads 1 C (Carries V (begin p mem.memory.data)) := by
  have asked := At.library (t := .ask (Execute.convert (thunk i)) q₁) seat h fun st => by
    rw [converts]
    exact ⟨rfl, rfl⟩
  refine asked.followed fun C₁ turned => ?_
  have made := (Makes.converts rfl rfl (p.makes there)) (Turning.call (turned.of_eq (zero_add _).symm))
  refine made.followed fun C₂ made => ?_
  obtain ⟨d, mem', E, agrees, built, here⟩ := made
  refine (At.makesMachine (fun st => launches st d) here).after fun C₃ made => ?_
  obtain ⟨g, m, u, -, here⟩ := made
  have advanced := At.library (t := .ask (.advance g (.send .none)) (q₃ g)) seat here fun st => by
    rw [starts]
    exact ⟨rfl, rfl⟩
  refine advanced.after fun C₄ turned => ?_
  have here : At (under D g []) (.advance g (.send .none)) mem'
      (machineFacts g m d u ([] : List (Piece c)) + (E + (levelFacts g [] + B))) C₄ := by
    rw [under, acts, List.nil_append, root, base g]
    exact (Turning.advance turned).of_eq (by rw [levelFacts, zero_add])
  have started := At.startsMachine here
  refine started.after fun C₅ there => ?_
  refine ((built.starts there).mono ?_).eventually
  rintro C₆ ⟨mem'', agrees', running⟩
  have memory : mem''.memory = ⟨mem.memory.data, []⟩ := by
    rw [agrees'.memory, agrees.memory, ← fresh]
  refine .code rfl ⟨D, B, [], mem'', .waiting p.body, .value .none, driver, ⟨memory, ?_, .nil⟩,
    goes_waiting p.body (.value .none), ?_⟩
  · exact (agrees'.handles.trans agrees.handles).trans none_known
  · have whole : Running D (codeRoutine p.body) (.value .none)
        (stackMarks (begin p mem.memory.data).stack) mem'' B C₆ := by
      simpa [begin, agrees.memory] using running
    rw [entryFacts, zero_add]
    exact whole

/-- The kernel comes to carry out the program for a computation. -/
theorem start_leads (async : Bool) (p : Comp c.State) (d : c.Memory) (settings : Settings) :
    Leads 1 (start async p d settings) (Carries (Driver async) (begin p d)) := by
  let mem : Memo c := ⟨⟨d, []⟩, [], [(p.wraps, p.source)], []⟩
  let w : World (guest c) := ⟨.initial settings, #[], mem⟩
  have bears : w.Bears 0 := ⟨fun f mem => absurd mem (Multiset.notMem_zero f), List.nodup_nil⟩
  cases async with
  | false =>
      let q : Process := .execute (.start (thunk 0))
      have entered : At [.calling (.library q)] (.reply (.value .none)) mem 0
          ⟨w, [.calling (.library q)], .reply (.value .none)⟩ := ⟨_, rfl, rfl, bears⟩
      exact .step rfl ((At.begins none .sync (fun g => rfl) (fun st => rfl)
        (fun st g => rfl) (fun st g => rfl) rfl rfl rfl entered).eventually)
  | true =>
      let q : Process := .executeAsync (.start (thunk 0))
      let w' := (w.spawn .coroutine "execute_async" (.library q)).1
      let g : Gen := ⟨0, .coroutine, "execute_async"⟩
      have spawned := bears.spawn .coroutine "execute_async" (.library q)
      let C : Config (guest c) := ⟨{ w' with store := { w'.store with looping := true } },
        [looping g false, .calling (.guest .passing)], .advance g (.send .none)⟩
      have reached : Config.Reaches 4 (start true p d settings) C :=
        .step rfl (.step rfl (.step rfl (.step rfl (.refl _))))
      have started : At [looping g false, .calling (.guest .passing)] (.advance g (.send .none)) mem
          ({.gen g.id (.fresh (.library q))} + 0) C := ⟨_, rfl, rfl, spawned.store _ rfl⟩
      refine (Leads.reached reached (At.fresh started)).followed (fun C' entered => ?_)
        |>.weaken (by omega)
      exact (At.begins (some g) (.async g 0 false) (fun g => rfl) (fun st => rfl)
        (fun st g => rfl) (fun st g => rfl) rfl rfl rfl (entered.of_eq (add_zero _))).eventually

end OneShot.Joined
