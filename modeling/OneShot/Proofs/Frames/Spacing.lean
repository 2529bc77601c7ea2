import Mathlib.Data.List.Chain
import OneShot.Proofs.Frames.Refusing
import OneShot.Proofs.Frames.Spent

/-!
# Handlers are apart

On no stack and in no slice is the frame of a handler directly above that of another
one, and slices start with the frame of a generator.  So is the stack of a machine that
waits, unless it has just taken off the frame of a generator and closes that.
-/

namespace OneShot

open Store (Quietly)

variable {G : Guest} {rule : Trace G → Config G → Prop} {trace : Trace G} {c d : Config G}

/-- No handler frame is directly above another one. -/
def Spaced (frames : List Val) : Prop := frames.IsChain fun u v => u.IsHandler → ¬ v.IsHandler

/-- No handler frame is on top. -/
def Clear (frames : List Val) : Prop := ∀ v ∈ frames.head?, ¬ v.IsHandler

theorem Val.not_isHandler (g : Gen) (t : Tag) : ¬ (Val.frame (.generator (.gen g) t)).IsHandler := by
  rintro ⟨h, u, same⟩
  cases same

theorem clear_nil : Clear [] := by simp [Clear]

theorem clear_generator (g : Gen) (t : Tag) (rest : List Val) :
    Clear (.frame (.generator (.gen g) t) :: rest) := by
  intro v top
  cases top
  exact Val.not_isHandler g t

theorem Clear.append {above below : List Val} (first : Clear above) (second : Clear below) :
    Clear (above ++ below) := by
  cases above with
  | nil => exact second
  | cons v above => exact first

theorem Clear.of_append {above below : List Val} (h : Clear (above ++ below)) : Clear above := by
  cases above with
  | nil => exact clear_nil
  | cons v above => exact h

namespace Spaced

variable {v : Val} {above below rest : List Val}

theorem append (first : Spaced above) (second : Spaced below) (clear : Clear below) :
    Spaced (above ++ below) :=
  List.isChain_append.2 ⟨first, second, fun _ _ w top _ => clear w top⟩

theorem left (h : Spaced (above ++ below)) : Spaced above := (List.isChain_append.1 h).1

theorem right (h : Spaced (above ++ below)) : Spaced below := (List.isChain_append.1 h).2.1

theorem tail (h : Spaced (v :: rest)) : Spaced rest := List.IsChain.tail h

theorem clear_below (h : Spaced (v :: rest)) (handler : v.IsHandler) : Clear rest := by
  cases rest with
  | nil => exact clear_nil
  | cons w rest =>
      intro u top
      cases top
      exact (List.isChain_cons_cons.1 h).1 handler

theorem generator (g : Gen) (t : Tag) (h : Spaced rest) :
    Spaced (.frame (.generator (.gen g) t) :: rest) := by
  cases rest with
  | nil => exact .singleton _
  | cons w rest => exact .cons_cons (fun handler => absurd handler (Val.not_isHandler g t)) h

end Spaced

/-- The slices that there are have their handlers apart, and start with the frame of a generator. -/
def Store.Slices (s : Store) : Prop := ∀ k, Spaced (s.frames k) ∧ Clear (s.frames k)

namespace Machine

variable {s t : Store} {m : Nat} {p : Phase} {r : Reply} {moved : Turn Phase}

/-- What has passed a handler frame has come to something else. -/
theorem Delivered.spaced {o : Outcome} {base left : List Val} {turn : Turn Phase}
    (h : Delivered o base left turn) (spaced : Spaced base) : Spaced left ∧ Clear left := by
  induction h with
  | finish o => exact ⟨.nil, clear_nil⟩
  | returns h t v rest => exact ⟨spaced.tail, spaced.clear_below ⟨h, t, rfl⟩⟩
  | passes h t below ih => exact ih spaced.tail
  | advances o g t rest => exact ⟨spaced, clear_generator g t rest⟩

theorem Delivers.spaced {u : Store} {o : Outcome} {base : List Val}
    (h : Delivers s m p r u o base) (spaced : Spaced (s.stack m)) (slices : s.Slices)
    (top : Clear (s.stack m) ∨ ∃ op, p = .discarding op) : Spaced base := by
  cases h with
  | pushed value made => exact spaced.generator _ _
  | ended c w stack value =>
      rw [stack] at spaced
      exact spaced.tail
  | broken c x stack =>
      rw [stack] at spaced
      exact spaced.tail
  | resumed c id k v e =>
      rcases top with clear | ⟨op, same⟩
      · exact (slices k).1.append spaced clear
      · contradiction
  | _ => exact spaced

theorem Brings.spaced {u : Store} {op : Val} {brought : List Val} {inner : Option Cont}
    (h : Brings s op u brought inner) (slices : s.Slices) : Spaced brought ∧ Clear brought := by
  cases h with
  | invocation id i => exact ⟨.nil, clear_nil⟩
  | resend id e args k context pending => exact slices k

theorem Asks.discarding {a : Ask} {op : Val} (asks : Asks a (.discarding op)) (v : Val)
    (how : Suspension) : a ≠ .yield v how := by
  generalize waiting : Phase.discarding op = p at asks
  cases asks with
  | discards c op => rcases Ask.closing_cases c with ⟨g, same⟩ | ⟨f, args, same⟩ <;> simp [same]
  | _ => contradiction

/-- A turn of a machine keeps handlers apart. -/
theorem Does.spaced (does : Does s m p r t moved) (own : s.Own) (inside : m < s.machines.size)
    (spaced : Spaced (s.stack m)) (slices : s.Slices)
    (top : Clear (s.stack m) ∨ ∃ op, p = .discarding op) :
    Spaced (t.stack m) ∧ t.Slices ∧ (Clear (t.stack m) ∨
      moved.next? = none ∨ ∃ a op, moved = .ask a (.discarding op)) := by
  have same {stack : List Val} (sets : Store.Sets s t m stack none) : t.Slices := by
    intro k
    rw [sets.frames]
    split <;> exact slices k
  cases does with
  | @settles _ _ o base left u _ _ delivers delivered after =>
      have sets := delivers.sets own inside after
      obtain ⟨kept, clear⟩ := delivered.spaced (delivers.spaced spaced slices top)
      rw [sets.stack_eq]
      exact ⟨kept, same sets, .inl clear⟩
  | halts left after ending unasked begun =>
      have sets := sets_of_take left own (m := m) after
      rw [sets.stack_eq]
      exact ⟨spaced, same sets, .inr (.inl ending)⟩
  | escapes c id action =>
      rcases top with clear | ⟨op, other⟩
      · exact ⟨spaced, slices, .inl clear⟩
      · contradiction
  | closes contents =>
      refine ⟨spaced, slices, .inl ?_⟩
      rcases top with clear | ⟨op, other⟩
      · exact clear
      · rcases contents with ⟨here, -⟩ | here
        · rw [here] at other
          contradiction
        · rw [here] at other
          contradiction
  | @discards c op v rest stack unasked =>
      have sets := Store.Sets.setStack own inside rest
      rw [stack] at spaced
      rw [sets.stack_eq]
      exact ⟨spaced.tail, same sets, .inr (.inr ⟨_, op, rfl⟩)⟩
  | @captures c op i above below brought inner u t turn invoked stack brings after directs =>
      have sets := brings.sets own inside after
      have clear := top.resolve_right fun ⟨op, other⟩ => by contradiction
      rw [stack] at spaced clear
      obtain ⟨first, start⟩ := brings.spaced slices
      refine ⟨sets.stack_eq ▸ spaced.right, fun k => ?_, .inl ?_⟩
      · rw [sets.frames]
        split
        · exact ⟨first.append spaced.left clear.of_append, start.append clear.of_append⟩
        · exact slices k
      · rw [sets.stack_eq]
        cases directs with
        | @owner e h f tag inside effect clause captured unowned =>
            rw [captured, List.append_assoc] at spaced
            exact spaced.right.clear_below ⟨h, tag, rfl⟩
        | outward id whole unowned =>
            rw [whole]
            exact clear_nil

end Machine

/-! ## Runs -/

/-- A machine is in the middle of closing what it has taken off its stack. -/
def Config.Discards (c : Config G) (m : Nat) : Prop :=
  ∃ g op, .running g (.library (.machine m (.discarding op))) ∈ c.stack

/-- Handlers are apart on all stacks and in all slices. -/
structure Spacing (trace : Trace G) (c : Config G) : Prop where
  onStacks : ∀ m, Spaced (c.world.store.stack m)
  slices : c.world.store.Slices
  tops : ∀ m, Clear (c.world.store.stack m) ∨ c.Discards m ∨
    ∃ i, (m, i) ∈ trace.ran ∧ c.world.gens[i]? = some .finished

theorem Spacing.of_fresh (fresh : c.Fresh) : Spacing [] c := by
  have empty (m : Nat) : c.world.store.stack m = [] := by simp [Store.stack, fresh.machines]
  refine ⟨fun m => ?_, fun k => ?_, fun m => .inl ?_⟩
  · rw [empty]
    exact .nil
  · have nothing : c.world.store.frames k = [] := by simp [Store.frames, fresh.conts]
    rw [nothing]
    exact ⟨.nil, clear_nil⟩
  · rw [empty]
    exact clear_nil

/-- A machine that makes the next step is not in the middle of closing anything, unless that is its phase. -/
theorem Spacing.top (spacing : Spacing trace c) (standing : Standing trace c) {g : Gen} {m : Nat}
    {p : Machine.Phase} {rest : List (Activation G)}
    (stack : c.stack = .running g (.library (.machine m p)) :: rest) :
    Clear (c.world.store.stack m) ∨ ∃ op, p = .discarding op := by
  have mem : Activation.running g (.library (.machine m p)) ∈ c.stack := by simp [stack]
  obtain ⟨_, same, ran, -⟩ := standing.seated.machine mem rfl
  cases same
  rcases spacing.tops m with clear | ⟨h, op, there⟩ | ⟨i, ran', ending⟩
  · exact .inl clear
  · rw [stack] at there
    rcases List.mem_cons.1 there with same | below
    · cases same
      exact .inr ⟨op, rfl⟩
    · exact (standing.seated.alone standing.active (stack.trans (List.nil_append _).symm) below rfl
        rfl).elim
  · have running := Manned.running standing.active mem rfl
    rw [standing.seated.once m _ _ ran ran', ending] at running
    cases running

theorem Config.Discards.step {m : Nat} (discards : c.Discards m) (stepped : c.step = .ok d)
    (other : c.stepped? ≠ some m) : d.Discards m := by
  obtain ⟨g, op, there⟩ := discards
  refine ⟨g, op, ?_⟩
  obtain ⟨below, all⟩ := (Config.moves_step stepped).suffix
  by_cases replied : ∃ r, c.signal = .reply r
  · obtain ⟨r, signal⟩ := replied
    obtain ⟨a, rest, stack⟩ := List.exists_cons_of_ne_nil (List.ne_nil_of_mem there)
    rw [stack] at there
    rcases List.mem_cons.1 there with rfl | mem
    · exact absurd (Config.stepped?_machine stack signal) other
    · rw [stack] at below
      exact below.subset mem
  · exact (all fun r signal => replied ⟨r, signal⟩).subset there

/-- What has come to its end stays so. -/
theorem Moves.finished (moves : Moves c d) (active : c.Active) {i : Nat}
    (there : c.world.gens[i]? = some .finished) : d.world.gens[i]? = some .finished := by
  have inside := (Array.getElem?_eq_some_iff.1 there).1
  let g : Gen := ⟨i, .generator, ""⟩
  have still := Spent.of_finished (g := g) moves active inside (World.status_of there)
  have inside' := Nat.lt_of_lt_of_le inside moves.size_gens
  rw [Array.getElem?_eq_getElem inside']
  exact congrArg some ((World.status_of (Array.getElem?_eq_getElem inside')).symm.trans still)

theorem Spacing.step_idle (spacing : Spacing trace c) (standing : Standing trace c)
    (stepped : c.step = .ok d) (idle : c.stepped? = none)
    (onStacks : ∀ m, d.world.store.stack m = c.world.store.stack m ∨
      Spaced (d.world.store.stack m) ∧ Clear (d.world.store.stack m))
    (frames : d.world.store.frames = c.world.store.frames) : Spacing (c :: trace) d := by
  refine ⟨fun m => ?_, fun k => ?_, fun m => ?_⟩
  · rcases onStacks m with same | ⟨spaced, -⟩
    · rw [same]
      exact spacing.onStacks m
    · exact spaced
  · rw [frames]
    exact spacing.slices k
  · rcases onStacks m with same | ⟨-, clear⟩
    · rw [same]
      rcases spacing.tops m with clear | discards | ⟨i, ran, ending⟩
      · exact .inl clear
      · exact .inr (.inl (discards.step stepped (by simp [idle])))
      · refine .inr (.inr ⟨i, Trace.ran_cons ran, ?_⟩)
        exact (Config.moves_step stepped).finished standing.active ending
    · exact .inl clear

theorem Spacing.step_machine (spacing : Spacing trace c) (standing : Standing trace c)
    (stepped : c.step = .ok d) {g : Gen} {m : Nat} {p : Machine.Phase} {r : Reply}
    {rest : List (Activation G)} (stack : c.stack = .running g (.library (.machine m p)) :: rest)
    (signal : c.signal = .reply r) : Spacing (c :: trace) d := by
  have mem : Activation.running g (.library (.machine m p)) ∈ c.stack := by simp [stack]
  obtain ⟨_, same, ran, -⟩ := standing.seated.machine mem rfl
  cases same
  have own := standing.sound.own
  have inside := standing.sound.ran m _ ran
  have turning : c.stepped? = some m := Config.stepped?_machine stack signal
  obtain ⟨t, moved, -, does, followed⟩ := standing.sound.follows standing.seated stack signal stepped
  obtain ⟨spaced, slices, top⟩ := does.spaced own inside (spacing.onStacks m) spacing.slices
    (spacing.top standing stack)
  obtain ⟨_, _, sets⟩ := does.sets own inside
  have here (n : Nat) : d.world.store.stack n = t.stack n :=
    sets.own.stack_eq (Store.machines_of_engine followed.quiet.engine) n
  have frames := Store.frames_of_conts (Store.conts_of_engine followed.quiet.engine)
  refine ⟨fun n => ?_, fun k => ?_, fun n => ?_⟩
  · rw [here]
    by_cases turned : n = m
    · exact turned ▸ spaced
    · rw [sets.others n turned]
      exact spacing.onStacks n
  · rw [frames]
    exact slices k
  · rw [here]
    by_cases turned : n = m
    · subst turned
      rcases top with clear | ending | ⟨a, op, rfl⟩
      · exact .inl clear
      · have finished := followed.ending ending
        have there := (Array.getElem?_eq_some_iff.1 (Manned.running standing.active mem rfl)).1
        have inside' := Nat.lt_of_lt_of_le there (Config.moves_step stepped).size_gens
        refine .inr (.inr ⟨g.id, Trace.ran_cons ran, ?_⟩)
        rw [Array.getElem?_eq_getElem inside']
        have status := World.status_of (Array.getElem?_eq_getElem inside')
        exact congrArg some (status.symm.trans finished)
      · refine .inr (.inl ⟨g, op, ?_⟩)
        rcases does.asks with none_next | ⟨_, _, same, asks⟩
        · contradiction
        · cases same
          cases followed with
          | yields v how => exact absurd rfl (asks.discarding v how)
          | ends ending => contradiction
          | _ => exact List.mem_cons_self
    · rw [sets.others n turned]
      rcases spacing.tops n with clear | discards | ⟨i, ran', ending⟩
      · exact .inl clear
      · refine .inr (.inl (discards.step stepped ?_))
        rw [turning]
        simpa [eq_comm] using turned
      · refine .inr (.inr ⟨i, Trace.ran_cons ran', ?_⟩)
        exact (Config.moves_step stepped).finished standing.active ending

theorem Spacing.step (spacing : Spacing trace c) (standing : Standing trace c)
    (genuine : Genuine trace c) (stepped : c.step = .ok d) : Spacing (c :: trace) d := by
  have own := standing.sound.own
  cases standing.shift genuine stepped with
  | quiet after idle unmade keeps =>
      refine spacing.step_idle standing stepped idle (fun m => .inl ?_) ?_
      · exact own.stack_eq (Store.machines_of_engine after.engine) m
      · exact Store.frames_of_conts (Store.conts_of_engine after.engine)
  | takes k after idle made keeps =>
      refine spacing.step_idle standing stepped idle (fun m => .inl ?_) ?_
      · refine own.stack_eq ?_ m
        exact (Store.machines_of_engine after.engine).trans (Store.machines_take _ k)
      · rw [Store.frames_of_conts (Store.conts_of_engine after.engine)]
        exact funext (Store.frames_take _ k)
  | @makes g handlers owner framed after idle unmade proper keeps few =>
      have made := own.newMachine
        (.frame (.generator (.gen g) c.world.store.freshTag.2) :: handlers) owner
      refine spacing.step_idle standing stepped idle (fun m => ?_) ?_
      · have stack : d.world.store.stack m = _ :=
          made.stack_eq (Store.machines_of_engine after.engine) m
        rw [stack, Store.stack_newMachine]
        split
        · refine .inr ⟨?_, clear_generator _ _ _⟩
          rcases handlers with - | ⟨v, - | ⟨w, rest⟩⟩
          · exact .singleton _
          · exact .generator _ _ (.singleton _)
          · simp at few
        · exact .inl rfl
      · have frames := Store.frames_of_conts (Store.conts_of_engine after.engine)
        exact frames
  | machine stack signal does after keeps => exact spacing.step_machine standing stepped stack signal

theorem RunOf.spacing (genuine : ∀ trace c, rule trace c → Genuine trace c)
    (run : RunOf rule trace c) : Spacing trace c := by
  induction run with
  | start fresh => exact .of_fresh fresh
  | step before obeys stepped ih => exact ih.step (before.standing genuine) (genuine _ _ obeys) stepped

end OneShot
