import OneShot.Proofs.Frames.Counting
import OneShot.Proofs.Frames.Shifts

/-!
# Soundness

On the stacks of machines and in the slices of continuations are frames as the
library makes them, whatever a program does that builds none of these by hand.
-/

namespace OneShot

open Store (Quietly)

variable {G : Guest}

namespace Store

theorem Own.setStack {s : Store} (own : s.Own) {m : Nat} (inside : m < s.machines.size)
    (frames : List Val) : (s.setStack m frames).Own := by
  obtain ⟨owner, there⟩ := own.machine inside
  intro i r found
  simp only [Store.setStack, there, Array.getElem?_modify] at found
  split at found
  · obtain ⟨r', -, rfl⟩ := Option.map_eq_some_iff.1 found
    exact ⟨frames, rfl⟩
  · exact own i r found

theorem Own.newMachine {s : Store} (own : s.Own) (frames : List Val) (owner : Val) :
    (s.newMachine (.own frames) owner).1.Own := by
  intro i r found
  simp only [Store.newMachine, Array.getElem?_push] at found
  split at found
  · cases found
    exact ⟨frames, rfl⟩
  · exact own i r found

theorem machines_take (s : Store) (k : Cont) : (s.take k).1.machines = s.machines := by
  unfold take
  split <;> rfl

theorem nextId_take (s : Store) (k : Cont) : (s.take k).1.nextId = s.nextId := by
  unfold take
  split <;> rfl

theorem nextId_setStack (s : Store) (m : Nat) (frames : List Val) :
    (s.setStack m frames).nextId = s.nextId := by
  unfold Store.setStack
  split <;> rfl

theorem stack_newMachine (s : Store) (frames : List Val) (owner : Val) (m : Nat) :
    (s.newMachine (.own frames) owner).1.stack m =
      if m = s.machines.size then frames else s.stack m := by
  simp only [newMachine, stack, Array.getElem?_push]
  by_cases last : m = s.machines.size
  · simp only [if_pos last]
  · simp only [if_neg last]
    rfl

theorem frames_newCont_eq (s : Store) (frames : List Val) (inner : Option Val) (k : Cont) :
    (s.newCont frames inner).1.frames k =
      if k.index = s.conts.size then frames else s.frames k := by
  simp only [newCont, Store.frames, Array.getElem?_push]
  by_cases last : k.index = s.conts.size
  · simp [last]
  · simp [last]

/--
Stacks and slices are as they were, but for the stack of one machine and the slice of
a new continuation, if there is one.
-/
structure Sets (s t : Store) (m : Nat) (stack : List Val) (slice : Option (List Val)) :
    Prop where
  own : t.Own
  size : t.machines.size = s.machines.size
  stack_eq : t.stack m = stack
  others : ∀ i, i ≠ m → t.stack i = s.stack i
  frames : ∀ k, t.frames k = if k.index = s.conts.size then slice.getD (s.frames k) else s.frames k

namespace Sets

variable {s t u : Store} {m : Nat} {stack : List Val} {slice : Option (List Val)}

theorem refl (own : s.Own) (m : Nat) : Sets s s m (s.stack m) none :=
  ⟨own, rfl, rfl, fun _ _ => rfl, fun k => by simp⟩

theorem after (h : Sets s t m stack slice) (quiet : Quietly t u) : Sets s u m stack slice := by
  have machines := machines_of_engine quiet.engine
  refine ⟨h.own.of_machines machines, (congrArg _ machines).trans h.size, ?_, fun i other => ?_,
    fun k => ?_⟩
  · rw [h.own.stack_eq machines, h.stack_eq]
  · rw [h.own.stack_eq machines, h.others i other]
  · rw [frames_of_conts (conts_of_engine quiet.engine), h.frames]

/-- What is before leaves machines and slices as they are. -/
theorem before (own : s.Own) (machines : u.machines = s.machines) (frames : u.frames = s.frames)
    (size : u.conts.size = s.conts.size) (h : Sets u t m stack slice) :
    Sets s t m stack slice := by
  refine ⟨h.own, h.size.trans (by rw [machines]), h.stack_eq, fun i other => ?_, fun k => ?_⟩
  · rw [h.others i other, own.stack_eq machines]
  · rw [h.frames, frames, size]

theorem setStack (own : s.Own) (inside : m < s.machines.size) (stack : List Val) :
    Sets s (s.setStack m stack) m stack none := by
  obtain ⟨owner, there⟩ := own.machine inside
  refine ⟨own.setStack inside stack, size_setStack s m stack, stack_setStack there stack,
    fun i other => stack_setStack_of_ne there stack other, fun k => ?_⟩
  simp [Machine.frames_setStack]

theorem newCont (h : Sets s t m stack none) (size : t.conts.size = s.conts.size)
    (frames : List Val) (inner : Option Val) :
    Sets s (t.newCont frames inner).1 m stack (some frames) := by
  refine ⟨h.own, h.size, h.stack_eq, h.others, fun k => ?_⟩
  rw [frames_newCont_eq, size, h.frames]
  by_cases last : k.index = s.conts.size <;> simp [last]

end Sets

end Store

/-! ## Turns of machines -/

namespace Machine

open Store (Sets)

variable {s t u : Store} {m : Nat} {p : Phase} {r : Reply}

theorem Delivers.quiet {o : Outcome} {base : List Val} (h : Delivers s m p r u o base) :
    Quietly s u := by
  cases h with
  | pushed value made => exact .next rfl rfl
  | _ => exact .refl s

theorem Delivers.sets {o : Outcome} {base left : List Val} (h : Delivers s m p r u o base)
    (own : s.Own) (inside : m < s.machines.size) (after : Quietly (u.setStack m left) t) :
    Sets s t m left none := by
  have machines := Store.machines_of_engine h.quiet.engine
  have conts := Store.conts_of_engine h.quiet.engine
  have set := Sets.setStack (own.of_machines machines) (machines ▸ inside) left
  exact (set.before own machines (Store.frames_of_conts conts) (by rw [conts])).after after

theorem sets_of_take (left : u = s ∨ ∃ k, u = (s.take k).1) (own : s.Own)
    (after : Quietly u t) : Sets s t m (s.stack m) none := by
  rcases left with rfl | ⟨k, rfl⟩
  · exact (Sets.refl own m).after after
  · have machines := Store.machines_take s k
    have kept := Sets.refl (own.of_machines machines) m
    rw [own.stack_eq machines] at kept
    exact (kept.before own machines (funext (Store.frames_take s k)) (Store.size_take s k)).after after

theorem Brings.frames {op : Val} {brought : List Val} {inner : Option Cont}
    (h : Brings s op u brought inner) : u.frames = s.frames := by
  rcases h.origin.1 with rfl | ⟨k, rfl⟩
  · rfl
  · exact funext (Store.frames_take s k)

theorem Brings.size {op : Val} {brought : List Val} {inner : Option Cont}
    (h : Brings s op u brought inner) : u.conts.size = s.conts.size := by
  rcases h.origin.1 with rfl | ⟨k, rfl⟩
  · rfl
  · exact Store.size_take s k

/-- The new continuation is pending. -/
theorem Brings.pending {op : Val} {brought : List Val} {inner : Option Cont}
    (h : Brings s op u brought inner) {below frames : List Val} {k : Option Val}
    (after : Quietly ((u.setStack m below).newCont frames k).1 t) (rehandled : Bool) :
    t.isTaken ⟨s.conts.size, rehandled⟩ = false := by
  rw [← h.size]
  simp [Store.isTaken, Store.conts_of_engine after.engine, Store.newCont]

theorem Brings.sets {op : Val} {brought : List Val} {inner : Option Cont}
    (h : Brings s op u brought inner) (own : s.Own) (inside : m < s.machines.size)
    {below frames : List Val} {k : Option Val}
    (after : Quietly ((u.setStack m below).newCont frames k).1 t) :
    Sets s t m below (some frames) := by
  have machines := h.origin.2.1
  have set := (Sets.setStack (own.of_machines machines) (machines ▸ inside) below).before own
    machines h.frames h.size
  refine (set.newCont ?_ frames k).after after
  rw [conts_setStack, h.size]

/-- The stack that a machine has after a turn, and the slice that it has captured. -/
theorem Does.sets {moved : Turn Phase} (does : Does s m p r t moved) (own : s.Own)
    (inside : m < s.machines.size) : ∃ stack slice, Sets s t m stack slice := by
  cases does with
  | settles delivers delivered after => exact ⟨_, _, delivers.sets own inside after⟩
  | halts left after ending unasked begun => exact ⟨_, _, sets_of_take left own after⟩
  | escapes c id action => exact ⟨_, _, .refl own m⟩
  | closes contents => exact ⟨_, _, .refl own m⟩
  | discards stack unasked => exact ⟨_, _, .setStack own inside _⟩
  | captures invoked stack brings after directs => exact ⟨_, _, brings.sets own inside after⟩

theorem Does.own {moved : Turn Phase} (does : Does s m p r t moved) (own : s.Own)
    (inside : m < s.machines.size) : t.Own := by
  obtain ⟨_, _, sets⟩ := does.sets own inside
  exact sets.own

theorem Delivers.forall {P : Val → Prop} {o : Outcome} {base : List Val}
    (h : Delivers s m p r u o base) (stack : ∀ v ∈ s.stack m, P v)
    (slices : ∀ k, ∀ v ∈ s.frames k, P v)
    (made : ∀ g t, (Process.machine m p).framed? r = some g → P (.frame (.generator (.gen g) t))) :
    ∀ v ∈ base, P v := by
  intro v mem
  cases h with
  | @pushed _ w g value framed =>
      rcases List.mem_cons.1 mem with rfl | mem
      · refine made _ _ ?_
        rcases value with rfl | rfl <;> exact framed
      · exact stack v mem
  | ended c w top value => exact stack v (by simp [top, mem])
  | broken c x top => exact stack v (by simp [top, mem])
  | resumed c id k w e =>
      rcases List.mem_append.1 mem with slice | mem
      · exact slices k v slice
      · exact stack v mem
  | _ => exact stack v mem

theorem Brings.forall {P : Val → Prop} {op : Val} {brought : List Val} {inner : Option Cont}
    (h : Brings s op u brought inner) (slices : ∀ k, ∀ v ∈ s.frames k, P v) :
    ∀ v ∈ brought, P v := by
  cases h with
  | invocation id i => simp
  | resend id e args k context pending => exact slices k

/-- What holds of all frames before a turn and of a new one holds of all frames after it. -/
theorem Does.forall {P : Val → Prop} {moved : Turn Phase} (does : Does s m p r t moved)
    (own : s.Own) (inside : m < s.machines.size) (stack : ∀ v ∈ s.stack m, P v)
    (slices : ∀ k, ∀ v ∈ s.frames k, P v)
    (made : ∀ g t, (Process.machine m p).framed? r = some g → P (.frame (.generator (.gen g) t))) :
    (∀ v ∈ t.stack m, P v) ∧ ∀ k, ∀ v ∈ t.frames k, P v := by
  have of_sets {left : List Val} (sets : Sets s t m left none) (fine : ∀ v ∈ left, P v) :
      (∀ v ∈ t.stack m, P v) ∧ ∀ k, ∀ v ∈ t.frames k, P v := by
    refine ⟨sets.stack_eq ▸ fine, fun k => ?_⟩
    rw [sets.frames]
    simpa using slices k
  cases does with
  | settles delivers delivered after =>
      obtain ⟨above, whole, -⟩ := delivered.passed
      refine of_sets (delivers.sets own inside after) fun v mem => ?_
      exact delivers.forall stack slices made v (by simp [whole, mem])
  | halts left after ending unasked begun => exact of_sets (sets_of_take left own after) stack
  | escapes c id action => exact ⟨stack, slices⟩
  | closes contents => exact ⟨stack, slices⟩
  | discards top unasked =>
      exact of_sets (.setStack own inside _) fun v mem => stack v (by simp [top, mem])
  | @captures c op i above below brought inner u t turn invoked whole brings after directs =>
      have sets := brings.sets own inside after
      refine ⟨sets.stack_eq ▸ fun v mem => stack v (by simp [whole, mem]), fun k v mem => ?_⟩
      rw [sets.frames] at mem
      split at mem
      · rcases List.mem_append.1 mem with brought | here
        · exact brings.forall slices v brought
        · exact stack v (by simp [whole, here])
      · exact slices k v mem

end Machine

/-- What the kernel comes to after a turn of a machine in the generator `g`. -/
inductive Machine.Followed (w : World G) (g : Gen) (m : Nat) (rest : List (Activation G))
    (t : Store) : Turn Machine.Phase → Config G → Prop
  | calls (f : Val) (args : List Val) (p : Machine.Phase) :
      Followed w g m rest t (.ask (.call f args) p)
        ⟨{ w with store := t }, .running g (.library (.machine m p)) :: rest,
          .call f args .machine⟩
  | advances (h : Gen) (i : Input) (p : Machine.Phase) :
      Followed w g m rest t (.ask (.advance h i) p)
        ⟨{ w with store := t }, .running g (.library (.machine m p)) :: rest, .advance h i⟩
  | closes (h : Gen) (p : Machine.Phase) :
      Followed w g m rest t (.ask (.close h) p)
        ⟨{ w with store := t }, .running g (.library (.machine m p)) :: rest, .close h⟩
  | yields (v : Val) (how : Suspension) (p : Machine.Phase) :
      Followed w g m rest t (.ask (.yield v how) p)
        ⟨World.setStatus { w with store := t } g (.suspended (.library (.machine m p)) how), rest,
          .reply (.yielded v)⟩
  | ends {turn : Turn Machine.Phase} {store : Store} {r : Reply} (ending : turn.next? = none)
      (quiet : Quietly t store) (final : r.Final) :
      Followed w g m rest t turn
        ⟨{ World.setStatus w g .finished with store }, rest, .reply r⟩

theorem Machine.Followed.quiet {w : World G} {g : Gen} {m : Nat} {rest : List (Activation G)}
    {t : Store} {turn : Turn Machine.Phase} {d : Config G} (h : Followed w g m rest t turn d) :
    Quietly t d.world.store := by
  cases h with
  | ends ending quiet final => exact quiet
  | _ => exact .refl t

theorem Machine.followed_leave (w : World G) (g : Gen) (m : Nat) (rest : List (Activation G))
    {t u : Store} {turn : Turn Machine.Phase} (ending : turn.next? = none) (quiet : Quietly t u)
    (x : Exc) : Followed w g m rest t turn (Config.leave { w with store := u } rest g x) := by
  unfold Config.leave
  dsimp only
  split
  · exact .ends ending (quiet.trans (.next rfl rfl)) fun v => by simp
  · exact .ends ending quiet fun v => by simp

theorem Machine.followed_turnOf (w : World G) (g : Gen) (m : Nat) (rest : List (Activation G))
    (t : Store) {turn : Turn Machine.Phase}
    (asks : turn.next? = none ∨ ∃ a p, turn = .ask a p ∧ Asks a p) :
    Followed w g m rest t turn (Config.turnOf { w with store := t } rest g
      ((turn.map (Process.machine m)).map .library)) := by
  rcases asks with ending | ⟨a, p, rfl, asks⟩
  · cases turn with
    | ask a p => contradiction
    | more p => contradiction
    | done v => exact .ends ending (.refl t) fun v => by simp
    | raise x => exact followed_leave w g m rest ending (.refl t) x
    | fault f =>
        have faulted : Quietly t (t.fault f).1 := .next rfl rfl
        exact followed_leave w g m rest ending faulted _
  · cases asks with
    | calls f args => exact .calls f args _
    | advances h i => exact .advances h i _
    | escapes v => exact .yields v _ _
    | resends v => exact .yields v _ _
    | discards c op => cases c <;> first | exact .closes _ _ | exact .calls _ _ _
    | closes v rest x => cases v <;> first | exact .closes _ _ | exact .calls _ _ _

/-! ## Sound configurations -/

/-- All frames that there are were made by the library. -/
structure Sound (trace : Trace G) (c : Config G) : Prop where
  own : c.world.store.Own
  onStacks : ∀ m, ∀ v ∈ c.world.store.stack m, v.Proper
  slices : ∀ k, ∀ v ∈ c.world.store.frames k, v.Proper
  ran : ∀ m i, (m, i) ∈ trace.ran → m < c.world.store.machines.size

namespace Sound

variable {trace : Trace G} {c d : Config G}

/-- The stack of a machine that was run. -/
theorem machine (sound : Sound trace c) {m i : Nat} (ran : (m, i) ∈ trace.ran) :
    ∃ owner, c.world.store.machines[m]? = some ⟨.own (c.world.store.stack m), owner⟩ :=
  sound.own.machine (sound.ran m i ran)

/-- A machine that makes the next step does what machines do. -/
theorem turning (sound : Sound trace c) (seated : Seated trace c) : c.Turning := by
  intro m p r g rest stack signal
  have fair := seated.stack (.running g (.library (.machine m p)))
    (by rw [stack]; exact List.mem_cons_self)
  rcases fair with ⟨plain, -⟩ | ⟨m', p', same, tame, ran, -⟩
  · contradiction
  · cases same
    obtain ⟨owner, there⟩ := sound.machine ran
    exact Machine.does_step there (sound.onStacks m) tame fun q _ => sound.slices q.2

end Sound

namespace Config

variable {c : Config G} {m : Nat} {p : Machine.Phase} {r : Reply} {g : Gen}
  {rest : List (Activation G)}

theorem stepped?_machine (stack : c.stack = .running g (.library (.machine m p)) :: rest)
    (signal : c.signal = .reply r) : c.stepped? = some m := by
  obtain ⟨w, _, _⟩ := c
  cases stack
  cases signal
  rfl

theorem received?_machine (stack : c.stack = .running g (.library (.machine m p)) :: rest)
    (signal : c.signal = .reply r) : c.received? = Machine.received? p r := by
  obtain ⟨w, _, _⟩ := c
  cases stack
  cases signal
  rfl

theorem framed?_machine (stack : c.stack = .running g (.library (.machine m p)) :: rest)
    (signal : c.signal = .reply r) : c.framed? = (Process.machine m p).framed? r := by
  obtain ⟨w, _, _⟩ := c
  cases stack
  cases signal
  rfl

end Config

/-- Stacks and slices after a step of no machine: a machine may be new. -/
structure Store.Adds (s t : Store) (new : Option (List Val)) : Prop where
  own : t.Own
  size : t.machines.size = s.machines.size + new.toList.length
  onStacks : ∀ m, t.stack m = if m = s.machines.size then new.getD (s.stack m) else s.stack m
  frames : t.frames = s.frames

namespace Shift

variable {trace : Trace G} {c d : Config G}

/-- A step changes the stack of the machine that makes it, or adds a machine. -/
theorem changes (shift : Shift c d) (sound : Sound trace c) (seated : Seated trace c) :
    (c.stepped? = none ∧ (Store.Adds c.world.store d.world.store none ∨
      ∃ g tag handlers, c.framed? = some g ∧ (∀ v ∈ handlers, v.IsHandler) ∧
        Store.Adds c.world.store d.world.store
          (some (.frame (.generator (.gen g) tag) :: handlers)))) ∨
    ∃ m p r g rest t moved, c.stack = .running g (.library (.machine m p)) :: rest ∧
      c.signal = .reply r ∧ m < c.world.store.machines.size ∧
      Machine.Does c.world.store m p r t moved ∧ Quietly t d.world.store := by
  cases shift with
  | quiet after idle unmade keeps =>
      have machines := Store.machines_of_engine after.engine
      have frames := Store.frames_of_conts (Store.conts_of_engine after.engine)
      refine .inl ⟨idle, .inl ⟨sound.own.of_machines machines, ?_, fun m => ?_, frames⟩⟩
      · simp [machines]
      · simp [sound.own.stack_eq machines]
  | takes k after idle made keeps =>
      have machines := (Store.machines_of_engine after.engine).trans (Store.machines_take _ k)
      refine .inl ⟨idle, .inl ⟨sound.own.of_machines machines, ?_, fun m => ?_, ?_⟩⟩
      · simp [machines]
      · simp [sound.own.stack_eq machines]
      · rw [Store.frames_of_conts (Store.conts_of_engine after.engine)]
        exact funext (Store.frames_take _ k)
  | @makes g handlers owner framed after idle unmade proper keeps =>
      have own : c.world.store.freshTag.1.Own := sound.own
      have machines := Store.machines_of_engine after.engine
      have made := own.newMachine
        (.frame (.generator (.gen g) c.world.store.freshTag.2) :: handlers) owner
      have frames := Store.frames_of_conts (Store.conts_of_engine after.engine)
      refine .inl ⟨idle, .inr ⟨g, c.world.store.freshTag.2, handlers, framed, proper,
        made.of_machines machines, ?_, fun m => ?_, frames⟩⟩
      · rw [machines]
        simp [Store.newMachine, Store.freshTag]
      · rw [made.stack_eq machines, Store.stack_newMachine]
        rfl
  | @machine m p r g rest t moved stack signal does after keeps =>
      have top : Activation.running g (.library (.machine m p)) ∈ c.stack := by simp [stack]
      obtain ⟨g', -, ran, -⟩ := seated.machine top rfl
      exact .inr ⟨m, p, r, g, rest, t, moved, stack, signal, sound.ran m _ ran, does, after⟩

theorem stack_eq (shift : Shift c d) (sound : Sound trace c) (seated : Seated trace c) {m : Nat}
    (inside : m < c.world.store.machines.size) (other : c.stepped? ≠ some m) :
    d.world.store.stack m = c.world.store.stack m := by
  rcases shift.changes sound seated with ⟨-, adds | ⟨g, tag, handlers, -, -, adds⟩⟩ |
    ⟨n, p, r, g, rest, t, moved, stack, signal, there, does, after⟩
  · rw [adds.onStacks]
    simp
  · rw [adds.onStacks, if_neg (Nat.ne_of_lt inside)]
  · obtain ⟨_, _, sets⟩ := does.sets sound.own there
    refine (sets.after after).others m ?_
    rintro rfl
    exact other (Config.stepped?_machine stack signal)

/-- The slices of continuations that there are stay as they are. -/
theorem frames_eq (shift : Shift c d) (sound : Sound trace c) (seated : Seated trace c)
    {k : Cont} (old : k.index < c.world.store.conts.size) :
    d.world.store.frames k = c.world.store.frames k := by
  rcases shift.changes sound seated with ⟨-, adds | ⟨g, tag, handlers, -, -, adds⟩⟩ |
    ⟨m, p, r, g, rest, t, moved, stack, signal, there, does, after⟩
  · rw [adds.frames]
  · rw [adds.frames]
  · obtain ⟨_, _, sets⟩ := does.sets sound.own there
    rw [(sets.after after).frames, if_neg (Nat.ne_of_lt old)]

/-- What holds of all frames before a step and of new ones holds of all frames after it. -/
theorem forall_frames {P : Val → Prop} (shift : Shift c d) (sound : Sound trace c)
    (seated : Seated trace c) (onStacks : ∀ m, ∀ v ∈ c.world.store.stack m, P v)
    (slices : ∀ k, ∀ v ∈ c.world.store.frames k, P v)
    (made : ∀ g t, c.framed? = some g → P (.frame (.generator (.gen g) t)))
    (handlers : ∀ h t, P (.frame (.handler (.handler h) t))) :
    (∀ m, ∀ v ∈ d.world.store.stack m, P v) ∧ ∀ k, ∀ v ∈ d.world.store.frames k, P v := by
  rcases shift.changes sound seated with
    ⟨-, adds | ⟨g, tag, held, framed, proper, adds⟩⟩ |
    ⟨n, p, r, g, rest, t, moved, stack, signal, there, does, after⟩
  · refine ⟨fun m v mem => onStacks m v ?_, adds.frames ▸ slices⟩
    rw [adds.onStacks] at mem
    simpa using mem
  · refine ⟨fun m v mem => ?_, adds.frames ▸ slices⟩
    rw [adds.onStacks] at mem
    split at mem
    · rcases List.mem_cons.1 mem with rfl | mem
      · exact made g tag framed
      · obtain ⟨h, t, rfl⟩ := proper v mem
        exact handlers h t
    · exact onStacks m v mem
  · rw [Config.framed?_machine stack signal] at made
    obtain ⟨here, frames⟩ := does.forall sound.own there (onStacks n) slices made
    obtain ⟨_, _, sets⟩ := does.sets sound.own there
    have same := sets.own.stack_eq (Store.machines_of_engine after.engine)
    refine ⟨fun i v mem => ?_, fun k v mem => ?_⟩
    · rw [same] at mem
      by_cases turning : i = n
      · subst turning
        exact here v mem
      · rw [sets.others i turning] at mem
        exact onStacks i v mem
    · rw [Store.frames_of_conts (Store.conts_of_engine after.engine)] at mem
      exact frames k v mem

end Shift

namespace Sound

variable {trace : Trace G} {c d : Config G}

theorem step (sound : Sound trace c) (seated : Seated trace c) (genuine : Genuine trace c)
    (shift : Shift c d) : Sound (c :: trace) d := by
  have kept : d.world.store.Own ∧ c.world.store.machines.size ≤ d.world.store.machines.size := by
    rcases shift.changes sound seated with ⟨-, adds | ⟨g, tag, handlers, -, -, adds⟩⟩ |
      ⟨n, p, r, g, rest, t, moved, stack, signal, there, does, after⟩
    · exact ⟨adds.own, by simp [adds.size]⟩
    · exact ⟨adds.own, by simp [adds.size]⟩
    · obtain ⟨_, _, sets⟩ := does.sets sound.own there
      exact ⟨(sets.after after).own, Nat.le_of_eq (sets.after after).size.symm⟩
  obtain ⟨onStacks, slices⟩ := shift.forall_frames sound seated sound.onStacks sound.slices
    (fun g t _ => .generator g t) .handler
  refine ⟨kept.1, onStacks, slices, fun m i ran => Nat.lt_of_lt_of_le ?_ kept.2⟩
  rcases Trace.mem_ran_cons ran with here | before
  · exact (genuine.ran m i here).1
  · exact sound.ran m i before

/-- A machine that makes the next step makes a turn, and the kernel follows it. -/
theorem follows (sound : Sound trace c) (seated : Seated trace c) {m : Nat} {p : Machine.Phase}
    {r : Reply} {g : Gen} {rest : List (Activation G)}
    (stack : c.stack = .running g (.library (.machine m p)) :: rest) (signal : c.signal = .reply r)
    (stepped : c.step = .ok d) : ∃ t moved, Machine.step c.world.store m p r = (t, moved) ∧
      Machine.Does c.world.store m p r t moved ∧ Machine.Followed c.world g m rest t moved d := by
  have does := sound.turning seated m p r g rest stack signal
  refine ⟨_, _, rfl, does, ?_⟩
  obtain ⟨w, _, _⟩ := c
  cases stack
  cases signal
  cases stepped
  exact Machine.followed_turnOf w g m rest _ does.asks

theorem of_fresh (fresh : c.Fresh) : Sound [] c where
  own := by
    intro m r there
    rw [fresh.machines] at there
    contradiction
  onStacks m v mem := by simp [Store.stack, fresh.machines] at mem
  slices k v mem := by simp [Store.frames, fresh.conts] at mem
  ran := by simp [Trace.ran]

end Sound
end OneShot
