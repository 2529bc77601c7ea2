import OneShot.Proofs.Frames.Runs

/-!
# Counting what is owned

How many of the frames that are owned have a property, and how that number
changes with the stack of a machine, with a continuation that is made or taken,
with a machine that is made, and with a request.
-/

namespace OneShot

open Store (Quietly)

section Lists

variable {α β : Type} {P : β → Bool}

theorem flatMap_congr {f f' : α → List β} {l : List α} (h : ∀ a ∈ l, f' a = f a) : l.flatMap f' = l.flatMap f := by
  induction l with
  | nil => rfl
  | cons a l ih =>
      rw [List.flatMap_cons, List.flatMap_cons, h a List.mem_cons_self]
      rw [ih fun b mem => h b (List.mem_cons_of_mem a mem)]

/-- One entry of a range changes. -/
theorem countP_range (f f' : Nat → List β) {m n : Nat} (inside : m < n)
    (same : ∀ i, i ≠ m → f' i = f i) :
    ((List.range n).flatMap f').countP P + (f m).countP P =
      ((List.range n).flatMap f).countP P + (f' m).countP P := by
  induction n with
  | zero => omega
  | succ n ih =>
      simp only [List.range_succ, List.flatMap_append, List.flatMap_cons, List.flatMap_nil,
        List.append_nil, List.countP_append]
      rcases Nat.lt_or_ge m n with before | last
      · have rest := ih before
        rw [same n (by omega)]
        omega
      · obtain rfl : m = n := by omega
        rw [flatMap_congr fun i mem => same i ?_]
        · omega
        · exact Nat.ne_of_lt (List.mem_range.1 mem)

/-- A range gets one entry more. -/
theorem countP_range_succ (f f' : Nat → List β) {n : Nat} (same : ∀ i, i < n → f' i = f i) :
    ((List.range (n + 1)).flatMap f').countP P =
      ((List.range n).flatMap f).countP P + (f' n).countP P := by
  rw [List.range_succ, List.flatMap_append, List.countP_append]
  rw [flatMap_congr fun i mem => same i (List.mem_range.1 mem)]
  simp

end Lists

namespace Store

/-- All machines have stacks of their own. -/
def Own (s : Store) : Prop := ∀ (m : Nat) (r : MachineRecord), s.machines[m]? = some r →
  ∃ frames, r.stack = .own frames

section Same

variable {s t : Store}

theorem Own.of_machines (own : s.Own) (h : t.machines = s.machines) : t.Own := by
  intro m r there
  rw [h] at there
  exact own m r there

theorem Own.stack_eq (own : s.Own) (h : t.machines = s.machines) (m : Nat) :
    t.stack m = s.stack m := by
  unfold stack
  rw [h]
  cases there : s.machines[m]? with
  | none => rfl
  | some r =>
      obtain ⟨stack, owner⟩ := r
      obtain ⟨frames, made⟩ := own m _ there
      cases made
      rfl

theorem Own.machine (own : s.Own) {m : Nat} (inside : m < s.machines.size) :
    ∃ owner, s.machines[m]? = some ⟨.own (s.stack m), owner⟩ := by
  obtain ⟨⟨stack, owner⟩, there⟩ : ∃ r, s.machines[m]? = some r :=
    ⟨_, Array.getElem?_eq_getElem inside⟩
  obtain ⟨frames, made⟩ := own m _ there
  cases made
  exact ⟨owner, by rw [there, stack_of_own there]⟩

theorem pending_of_conts (h : t.conts = s.conts) : t.pending = s.pending := by
  funext i
  simp only [pending, h]

theorem frames_of_conts (h : t.conts = s.conts) : t.frames = s.frames := by
  funext k
  simp only [frames, h]

/-- What is owned depends on the engine only. -/
theorem Own.owned_eq (own : s.Own) (h : t.engine = s.engine) (requests : List (Nat × Cont)) :
    t.owned requests = s.owned requests := by
  unfold owned
  rw [pending_of_conts (conts_of_engine h), frames_of_conts (conts_of_engine h),
    machines_of_engine h, conts_of_engine h]
  rw [flatMap_congr fun m _ => own.stack_eq (machines_of_engine h) m]

theorem pending_of_taken {k : Cont} (h : s.isTaken k = true) : s.pending k.index = [] := by
  unfold isTaken at h
  unfold pending
  cases there : s.conts[k.index]? with
  | none => rfl
  | some r =>
      rw [there] at h
      obtain ⟨frames, inner, taken⟩ := r
      simp only [Option.map_some, Option.getD_some] at h
      rw [h]

theorem frames_of_pending {i : Nat} {b : Bool} {v : Val} (h : v ∈ s.pending i) :
    v ∈ s.frames ⟨i, b⟩ := by
  unfold pending at h
  unfold frames
  split at h
  · rename_i found
    simpa [found] using h
  · contradiction

theorem pending_of_pending {k : Cont} (h : s.isTaken k = false) :
    s.pending k.index = s.frames k := by
  unfold isTaken at h
  unfold pending frames
  cases there : s.conts[k.index]? with
  | none =>
      rw [there] at h
      contradiction
  | some r =>
      rw [there] at h
      obtain ⟨frames, inner, taken⟩ := r
      simp only [Option.map_some, Option.getD_some] at h ⊢
      rw [h]

end Same

theorem size_setStack (s : Store) (m : Nat) (frames : List Val) :
    (s.setStack m frames).machines.size = s.machines.size := by
  unfold setStack
  split
  · rfl
  · rfl
  · simp

theorem stack_setStack_of_ne {s : Store} {m i : Nat} {old : List Val} {owner : Val}
    (h : s.machines[m]? = some ⟨.own old, owner⟩) (frames : List Val) (other : i ≠ m) :
    (s.setStack m frames).stack i = s.stack i := by
  simp only [setStack, h, stack, Array.getElem?_modify]
  rw [if_neg (Ne.symm other)]
  rfl

section Counts

variable {s : Store} {P : Val → Bool} {requests : List (Nat × Cont)}

theorem countP_owned (s : Store) (P : Val → Bool) (requests : List (Nat × Cont)) :
    (s.owned requests).countP P =
      ((List.range s.machines.size).flatMap s.stack).countP P +
        ((List.range s.conts.size).flatMap s.pending).countP P +
        (requests.flatMap fun q => s.frames q.2).countP P := by
  rw [owned, List.countP_append, List.countP_append]

/-- The stack of a machine is set. -/
theorem Own.countP_setStack (own : s.Own) (P : Val → Bool) (requests : List (Nat × Cont)) {m : Nat}
    (inside : m < s.machines.size) (frames : List Val) :
    ((s.setStack m frames).owned requests).countP P + (s.stack m).countP P =
      (s.owned requests).countP P + frames.countP P := by
  obtain ⟨owner, there⟩ := own.machine inside
  have conts : (s.setStack m frames).conts = s.conts := Machine.conts_setStack s m frames
  have size : (s.setStack m frames).machines.size = s.machines.size :=
    size_setStack s m frames
  have here : (s.setStack m frames).stack m = frames := stack_setStack there frames
  have changed := countP_range (P := P) s.stack (s.setStack m frames).stack inside
    fun i other => stack_setStack_of_ne there frames other
  rw [countP_owned, countP_owned, pending_of_conts conts, frames_of_conts conts, conts, size]
  rw [here] at changed
  omega

/-- A new continuation is pending. -/
theorem countP_newCont (known : ∀ q ∈ requests, q.2.index < s.conts.size) (frames : List Val)
    (inner : Option Val) :
    ((s.newCont frames inner).1.owned requests).countP P =
      (s.owned requests).countP P + frames.countP P := by
  have old (i : Nat) (h : i < s.conts.size) :
      (s.newCont frames inner).1.conts[i]? = s.conts[i]? := by
    simp [newCont, Array.getElem?_push, Nat.ne_of_lt h]
  have asked : (requests.flatMap fun q => (s.newCont frames inner).1.frames q.2) =
      requests.flatMap fun q => s.frames q.2 :=
    flatMap_congr fun q mem => by simp only [Store.frames, old _ (known q mem)]
  have more := countP_range_succ (P := P) s.pending (s.newCont frames inner).1.pending
    (n := s.conts.size) fun i h => by simp only [pending, old i h]
  have last : (s.newCont frames inner).1.pending s.conts.size = frames := by
    simp [newCont, pending]
  have size : (s.newCont frames inner).1.conts.size = s.conts.size + 1 := by simp [newCont]
  have onStacks : (s.newCont frames inner).1.stack = s.stack := rfl
  have machines : (s.newCont frames inner).1.machines = s.machines := rfl
  rw [countP_owned, countP_owned, asked, size, more, last, onStacks, machines]
  omega

/-- What is taken is not pending any more. -/
theorem countP_take (s : Store) (P : Val → Bool) (requests : List (Nat × Cont)) (k : Cont) :
    ((s.take k).1.owned requests).countP P + (s.pending k.index).countP P =
      (s.owned requests).countP P := by
  cases taken : s.isTaken k with
  | true => simp [take_of_isTaken taken, pending_of_taken taken]
  | false =>
      have inside := lt_of_pending taken
      have size : (s.take k).1.conts.size = s.conts.size := by simp [take, taken]
      have onStacks : (s.take k).1.stack = s.stack := by
        funext m
        simp [take, taken, stack, list]
      have machines : (s.take k).1.machines = s.machines := by simp [take, taken]
      have gone : (s.take k).1.pending k.index = [] := pending_of_taken (isTaken_take s k)
      have changed := countP_range (P := P) s.pending (s.take k).1.pending inside
        fun i other => by
          simp only [take, taken, Bool.false_eq_true, if_false, pending, Array.getElem?_modify]
          rw [if_neg (Ne.symm other)]
      rw [gone, List.countP_nil] at changed
      rw [countP_owned, countP_owned, size, onStacks, machines]
      simp only [frames_take]
      omega

/-- A new machine has its stack. -/
theorem countP_newMachine (s : Store) (P : Val → Bool) (requests : List (Nat × Cont))
    (frames : List Val) (owner : Val) :
    ((s.newMachine (.own frames) owner).1.owned requests).countP P =
      (s.owned requests).countP P + frames.countP P := by
  have more := countP_range_succ (P := P) s.stack (s.newMachine (.own frames) owner).1.stack
    (n := s.machines.size) fun i h => by
      simp [newMachine, stack, list, Array.getElem?_push, Nat.ne_of_lt h]
  have last : (s.newMachine (.own frames) owner).1.stack s.machines.size = frames := by
    simp [newMachine, stack]
  have size : (s.newMachine (.own frames) owner).1.machines.size = s.machines.size + 1 := by
    simp [newMachine]
  have pending : (s.newMachine (.own frames) owner).1.pending = s.pending := rfl
  have conts : (s.newMachine (.own frames) owner).1.conts = s.conts := rfl
  have held : (s.newMachine (.own frames) owner).1.frames = s.frames := rfl
  rw [countP_owned, countP_owned, size, more, last, pending, conts, held]
  omega

/-- A request is made or answered. -/
theorem countP_cons (s : Store) (P : Val → Bool) (q : Nat × Cont) :
    (s.owned (q :: requests)).countP P =
      (s.owned requests).countP P + (s.frames q.2).countP P := by
  rw [countP_owned, countP_owned, List.flatMap_cons, List.countP_append]
  omega

theorem countP_erase (s : Store) (P : Val → Bool) {q : Nat × Cont} (mem : q ∈ requests) :
    (s.owned (requests.erase q)).countP P + (s.frames q.2).countP P =
      (s.owned requests).countP P := by
  have whole := (List.perm_cons_erase mem).flatMap_right fun q => s.frames q.2
  have counted := whole.countP_eq P
  rw [List.flatMap_cons, List.countP_append] at counted
  rw [countP_owned, countP_owned]
  omega

end Counts

end Store
end OneShot
