import OneShot.Proofs.Frames.Waiting

/-!
# What a machine asks for

While a machine waits for a generator to be advanced, that generator is on top
of its stack.  What it has closed was taken off the stack just before, or is on
it.
-/

namespace OneShot

open Store (Quietly)

namespace Machine

/-- What the phase of a machine says of its stack. -/
def Phase.Holding (stack : List Val) : Phase → Prop
  | .advancing content =>
      ∃ g t rest, content = .gen g ∧ stack = .frame (.generator (.gen g) t) :: rest
  | .closing contents _ => ∀ v ∈ contents, ∃ g, v = .gen g ∧ Key.gen g.id ∈ stack.flatMap Val.keys
  | _ => True

/-- What a machine asks for, with its stack before and after. -/
inductive Asked (m : Nat) (s t : Store) : Ask → Phase → Prop
  | calls (f : Val) (args : List Val) : Asked m s t (.call f args) .calling
  | advances {g : Gen} (i : Input) {tag : Tag} {rest : List Val}
      (top : t.stack m = .frame (.generator (.gen g) tag) :: rest) :
      Asked m s t (.advance g i) (.advancing (.gen g))
  | escapes (v : Val) : Asked m s t (.yield v .direct) .escaped
  | resends (v : Val) : Asked m s t (.yield v .inner) .resent
  | discards {g : Gen} {tag : Tag} {rest : List Val} (op : Val)
      (top : s.stack m = .frame (.generator (.gen g) tag) :: rest) (set : t = s.setStack m rest) :
      Asked m s t (.close g) (.discarding op)
  | closes {g : Gen} {rest : List Val} (x : Exc) (same : t = s)
      (here : Key.gen g.id ∈ (t.stack m).flatMap Val.keys)
      (holding : (Phase.closing rest x).Holding (t.stack m)) :
      Asked m s t (.close g) (.closing rest x)

variable {s t : Store} {m : Nat} {p p' : Phase} {r : Reply} {a : Ask}

theorem Delivered.asked {o : Outcome} {base left : List Val}
    (h : Delivered o base left (.ask a p')) (stack : t.stack m = left) : Asked m s t a p' := by
  generalize made : Turn.ask a p' = turn at h
  induction h with
  | finish o =>
      cases o with
      | ok v => cases made
      | failed v => cases v <;> cases made
  | returns h tag v rest =>
      cases made
      exact .calls _ _
  | passes h tag below ih => exact ih stack made
  | advances o g tag rest =>
      cases made
      exact .advances _ stack

theorem Phase.holding_of_proper {stack : List Val} (proper : ∀ v ∈ stack, v.Proper) (x : Exc) :
    (Phase.closing (stack.filterMap Val.framed?) x).Holding stack := by
  intro v mem
  obtain ⟨f, here, framed⟩ := List.mem_filterMap.1 mem
  cases proper f here with
  | generator g tag =>
      cases framed
      exact ⟨g, rfl, List.mem_flatMap.2 ⟨_, here, by simp [Val.keys]⟩⟩
  | handler h tag => cases framed

/-- What a machine asks for is in keeping with its stack. -/
theorem Does.asked (does : Does s m p r t (.ask a p')) (own : s.Own)
    (inside : m < s.machines.size) (proper : ∀ v ∈ s.stack m, v.Proper)
    (holding : p.Holding (s.stack m)) : Asked m s t a p' := by
  cases does with
  | @settles _ _ o base left u _ _ delivers delivered after =>
      have quiet := delivers.quiet
      have own' : u.Own := own.of_machines (Store.machines_of_engine quiet.engine)
      have inside' : m < u.machines.size := by rwa [Store.machines_of_engine quiet.engine]
      obtain ⟨owner, there⟩ := own'.machine inside'
      refine delivered.asked ?_
      rw [(own'.setStack inside' left).stack_eq (Store.machines_of_engine after.engine)]
      exact Store.stack_setStack there left
  | halts left after ending unasked begun => contradiction
  | escapes c id action => exact .escapes _
  | @closes _ _ v rest x contents =>
      have held : (Phase.closing (v :: rest) x).Holding (s.stack m) := by
        rcases contents with ⟨rfl, same⟩ | rfl
        · rw [same]
          exact Phase.holding_of_proper proper x
        · exact holding
      obtain ⟨g, rfl, here⟩ := held v List.mem_cons_self
      exact .closes x rfl here fun w mem => held w (List.mem_cons_of_mem _ mem)
  | @discards c op v rest stack asked =>
      obtain ⟨g, tag, rest', rfl, top⟩ := holding
      rw [stack] at top
      cases top
      exact .discards op stack rfl
  | captures invoked stack brings after directs =>
      cases directs with
      | owner effect clause captured unowned => exact .calls _ _
      | outward id whole unowned => exact .resends _

theorem Asked.holding (h : Asked m s t a p') : p'.Holding (t.stack m) := by
  cases h with
  | advances i top => exact ⟨_, _, _, rfl, top⟩
  | closes x same here holding => exact holding
  | _ => trivial

/-- A machine that has asked for something has begun. -/
theorem Asked.begun (h : Asked m s t a p') : p' ≠ .start := by
  cases h <;> simp

end Machine
end OneShot
