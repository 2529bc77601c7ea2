import OneShot.Proofs.Split.Beside

/-!
# What code makes of what it is told

Code in two runs gets to see the same if it is told what is alike, so it is in the same
state afterwards, and what it does next is alike.
-/

namespace OneShot.Split

open List (Forall₂)

variable {c : Code} {N : Names} {m m' : Memo c} {v w x y : Val}

/-! ## What code sees -/

theorem sameObject_alike (once : N.Once) (h : Alike N v w) (h' : Alike N x y) : sameObject v x = sameObject w y := by
  cases h with
  | gen pair =>
      cases h' with
      | gen pair' =>
          rw [sameObject, sameObject, Bool.eq_iff_iff, beq_iff_eq, beq_iff_eq]
          constructor
          · intro same
            rw [(once.gens pair pair' (.inl same)).2]
          · intro same
            rw [(once.gens pair pair' (.inr same)).1]
      | _ => rfl
  | cont pair =>
      cases h' with
      | cont pair' =>
          rw [sameObject, sameObject, Bool.eq_iff_iff, beq_iff_eq, beq_iff_eq]
          constructor
          · intro same
            rw [(once.conts pair pair' (.inl same)).2]
          · intro same
            rw [(once.conts pair pair' (.inr same)).1]
      | _ => rfl
  | _ => rfl

theorem findIdx?_alike (once : N.Once) (h : Alike N v w) {vs ws : List Val} (known : Forall₂ (Alike N) vs ws) :
    vs.findIdx? (sameObject v) = ws.findIdx? (sameObject w) := by
  induction known with
  | nil => rfl
  | cons head tail ih => rw [List.findIdx?_cons, List.findIdx?_cons, sameObject_alike once h head, ih]

namespace MemoAlike

theorem know (h : MemoAlike N m m') (once : N.Once) (alike : Alike N v w) :
    MemoAlike N (m.know v).1 (m'.know w).1 ∧ (m.know v).2 = (m'.know w).2 := by
  unfold Memo.know
  rw [findIdx?_alike once alike h.known]
  split
  · exact ⟨h, rfl⟩
  · exact ⟨⟨h.data, List.rel_append h.known (.cons alike .nil), h.log⟩, by rw [h.known.length_eq]⟩

theorem see (h : MemoAlike N m m') (once : N.Once) (alike : Alike N v w) :
    MemoAlike N (m.see v).1 (m'.see w).1 ∧ (m.see v).2 = (m'.see w).2 := by
  have known := h.know once alike
  cases alike with
  | none | bool | int | str | function | effect => exact ⟨h, rfl⟩
  | _ => exact known

theorem seeAll {vs ws : List Val} (h : MemoAlike N m m') (once : N.Once) (alike : Forall₂ (Alike N) vs ws) :
    MemoAlike N (m.seeAll vs).1 (m'.seeAll ws).1 ∧ (m.seeAll vs).2 = (m'.seeAll ws).2 := by
  induction alike generalizing m m' with
  | nil => exact ⟨h, rfl⟩
  | cons head tail ih =>
      obtain ⟨first, same⟩ := h.see once head
      obtain ⟨rest, same'⟩ := ih first
      exact ⟨rest, by rw [Memo.seeAll, Memo.seeAll, same, same']⟩

theorem view (h : MemoAlike N m m') (once : N.Once) (alike : Alike N v w) :
    MemoAlike N (m.view v).1 (m'.view w).1 ∧ (m.view v).2 = (m'.view w).2 := by
  cases alike with
  | error kind plain plain' length args =>
      have args := forall₂_of_zip length args
      have plain : about _ = none := congrArg about plain
      have plain' : about _ = none := congrArg about plain'
      simp only [Memo.view, plain, plain', worded_alike kind args]
      split
      · exact ⟨h, rfl⟩
      · obtain ⟨seen, same⟩ := h.seeAll once args
        exact ⟨seen, by rw [same, kind]⟩
  | worded plain plain' text text' =>
      have plain : about _ = none := congrArg about plain
      have plain' : about _ = none := congrArg about plain'
      simp only [Memo.view, plain, plain', text, text', if_true]
      exact ⟨h, trivial⟩
  | failure kind other caused caused' object =>
      simp only [Memo.view, caused, caused']
      obtain ⟨seen, same⟩ := h.see once object
      exact ⟨seen, by rw [same, kind]⟩
  | escape i j action =>
      obtain ⟨seen, same⟩ := h.see once action
      exact ⟨seen, by rw [Memo.view, Memo.view, same]⟩
  | invocation i j e length args place =>
      obtain ⟨seen, same⟩ := h.seeAll once (forall₂_of_zip length args)
      exact ⟨seen, by simp only [Memo.view, same, place]⟩
  | _ => exact ⟨h, rfl⟩

theorem answer {J : Joint} {r r' : Reply} (h : MemoAlike J.names m m') (once : J.names.Once) (alike : ReplyAlike J r r') :
    MemoAlike J.names (m.answer r).1 (m'.answer r').1 ∧ (m.answer r).2 = (m'.answer r').2 := by
  cases alike with
  | value alike =>
      obtain ⟨seen, same⟩ := h.see once alike
      exact ⟨seen, by rw [Memo.answer, Memo.answer, same]⟩
  | raised alike =>
      obtain ⟨seen, same⟩ := h.see once alike
      exact ⟨seen, by rw [Memo.answer, Memo.answer, same]⟩
  | yielded alike =>
      obtain ⟨seen, same⟩ := h.see once alike
      cases alike <;> exact ⟨seen, congrArg Answer.yielded same⟩
  | request a b pair value error slices => exact ⟨h, rfl⟩
  | resent a b e args pair pending place =>
      obtain ⟨seen, same⟩ := h.seeAll once args
      obtain ⟨seen', same'⟩ := seen.see once (.cont pair)
      exact ⟨seen', by simp only [Memo.answer, same, same', place]⟩

/-! ## What code says -/

theorem item (h : MemoAlike N m m') (i : Item) : Alike N (m.item i) (m'.item i) := by
  cases i with
  | none | request => exact .none
  | bool b => exact .bool b
  | int i => exact .int i
  | str s => exact .str s
  | function j => exact .function j
  | effect e => exact .effect e
  | object n =>
      have alike {vs ws : List Val} (known : Forall₂ (Alike N) vs ws) (n : Nat) :
          Alike N (vs.getD n .none) (ws.getD n .none) := by
        induction known generalizing n with
        | nil => exact .none
        | cons head tail ih =>
            cases n with
            | zero => exact head
            | succ n => exact ih n
      exact alike h.known n

theorem items (h : MemoAlike N m m') (is : List Item) : Forall₂ (Alike N) (is.map m.item) (is.map m'.item) := by
  induction is with
  | nil => exact .nil
  | cons i is ih => exact .cons (h.item i) ih

theorem value (h : MemoAlike N m m') (e : Expr) : Alike N (m.value e) (m'.value e) := by
  cases e with
  | item i => exact h.item i
  | handler l => exact .handler l
  | error kind args => exact .ofArgs 0 0 (h.items args)
  | escape action => exact .escape 0 0 (h.item action)

theorem values (h : MemoAlike N m m') (es : List Expr) : Forall₂ (Alike N) (es.map m.value) (es.map m'.value) := by
  induction es with
  | nil => exact .nil
  | cons e es ih => exact .cons (h.value e) ih

theorem input (h : MemoAlike N m m') (p : Pass) : InputAlike N (m.input p) (m'.input p) := by
  cases p with
  | send v => exact .send (h.value v)
  | throw x => exact .throw (h.value x)

end MemoAlike

/-! ## What code does -/

/-- Faults that make exceptions which are alike, whatever they are about. -/
def FaultAlike (N : Names) (f f' : Fault) : Prop := ∀ s s' : Store, Alike N (.exc (s.fault f).2) (.exc (s'.fault f').2)

theorem FaultAlike.noField (alike : Alike N v w) (name : String) : FaultAlike N (.noField v name) (.noField w name) :=
  fun _ _ => .failure rfl (by simp [Store.fault, Store.newException, Fault.kind]) rfl rfl alike

theorem FaultAlike.about {f f' : Fault} (kind : f.kind = .type) (kind' : f'.kind = .type) (plain : f.detail = .plain)
    (plain' : f'.detail = .plain) : FaultAlike N f f' :=
  fun s s' => .fault s s' (kind.trans kind'.symm) plain plain' fun other => absurd kind other

theorem FaultAlike.same {f : Fault} (plain : f.detail = .plain) : FaultAlike N f f :=
  fun s s' => .fault s s' rfl plain plain fun _ => rfl

/-- The turns of code in two runs. -/
inductive TurnAlike (N : Names) : Turn (Body c) → Turn (Body c) → Prop
  | done {v w : Val} (alike : Alike N v w) : TurnAlike N (.done v) (.done w)
  | raise {x y : Exc} (alike : Alike N (.exc x) (.exc y)) : TurnAlike N (.raise x) (.raise y)
  | fault {f f' : Fault} (alike : FaultAlike N f f') : TurnAlike N (.fault f) (.fault f')
  | call {f g : Val} {vs ws : List Val} (s : c.State) (alike : Alike N f g) (args : Forall₂ (Alike N) vs ws) :
      TurnAlike N (.ask (.call f vs) (.code s)) (.ask (.call g ws) (.code s))
  | throw {k l : Cont} {v w : Val} (s : c.State) (pair : N.conts k l) (alike : Alike N v w) :
      TurnAlike N (.ask (.call (.native (.service .throwInto)) [.cont k, v]) (.code s))
        (.ask (.call (.native (.service .throwInto)) [.cont l, w]) (.code s))
  | consume {k l : Cont} (s : c.State) (pair : N.conts k l) :
      TurnAlike N (.ask (Body.consuming k) (.code s)) (.ask (Body.consuming l) (.code s))
  | discard {k l : Cont} (s : c.State) (pair : N.conts k l) :
      TurnAlike N (.ask (Body.consuming k) (.discarding s k)) (.ask (Body.consuming l) (.discarding s l))
  | check {k l : Cont} (s : c.State) (pair : N.conts k l) :
      TurnAlike N (.ask (Body.checking k) (.code s)) (.ask (Body.checking l) (.code s))
  | yield {v w : Val} (s : c.State) (alike : Alike N v w) :
      TurnAlike N (.ask (.yield v .direct) (.code s)) (.ask (.yield w .direct) (.code s))
  | delegate {v w : Val} (s : c.State) (alike : Alike N v w) :
      TurnAlike N (.ask (.delegate v) (.code s)) (.ask (.delegate w) (.code s))
  | advance {g h : Gen} {i j : Input} (s : c.State) (pair : N.gens g h) (alike : InputAlike N i j) :
      TurnAlike N (.ask (.advance g i) (.code s)) (.ask (.advance h j) (.code s))
  | close {g h : Gen} (s : c.State) (pair : N.gens g h) :
      TurnAlike N (.ask (.close g) (.code s)) (.ask (.close h) (.code s))
  | look (s : c.State) (v : Item) : TurnAlike N (.more (.looking s v)) (.more (.looking s v))

namespace TurnAlike

theorem raiseValue (alike : Alike N v w) : TurnAlike (c := c) N (.raiseValue v) (.raiseValue w) := by
  cases alike with
  | error kind plain plain' length args => exact .raise (.error kind plain plain' length args)
  | worded plain plain' text text' => exact .raise (.worded plain plain' text text')
  | failure kind other caused caused' object => exact .raise (.failure kind other caused caused' object)
  | _ => exact .fault (.same rfl)

theorem withCont (h : MemoAlike N m m') (v : Item) (name : String) {f f' : Cont → Turn (Body c)}
    (each : ∀ k l, N.conts k l → TurnAlike N (f k) (f' l)) :
    TurnAlike N (Body.withCont m v name f) (Body.withCont m' v name f') := by
  unfold Body.withCont
  have alike := h.item v
  generalize m.item v = v at alike
  generalize m'.item _ = w at alike
  have other := FaultAlike.noField alike name
  cases alike with
  | cont pair => exact each _ _ pair
  | _ => exact .fault other

theorem withGen (h : MemoAlike N m m') (v : Item) {f f' : Gen → Turn (Body c)}
    (each : ∀ g d, N.gens g d → TurnAlike N (f g) (f' d)) : TurnAlike N (Body.withGen m v f) (Body.withGen m' v f') := by
  unfold Body.withGen
  have alike := h.item v
  generalize m.item v = v at alike
  generalize m'.item _ = w at alike
  cases alike with
  | gen pair => exact each _ _ pair
  | _ => exact .fault (.about rfl rfl rfl rfl)

theorem act (h : MemoAlike N m m') (a : Act c.State) : TurnAlike N (Body.turn m a) (Body.turn m' a) := by
  cases a with
  | done v => exact .done (h.value v)
  | raise x => exact .raiseValue (h.value x)
  | call f args s => exact .call s (h.value f) (h.values args)
  | throw k x s => exact .withCont h k _ fun k l pair => .throw s pair (h.value x)
  | consume k s => exact .withCont h k _ fun k l pair => .consume s pair
  | discard k s => exact .withCont h k _ fun k l pair => .discard s pair
  | check k s => exact .withCont h k _ fun k l pair => .check s pair
  | yield v s => exact .yield s (h.value v)
  | delegate v s => exact .delegate s (h.value v)
  | advance g p s => exact .withGen h g fun g d pair => .advance s pair (h.input p)
  | close g s => exact .withGen h g fun g d pair => .close s pair
  | look v s => exact .look s v

end TurnAlike

/-- Code is run. -/
theorem MemoAlike.run (h : MemoAlike N m m') (s : c.State) (a : Answer) :
    MemoAlike N (Body.run m s a).1 (Body.run m' s a).1 ∧ TurnAlike N (Body.run m s a).2 (Body.run m' s a).2 := by
  obtain ⟨data, known, log⟩ := h
  obtain ⟨D, vs, es⟩ := m
  obtain ⟨D', ws, es'⟩ := m'
  cases data
  cases log
  have after : MemoAlike N (Body.run ⟨D, vs, es⟩ s a).1 (Body.run ⟨D, ws, es⟩ s a).1 := ⟨rfl, known, rfl⟩
  exact ⟨after, .act after _⟩

/-- Code gets a reply. -/
theorem MemoAlike.answered {J : Joint} {r r' : Reply} (h : MemoAlike J.names m m') (once : J.names.Once) (s : c.State)
    (alike : ReplyAlike J r r') : MemoAlike J.names (Body.step m (.code s) r).1 (Body.step m' (.code s) r').1 ∧
      TurnAlike J.names (Body.step m (.code s) r).2 (Body.step m' (.code s) r').2 := by
  obtain ⟨told, same⟩ := h.answer once alike
  rw [Body.step, Body.step, same]
  exact told.run s _

/-- Code looks at an object. -/
theorem MemoAlike.looked (h : MemoAlike N m m') (once : N.Once) (s : c.State) (v : Item) (r r' : Reply) :
    MemoAlike N (Body.step m (.looking s v) r).1 (Body.step m' (.looking s v) r').1 ∧
      TurnAlike N (Body.step m (.looking s v) r).2 (Body.step m' (.looking s v) r').2 := by
  obtain ⟨viewed, same⟩ := h.view once (h.item v)
  rw [Body.step, Body.step, same]
  exact viewed.run s _

/-- A function is called. -/
inductive EntryAlike : OneShot.Entry (Body c) → OneShot.Entry (Body c) → Prop
  | run (s : c.State) : EntryAlike (.run (.code s)) (.run (.code s))
  | spawn (s : c.State) : EntryAlike (.spawn .generator (.code s)) (.spawn .generator (.code s))

theorem MemoAlike.enter (h : MemoAlike N m m') (once : N.Once) (j : Nat) {vs ws : List Val}
    (alike : Forall₂ (Alike N) vs ws) : MemoAlike N (enter m j vs).1 (enter m' j ws).1 ∧
      EntryAlike (enter m j vs).2 (enter m' j ws).2 := by
  obtain ⟨seen, same⟩ := h.seeAll once alike
  unfold Split.enter
  dsimp only
  rw [same]
  generalize m.seeAll vs = p at seen
  generalize (m'.seeAll ws) = q at seen
  obtain ⟨⟨D, vs, es⟩, is⟩ := p
  obtain ⟨⟨D', ws, es'⟩, is'⟩ := q
  obtain ⟨data, known, log⟩ := seen
  cases data
  cases log
  refine ⟨⟨rfl, known, rfl⟩, ?_⟩
  dsimp only
  cases (c.enter D j is').2 with
  | run s => exact .run s
  | spawn s => exact .spawn s

end OneShot.Split
