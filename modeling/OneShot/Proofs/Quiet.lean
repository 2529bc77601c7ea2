import OneShot.Operation
import OneShot.EventLoop

/-!
# Quiet changes

The engine keeps the continuations and the machines of a store.  A change is
*quiet* if it leaves both alone, and takes no number back that was given out.
Quiet changes are closed under sequencing, so that each operation is seen to be
quiet from its parts.  All operations that answer at once are quiet, except the
one that takes a continuation.
-/

namespace OneShot

namespace Store

/-- What the engine itself keeps: the continuations and the machines, under the settings of the run. -/
def engine (s : Store) : Array ContRecord × Array MachineRecord × Settings := (s.conts, s.machines, s.settings)

theorem conts_of_engine {s t : Store} (h : t.engine = s.engine) : t.conts = s.conts :=
  congrArg Prod.fst h

theorem machines_of_engine {s t : Store} (h : t.engine = s.engine) :
    t.machines = s.machines :=
  congrArg (·.2.1) h

theorem settings_of_engine {s t : Store} (h : t.engine = s.engine) : t.settings = s.settings :=
  congrArg (·.2.2) h

@[simp] theorem engine_emit (s : Store) (e : Event) : (s.emit e).engine = s.engine := rfl

@[simp] theorem engine_note (s : Store) (source : Source) (text : Unit → String) :
    (s.note source text).engine = s.engine := by
  unfold note
  split <;> rfl

@[simp] theorem engine_newException (s : Store) (kind : Kind) (args : List Val)
    (detail : Detail) : (s.newException kind args detail).1.engine = s.engine := rfl

@[simp] theorem engine_fault (s : Store) (f : Fault) : (s.fault f).1.engine = s.engine := rfl

@[simp] theorem engine_doubleResumeError (s : Store) (v : Val) :
    (s.doubleResumeError v).1.engine = s.engine := rfl

@[simp] theorem engine_invalidInvocationError (s : Store) (v hint : Val) :
    (s.invalidInvocationError v hint).1.engine = s.engine := rfl

@[simp] theorem engine_freshId (s : Store) : s.freshId.1.engine = s.engine := rfl

@[simp] theorem engine_freshTag (s : Store) : s.freshTag.1.engine = s.engine := rfl

@[simp] theorem engine_newList (s : Store) (vs : Array Val) :
    (s.newList vs).1.engine = s.engine := rfl

@[simp] theorem engine_newTable (s : Store) (es : List (Val × Val)) :
    (s.newTable es).1.engine = s.engine := rfl

@[simp] theorem engine_invocation (s : Store) (e : Effect) (args : List Val) (c : Caller) :
    (e.invocation s args c).1.engine = s.engine := by
  unfold Effect.invocation
  cases s.settings.debug <;> rfl

/-- From `s` to `t` the engine is left alone, and numbers are only given out. -/
structure Quietly (s t : Store) : Prop where
  engine : t.engine = s.engine
  numbers : s.nextId ≤ t.nextId

namespace Quietly

theorem same {s t : Store} (engine : t.engine = s.engine) (numbers : t.nextId = s.nextId) :
    Quietly s t :=
  ⟨engine, Nat.le_of_eq numbers.symm⟩

theorem next {s t : Store} (engine : t.engine = s.engine) (numbers : t.nextId = s.nextId + 1) :
    Quietly s t :=
  ⟨engine, by omega⟩

theorem refl (s : Store) : Quietly s s := .same rfl rfl

theorem trans {s t u : Store} (first : Quietly s t) (second : Quietly t u) : Quietly s u :=
  ⟨second.engine.trans first.engine, Nat.le_trans first.numbers second.numbers⟩

theorem note (s : Store) (source : Source) (text : Unit → String) :
    Quietly s (s.note source text) := by
  unfold Store.note
  split <;> exact .same rfl rfl

theorem newException (s : Store) (kind : Kind) (args : List Val) (detail : Detail) :
    Quietly s (s.newException kind args detail).1 :=
  .next rfl rfl

theorem freshId (s : Store) : Quietly s s.freshId.1 := .next rfl rfl

theorem newTable (s : Store) (es : List (Val × Val)) : Quietly s (s.newTable es).1 :=
  .same rfl rfl

theorem invocation (s : Store) (e : Effect) (args : List Val) (c : Caller) :
    Quietly s (e.invocation s args c).1 := by
  refine ⟨engine_invocation s e args c, ?_⟩
  unfold Effect.invocation
  cases s.settings.debug with
  | true => exact Nat.le_add_right s.nextId 3
  | false => exact Nat.le_add_right s.nextId 2

end Quietly

end Store

namespace Change

variable {α β : Type}

@[simp] theorem run_pure (x : α) (s : Store) : (Pure.pure x : Change α).run s = (.ok x, s) := rfl

@[simp] theorem run_throw (x : Exc) (s : Store) : (throw x : Change α).run s = (.error x, s) :=
  rfl

@[simp] theorem run_make (f : Store → Store × α) (s : Store) :
    (make f).run s = (.ok (f s).2, (f s).1) := rfl

theorem run_bind (a : Change α) (f : α → Change β) (s : Store) :
    (a >>= f).run s = match a.run s with
      | (.ok x, t) => (f x).run t
      | (.error e, t) => (.error e, t) := by
  change (ExceptT.bindCont f (a.run s).1).run (a.run s).2 = _
  rcases a.run s with ⟨_ | _, t⟩ <;> rfl

/-- A change that leaves the engine alone, whatever it comes to. -/
def Quiet (a : Change α) : Prop := ∀ s, Store.Quietly s (a.run s).2

namespace Quiet

theorem pure (x : α) : (Pure.pure x : Change α).Quiet := .refl

theorem throw (x : Exc) : (MonadExcept.throw x : Change α).Quiet := .refl

theorem fail (f : Fault) : (Change.fail f : Change α).Quiet :=
  fun _ => Store.Quietly.next rfl rfl

theorem raise (kind : Kind) (args : List Val) : (Change.raise kind args : Change α).Quiet :=
  fun _ => Store.Quietly.next rfl rfl

theorem ask (f : Store → α) : (Change.ask f).Quiet := .refl

theorem get : (MonadState.get : Change Store).Quiet := .refl

theorem make {f : Store → Store × α} (h : ∀ s, Store.Quietly s (f s).1) :
    (Change.make f).Quiet := h

theorem update {f : Store → Store} (h : ∀ s, Store.Quietly s (f s)) :
    (modify f : Change PUnit).Quiet := h

theorem bind {a : Change α} {f : α → Change β} (first : a.Quiet)
    (second : ∀ x, (f x).Quiet) : (a >>= f).Quiet := by
  intro s
  have kept := first s
  rw [run_bind]
  cases h : a.run s with
  | mk result t =>
      rw [h] at kept
      cases result with
      | ok x => exact kept.trans (second x t)
      | error e => exact kept

theorem map {a : Change α} (f : α → β) (h : a.Quiet) : (f <$> a).Quiet :=
  h.bind fun x => .pure (f x)

theorem mapM {f : α → Change β} (h : ∀ x, (f x).Quiet) (xs : List α) :
    (xs.mapM f).Quiet := by
  induction xs with
  | nil => exact .pure []
  | cons x xs ih =>
      rw [List.mapM_cons]
      exact (h x).bind fun y => ih.bind fun ys => .pure (y :: ys)

theorem isFalse (v : Val) : (Change.isFalse v).Quiet := .ask _

theorem list (vs : List Val) : (Change.list vs).Quiet := .make fun _ => .same rfl rfl

end Quiet
end Change

open Change (Quiet)

/-! ## Plain data -/

namespace Data

theorem quiet_add (args : List Val) : (add args).Quiet := by
  unfold add
  split
  · exact .pure _
  · exact .pure _
  · exact .make fun _ => .same rfl rfl
  · exact .fail _

theorem quiet_arithmetic (sign : String) {f : Int → Int → Change Val}
    (h : ∀ a b, (f a b).Quiet) (args : List Val) : (arithmetic sign f args).Quiet := by
  unfold arithmetic
  split
  · exact h _ _
  · exact .fail _

theorem quiet_index (refused : Fault) (i : Val) : (index refused i).Quiet := by
  unfold index
  split
  · split
    · exact .pure _
    · exact .fail _
  · exact .fail _

theorem quiet_listPlace (l : Nat) (i : Val) (outside : Fault) :
    (listPlace l i outside).Quiet :=
  (quiet_index _ _).bind fun _ => (Quiet.ask _).bind fun _ => by
    split
    · exact .pure _
    · exact .fail _

theorem quiet_hashed (v : Val) : (hashed v).Quiet := by
  unfold hashed
  split
  · exact .fail _
  · exact .pure _

theorem quiet_item (v i : Val) : (item v i).Quiet := by
  unfold item
  split
  · exact (quiet_listPlace _ _ _).bind fun _ => .ask _
  · refine (quiet_index _ _).bind fun _ => ?_
    split
    · exact .pure _
    · exact .fail _
  · refine (quiet_hashed _).bind fun _ => (Quiet.ask _).bind fun _ => ?_
    split
    · exact .pure _
    · exact .raise _ _
  · exact .fail _

theorem quiet_nth (args : List Val) : (nth args).Quiet := by
  unfold nth
  split
  · exact quiet_item _ _
  · exact .fail _

theorem quiet_length (args : List Val) : (length args).Quiet := by
  unfold length
  split
  · exact (Quiet.ask _).bind fun _ => .pure _
  · exact (Quiet.ask _).bind fun _ => .pure _
  · exact .pure _
  · exact .fail _
  · exact .fail _

theorem quiet_setList (l : Nat) (f : Array Val → Array Val) : (setList l f).Quiet := by
  unfold setList
  refine Quiet.bind (Quiet.update ?_) fun _ => .pure Val.none
  exact fun _ => .same rfl rfl

theorem quiet_push (args : List Val) : (push args).Quiet := by
  unfold push
  split
  · exact quiet_setList _ _
  · exact .fail _
  · exact .fail _

theorem quiet_cellGet (args : List Val) : (cellGet args).Quiet := by
  unfold cellGet
  split
  · exact .ask _
  · exact .fail _
  · exact .fail _

theorem quiet_cellPut (args : List Val) : (cellPut args).Quiet := by
  unfold cellPut
  split
  · refine Quiet.bind (Quiet.update ?_) fun _ => .pure Val.none
    exact fun _ => .same rfl rfl
  · exact .fail _
  · exact .fail _

theorem quiet_entries (acc : List (Val × Val)) (args : List Val) :
    (entries acc args).Quiet := by
  fun_induction entries acc args with
  | case1 acc k v rest ih =>
      exact (quiet_hashed k).bind fun k => Quiet.get.bind fun s => ih k s
  | case2 => exact .pure _

theorem quiet_setTable (t : Nat) (f : Store → List (Val × Val) → List (Val × Val)) :
    (setTable t f).Quiet := by
  unfold setTable
  refine Quiet.bind (Quiet.update ?_) fun _ => .pure Val.none
  exact fun _ => .same rfl rfl

theorem quiet_tableSet (args : List Val) : (tableSet args).Quiet := by
  unfold tableSet
  split
  · exact (quiet_hashed _).bind fun _ => quiet_setTable _ _
  · exact (quiet_listPlace _ _ _).bind fun _ => quiet_setList _ _
  · exact .fail _
  · exact .fail _

theorem quiet_tableDelete (args : List Val) : (tableDelete args).Quiet := by
  unfold tableDelete
  split
  · refine (Quiet.ask _).bind fun _ => ?_
    split
    · exact .pure _
    · exact (quiet_hashed _).bind fun _ => quiet_setTable _ _
  · exact .fail _
  · exact .fail _
  · exact .fail _

end Data

/-! ## Handlers, errors and records -/

theorem Handler.quiet_clauseKey (v : Val) : (clauseKey v).Quiet := by
  unfold clauseKey
  split
  · exact .pure _
  · exact .fail _

theorem Handler.quiet_clausesOf (v : Val) : (clausesOf v).Quiet := by
  unfold clausesOf
  split
  · exact (Quiet.ask _).bind fun _ =>
      .mapM (fun _ => (quiet_clauseKey _).bind fun _ => .pure _) _
  · refine (Quiet.ask _).bind fun _ => (Quiet.mapM quiet_clauseKey _).bind fun _ => ?_
    split
    · exact .pure _
    · exact .fail _
  · refine (Quiet.mapM (fun _ => quiet_clauseKey _) _).bind fun _ => ?_
    split
    · exact .pure _
    · exact .fail _
  · exact .fail _

theorem Handler.quiet_make (onReturn table : Val) : (make onReturn table).Quiet :=
  (quiet_clausesOf _).bind fun _ => (Quiet.isFalse _).bind fun _ =>
    (Quiet.make fun _ => .next rfl rfl).bind fun _ => .pure _

theorem quiet_combineWraps (wraps : List Val) : (combineWraps wraps).Quiet := by
  induction wraps with
  | nil => exact .pure _
  | cons head rest ih =>
      exact ih.bind fun _ => (Quiet.make fun _ => .next rfl rfl).bind fun _ => .pure _

theorem quiet_placeText (v : Val) : (placeText v).Quiet := by
  unfold placeText
  split
  · exact .ask _
  · split
    · exact .pure _
    · exact .fail _
    · exact .fail _
    · exact .raise _ _
  · exact .fail _

theorem quiet_uncaughtEffectError (invocation effect context : Val) :
    (uncaughtEffectError invocation effect context).Quiet := by
  unfold uncaughtEffectError
  dsimp only
  split
  · exact (Quiet.pure _).bind fun _ => (Quiet.ask _).bind fun _ => .make fun _ => .next rfl rfl
  · exact (quiet_placeText _).bind fun _ => (Quiet.pure _).bind fun _ =>
      (Quiet.ask _).bind fun _ => .make fun _ => .next rfl rfl

/-! ## Reading and building records -/

namespace Record

theorem quiet_exceptionField? (x : Exc) (name : String) : (exceptionField? x name).Quiet := by
  unfold exceptionField?
  split
  · exact (Quiet.list _).map _
  all_goals try exact .pure _
  · split
    · exact .pure _
    · split <;> exact .pure _

theorem quiet_field? (v : Val) (name : String) : (field? v name).Quiet := by
  unfold field?
  split
  all_goals try with_reducible exact .pure _
  all_goals try with_reducible exact (Quiet.list _).map _
  all_goals try with_reducible exact (Quiet.ask _).bind fun _ => .pure _
  all_goals try with_reducible exact (Quiet.ask _).bind fun _ => (Quiet.list _).map _
  · exact .ask _
  · refine (Quiet.ask _).bind fun _ => ?_
    split
    · exact .pure _
    · exact (Quiet.ask _).bind fun _ => (Quiet.list _).map _
  · exact quiet_exceptionField? _ _
  · split
    · exact (Quiet.make fun _ => .next rfl rfl).bind fun _ => .pure _
    · exact .pure _

theorem quiet_field (v : Val) (name : String) : (field v name).Quiet := by
  unfold field
  refine (quiet_field? _ _).bind fun _ => ?_
  split
  · exact .pure _
  · exact .fail _

theorem quiet_visibleField (v name : Val) : (visibleField v name).Quiet := by
  unfold visibleField
  split
  · refine (quiet_field _ _).bind fun _ => ?_
    split
    · exact (Quiet.ask _).bind fun _ => .list _
    · exact .pure _
  · exact .fail _

theorem quiet_describeFrame (v : Val) : (describeFrame v).Quiet := by
  unfold describeFrame
  split
  · exact (Quiet.ask _).bind fun _ => .list _
  · exact (quiet_field _ _).bind fun _ => (quiet_field _ _).bind fun _ =>
      (quiet_field _ _).bind fun _ => .list _

theorem quiet_describeFrames (k : Cont) : (describeFrames k).Quiet :=
  (Quiet.ask _).bind fun _ => (Quiet.mapM quiet_describeFrame _).bind fun _ => .list _

theorem quiet_exception (k : Kind) (args : List Val) : (exception k args).Quiet := by
  unfold exception
  split
  · exact .fail _
  · split
    · exact (Quiet.make fun _ => .next rfl rfl).bind fun _ => .pure _
    · exact (Quiet.make fun _ => .next rfl rfl).bind fun _ => .pure _
    · exact (Quiet.make fun _ => .next rfl rfl).bind fun _ => .pure _
    · exact (quiet_field _ _).bind fun _ => (quiet_field _ _).bind fun _ =>
        (quiet_uncaughtEffectError _ _ _).bind fun _ => .pure _
    · exact (Quiet.make fun _ => .next rfl rfl).bind fun _ => .pure _

theorem quiet_tag (args : List Val) : (tag args).Quiet := by
  unfold tag
  split <;> exact .make fun _ => .next rfl rfl

theorem quiet_invocation (r : RecordKind) (effect : Val) (args rest : List Val) :
    (invocation r effect args rest).Quiet := by
  unfold invocation
  split
  · exact .fail _
  · refine (Quiet.make fun _ => .next rfl rfl).bind fun _ => ?_
    split <;> exact (Quiet.make fun _ => .next rfl rfl).bind fun _ => .pure _

theorem quiet_build {r : RecordKind} (h : r ≠ .machine) (args : List Val) :
    (build r args).Quiet := by
  unfold build
  split
  · exact .fail _
  · split
    · exact quiet_invocation _ _ _ _
    · exact (Quiet.make fun _ => .next rfl rfl).bind fun _ => .pure _
    · exact (Quiet.make fun _ => .next rfl rfl).bind fun _ => .pure _
    · exact (Quiet.make fun _ => .next rfl rfl).bind fun _ => .pure _
    · exact absurd rfl h
    · exact (quiet_tag _).bind fun _ => .pure _
    · exact (quiet_tag _).bind fun _ => .pure _
    · exact .fail _

end Record

/-! ## Sites and operations -/

theorem Site.quiet_siteContext (site : Val) : (siteContext site).Quiet := by
  unfold siteContext
  split
  · refine (Quiet.ask _).bind fun _ => ?_
    split
    · exact .make fun _ => .next rfl rfl
    · exact .pure _
  · exact .pure _

/-- The part of a capture that follows the check of the depth. -/
theorem Site.quiet_found (n : Int) (sites : Val) : (match sites with
    | .list l =>
      if n ≤ 0 then Change.make (callerContext .capture)
      else do
        match (← Change.ask (·.list l))[n.toNat - 1]? with
        | some site => siteContext site
        | none => return .none
    | v => Change.fail (.notIterable v.typeName) : Change Val).Quiet := by
  split
  · split
    · exact .make fun _ => .next rfl rfl
    · refine (Quiet.ask _).bind fun _ => ?_
      split
      · exact quiet_siteContext _
      · exact .pure _
  · exact .fail _

theorem Site.quiet_capture (skip sites : Val) : (capture skip sites).Quiet := by
  have found (n : Int) := quiet_found n sites
  unfold capture
  dsimp only
  split
  · refine (Quiet.pure _).bind fun n => ?_
    split
    · exact (Quiet.fail _).bind fun _ => found n
    · exact found n
  · refine (Quiet.pure _).bind fun n => ?_
    split
    · exact (Quiet.fail _).bind fun _ => found n
    · exact found n
  · refine (Quiet.fail _).bind fun n => ?_
    split
    · exact (Quiet.fail _).bind fun _ => found n
    · exact found n

theorem Site.quiet_flag (v : Val) : (flag v).Quiet := by
  unfold flag
  split
  · exact .pure _
  · split
    · exact .fail _
    · exact .pure _
  · exact .fail _

/-- Every operation leaves the engine alone, except the one that takes a continuation. -/
theorem Op.quiet_apply {o : Op} (h : o ≠ .markConsumed) (args : List Val) :
    (o.apply args).Quiet := by
  unfold Op.apply
  split
  all_goals try with_reducible exact .fail _
  all_goals try with_reducible exact .pure _
  all_goals try with_reducible exact (Quiet.ask _).bind fun _ => .pure _
  · exact Data.quiet_add _
  · exact Data.quiet_arithmetic _ (fun _ _ => .pure _) _
  · exact Data.quiet_arithmetic _ (fun _ _ => .pure _) _
  · refine Data.quiet_arithmetic _ (fun _ _ => ?_) _
    split
    · exact .fail _
    · exact .pure _
  · exact Data.quiet_arithmetic _ (fun _ _ => .pure _) _
  · exact (Quiet.isFalse _).bind fun _ => .pure _
  · exact (Quiet.isFalse _).bind fun _ => .pure _
  · exact .list _
  · exact Data.quiet_nth _
  · exact Data.quiet_length _
  · exact Data.quiet_push _
  · exact .make fun _ => .same rfl rfl
  · exact Data.quiet_cellGet _
  · exact Data.quiet_cellPut _
  · exact (Data.quiet_entries _ _).bind fun _ => .make fun _ => .same rfl rfl
  · exact Data.quiet_tableSet _
  · exact Data.quiet_tableDelete _
  · refine Quiet.bind (Quiet.update ?_) fun _ => .pure Val.none
    exact fun _ => .same rfl rfl
  · exact Record.quiet_exception _ _
  · exact Record.quiet_visibleField _ _
  · exact (Quiet.make fun _ => .same rfl rfl).bind fun _ => .pure _
  · exact (Data.quiet_hashed _).bind fun _ => (Quiet.make fun _ => .same rfl rfl).bind fun _ =>
      Handler.quiet_make _ _
  · exact quiet_combineWraps _
  · exact (Quiet.make fun _ => .next rfl rfl).bind fun _ => .pure _
  · exact (Quiet.make fun _ => .next rfl rfl).bind fun _ => .pure _
  · refine Quiet.bind (Quiet.make ?_) fun _ => .pure _
    exact fun s => ⟨rfl, Nat.le_add_right s.nextId 2⟩
  · exact (quiet_placeText _).bind fun _ => .pure _
  · exact Record.quiet_describeFrames _
  · exact absurd rfl h
  · exact Site.quiet_capture _ _
  · exact Site.quiet_flag _

end OneShot
