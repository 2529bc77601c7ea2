import OneShot.Proofs.Deep.Program
import OneShot.Proofs.Locations
import Mathlib.Data.List.Nodup

/-!
# Nests of machines

How the kernel holds a computation under handlers: machines run each other, each
by a generator frame on top of its stack.  Relays, machines whose stack was
captured and moved elsewhere, may stand anywhere between the frames.  The
relations below read the scopes off the stacks; each lists the places of the
world that it rests on.
-/

namespace OneShot.Deep

variable {c : Code} {layers : List Layer} {s₀ : c.Plain}

/-- What an outcome passes on its way out. -/
inductive Scope (c : Code) where
  | handle (l : Layer)
  | bind (s : c.Plain)

/-- A computation inside of scopes, innermost first. -/
def plug (p : Prog c) : List (Scope c) → Prog c
  | [] => p
  | .handle l :: fs => plug (.handle l p) fs
  | .bind s :: fs => plug (.bind p s) fs

theorem plug_append (p : Prog c) (fs gs : List (Scope c)) :
    plug p (fs ++ gs) = plug (plug p fs) gs := by
  induction fs generalizing p with
  | nil => rfl
  | cons f fs ih => cases f <;> exact ih _

/-! ## Pieces of a configuration -/

section Pieces

def code (q : State c) : Routine (guest c layers s₀) := .guest (.waiting q)

def passing : Routine (guest c layers s₀) := .library .passing

/-- A machine that has resent its stack. -/
def relay (m : Nat) : Routine (guest c layers s₀) := .library (.machine m .resent)

/-- A machine that waits for the generator on top of its stack. -/
def advancing (m : Nat) (g : Gen) : Routine (guest c layers s₀) :=
  .library (.machine m (.advancing (.gen g)))

def executing (g : Gen) : Activation (guest c layers s₀) :=
  .calling (.library (.execute (.running g)))

def genFrame (g : Gen) (t : Tag) : Val := .frame (.generator (.gen g) t)

def layerFrame (l : Layer) (t : Tag) : Val := .frame (.handler (.handler l.handler) t)

end Pieces

/-! ## Relations -/

/-- The scopes of the frames below the topmost one. -/
inductive Frames (w : World (guest c layers s₀)) :
    List Val → List (Scope c) → List Loc → Prop
  | nil : Frames w [] [] []
  | handle {l : Layer} {t : Tag} {vals : List Val} {fs : List (Scope c)} {foot : List Loc}
      (rest : Frames w vals fs foot) :
      Frames w (layerFrame l t :: vals) (.handle l :: fs) foot
  /-- A clause that has resumed its continuation. -/
  | bind {g d : Gen} {s : c.Plain} {t : Tag} {vals : List Val} {fs : List (Scope c)}
      {foot : List Loc} (clause : w.gens[g.id]? = some (.delegating (code (.plain s)) d))
      (request : w.gens[d.id]? = some (.suspended passing .direct))
      (rest : Frames w vals fs foot) :
      Frames w (genFrame g t :: vals) (.bind s :: fs) (.gen g.id :: .gen d.id :: foot)
  /-- The request of a clause that passes the resumption on. -/
  | pass {g : Gen} {t : Tag} {vals : List Val} {fs : List (Scope c)} {foot : List Loc}
      (request : w.gens[g.id]? = some (.suspended passing .direct))
      (rest : Frames w vals fs foot) : Frames w (genFrame g t :: vals) fs (.gen g.id :: foot)
  | relay {g : Gen} {m : Nat} {owner : Val} {t : Tag} {vals : List Val} {fs : List (Scope c)}
      {foot : List Loc} (resent : w.gens[g.id]? = some (.suspended (relay m) .inner))
      (spent : w.store.machines[m]? = some ⟨.own [], owner⟩) (rest : Frames w vals fs foot) :
      Frames w (genFrame g t :: vals) fs (.gen g.id :: .machine m :: foot)

/--
What a suspended computation does with a reply.  The slice of the continuation
that a clause holds begins with a suspended computation in its turn.
-/
inductive Standing (w : World (guest c layers s₀)) :
    State c → (Answer → Prog c) → List Loc → Prop
  | plain (s : c.Plain) : Standing w (.plain s) (fun b => .plain s b) []
  | holding {s : c.Holding} {k : Cont} {g : Gen} {t : Tag} {vals : List Val}
      {inner : Option Val} {q : State c} {K : Answer → Prog c} {fs : List (Scope c)}
      {foot foot' : List Loc}
      (slice : w.store.conts[k.index]? = some ⟨genFrame g t :: vals, inner, false⟩)
      (top : w.gens[g.id]? = some (.suspended (code q) .direct))
      (standing : Standing w q K foot) (below : Frames w vals fs foot') :
      Standing w (.holding s k) (fun b => .holding s b fun b => plug (K b) fs)
        (.cont k.index :: .gen g.id :: (foot ++ foot'))

/-- The scopes outside of a running machine: the machines that wait for it. -/
inductive Nest (w : World (guest c layers s₀)) :
    Gen → List (Activation (guest c layers s₀)) → List (Scope c) → List Loc → Prop
  | top (g : Gen) : Nest w g [executing g] [] []
  | inner {g gm : Gen} {m : Nat} {t : Tag} {vals : List Val} {owner : Val}
      {fs fs' : List (Scope c)} {foot foot' : List Loc}
      {acts : List (Activation (guest c layers s₀))}
      (running : w.gens[gm.id]? = some .running)
      (stack : w.store.machines[m]? = some ⟨.own (genFrame g t :: vals), owner⟩)
      (frames : Frames w vals fs foot) (nest : Nest w gm acts fs' foot') :
      Nest w g (.running gm (advancing m g) :: acts) (fs ++ fs')
        (.gen gm.id :: .machine m :: (foot ++ foot'))

/-- A machine on top of the others, and what is on its stack above some scopes. -/
inductive Stage (w : World (guest c layers s₀)) (gm : Gen) (m : Nat) (above : List Val) :
    List (Activation (guest c layers s₀)) → List (Scope c) → List Loc → Prop
  | mk {vals : List Val} {owner : Val} {fs fs' : List (Scope c)} {foot foot' : List Loc}
      {acts : List (Activation (guest c layers s₀))}
      (running : w.gens[gm.id]? = some .running)
      (stack : w.store.machines[m]? = some ⟨.own (above ++ vals), owner⟩)
      (frames : Frames w vals fs foot) (nest : Nest w gm acts fs' foot') :
      Stage w gm m above acts (fs ++ fs') (.gen gm.id :: .machine m :: (foot ++ foot'))

/-! ## Frame conditions -/

section Keeping

variable {w w' : World (guest c layers s₀)} {places : List Loc}

theorem gen_kept (changes : w.Changes w' places) {g : Nat} {t : Status (guest c layers s₀)}
    (h : w.gens[g]? = some t) (out : Loc.gen g ∉ places) : w'.gens[g]? = some t :=
  (changes (.gen g) (World.has_gen h) out).1.trans h

theorem machine_kept (changes : w.Changes w' places) {m : Nat} {r : MachineRecord}
    (h : w.store.machines[m]? = some r) (out : Loc.machine m ∉ places) :
    w'.store.machines[m]? = some r :=
  (changes (.machine m) (World.has_machine h) out).1.trans h

theorem cont_kept (changes : w.Changes w' places) {k : Nat} {r : ContRecord}
    (h : w.store.conts[k]? = some r) (out : Loc.cont k ∉ places) :
    w'.store.conts[k]? = some r :=
  (changes (.cont k) (World.has_cont h) out).1.trans h

theorem Frames.has {vals : List Val} {fs : List (Scope c)} {foot : List Loc}
    (h : Frames w vals fs foot) : ∀ l ∈ foot, w.Has l := by
  induction h with
  | nil => simp
  | handle rest ih => exact ih
  | bind clause request rest ih =>
      simp only [List.forall_mem_cons]
      exact ⟨World.has_gen clause, World.has_gen request, ih⟩
  | pass request rest ih =>
      simp only [List.forall_mem_cons]
      exact ⟨World.has_gen request, ih⟩
  | relay resent spent rest ih =>
      simp only [List.forall_mem_cons]
      exact ⟨World.has_gen resent, World.has_machine spent, ih⟩

theorem Frames.keep {vals : List Val} {fs : List (Scope c)} {foot : List Loc}
    (h : Frames w vals fs foot) (changes : w.Changes w' places) (out : foot.Disjoint places) :
    Frames w' vals fs foot := by
  induction h with
  | nil => exact .nil
  | handle rest ih => exact .handle (ih out)
  | bind clause request rest ih =>
      simp only [List.disjoint_cons_left] at out
      exact .bind (gen_kept changes clause out.1) (gen_kept changes request out.2.1) (ih out.2.2)
  | pass request rest ih =>
      simp only [List.disjoint_cons_left] at out
      exact .pass (gen_kept changes request out.1) (ih out.2)
  | relay resent spent rest ih =>
      simp only [List.disjoint_cons_left] at out
      exact .relay (gen_kept changes resent out.1) (machine_kept changes spent out.2.1)
        (ih out.2.2)

theorem Frames.append {vals vals' : List Val} {fs fs' : List (Scope c)} {foot foot' : List Loc}
    (above : Frames w vals fs foot) (below : Frames w vals' fs' foot') :
    Frames w (vals ++ vals') (fs ++ fs') (foot ++ foot') := by
  induction above with
  | nil => exact below
  | handle rest ih => exact .handle ih
  | bind clause request rest ih => exact .bind clause request ih
  | pass request rest ih => exact .pass request ih
  | relay resent spent rest ih => exact .relay resent spent ih

theorem Standing.has {q : State c} {K : Answer → Prog c} {foot : List Loc}
    (h : Standing w q K foot) : ∀ l ∈ foot, w.Has l := by
  induction h with
  | plain s => simp
  | holding slice top standing below ih =>
      simp only [List.forall_mem_cons, List.forall_mem_append]
      exact ⟨World.has_cont slice, World.has_gen top, ih, below.has⟩

theorem Standing.keep {q : State c} {K : Answer → Prog c} {foot : List Loc}
    (h : Standing w q K foot) (changes : w.Changes w' places) (out : foot.Disjoint places) :
    Standing w' q K foot := by
  induction h with
  | plain s => exact .plain s
  | holding slice top standing below ih =>
      simp only [List.disjoint_cons_left, List.disjoint_append_left] at out
      exact .holding (cont_kept changes slice out.1) (gen_kept changes top out.2.1)
        (ih out.2.2.1) (below.keep changes out.2.2.2)

theorem Nest.has {g : Gen} {acts : List (Activation (guest c layers s₀))}
    {fs : List (Scope c)} {foot : List Loc} (h : Nest w g acts fs foot) :
    ∀ l ∈ foot, w.Has l := by
  induction h with
  | top g => simp
  | inner running stack frames nest ih =>
      simp only [List.forall_mem_cons, List.forall_mem_append]
      exact ⟨World.has_gen running, World.has_machine stack, frames.has, ih⟩

theorem Nest.keep {g : Gen} {acts : List (Activation (guest c layers s₀))}
    {fs : List (Scope c)} {foot : List Loc} (h : Nest w g acts fs foot)
    (changes : w.Changes w' places) (out : foot.Disjoint places) : Nest w' g acts fs foot := by
  induction h with
  | top g => exact .top g
  | inner running stack frames nest ih =>
      simp only [List.disjoint_cons_left, List.disjoint_append_left] at out
      exact .inner (gen_kept changes running out.1) (machine_kept changes stack out.2.1)
        (frames.keep changes out.2.2.1) (ih out.2.2.2)

theorem Stage.has {gm : Gen} {m : Nat} {above : List Val}
    {acts : List (Activation (guest c layers s₀))} {fs : List (Scope c)} {foot : List Loc}
    (h : Stage w gm m above acts fs foot) : ∀ l ∈ foot, w.Has l := by
  cases h with
  | mk running stack frames nest =>
      simp only [List.forall_mem_cons, List.forall_mem_append]
      exact ⟨World.has_gen running, World.has_machine stack, frames.has, nest.has⟩

theorem Stage.keep {gm : Gen} {m : Nat} {above : List Val}
    {acts : List (Activation (guest c layers s₀))} {fs : List (Scope c)} {foot : List Loc}
    (h : Stage w gm m above acts fs foot) (changes : w.Changes w' places)
    (out : foot.Disjoint places) : Stage w' gm m above acts fs foot := by
  cases h with
  | mk running stack frames nest =>
      simp only [List.disjoint_cons_left, List.disjoint_append_left] at out
      exact .mk (gen_kept changes running out.1) (machine_kept changes stack out.2.1)
        (frames.keep changes out.2.2.1) (nest.keep changes out.2.2.2)

end Keeping

end OneShot.Deep
