import OneShot.Proofs.Joined.Guest
import OneShot.Proofs.Settling

/-!
# How the kernel lays out a stack

The kernel spreads a stack over machines.  Each machine has pieces on its stack:
handler frames, and generators.  A generator may have another one run in its
place, which may be a machine again; so a frame holds a chain of generators.
Chains in lower frames are at rest; those on top of the stacks are under way,
from machine to machine up to the code that runs.

The marks of a layout are what is left of it when relays, requests and other
routines that hand on whatever comes are left out.
-/

namespace OneShot.Joined

open Deep (Failure Result)

variable {c : Code}

/-! ## Chains -/

/-- What a generator does that has another one run in its place. -/
inductive Role (c : Code) where
  | code (s : c.State)
  | loop (v : Val)
  /-- The clause of an awaiter. -/
  | clause
  /-- Hands on whatever comes. -/
  | pass

structure Link (c : Code) where
  gen : Gen
  role : Role c

/-- What a suspended generator does. -/
inductive Tip (c : Code) where
  | code (s : c.State)
  | pass
  /-- A machine that has resent its stack. -/
  | relay (m : Nat)

def codeRoutine (s : c.State) : Routine (guest c) := .guest (.waiting s)

def Role.routine : Role c → Routine (guest c)
  | .code s => codeRoutine s
  | .loop v => .library (.state (.stepping v))
  | .clause => .library (.awaitClause .delegating)
  | .pass => .library .passing

namespace Tip

def routine : Tip c → Routine (guest c)
  | .code s => codeRoutine s
  | .pass => .library .passing
  | .relay m => .library (.machine m .resent)

def how : Tip c → Suspension
  | .relay _ => .inner
  | _ => .direct

/-- What a tip rests on besides its generator. -/
def facts : Tip c → Facts (guest c)
  | .relay m => {.machine m []}
  | _ => 0

end Tip

def Link.hop (l : Link c) : Hop (guest c) := ⟨l.gen, l.role.routine⟩

def hops (links : List (Link c)) : List (Hop (guest c)) := links.map Link.hop

/-! ## Pieces -/

/-- What the frame of a handler is for. -/
inductive Bound where
  | layer (l : Layer)
  | state (n : Nat)
  | await (n : Nat) (blocking : Bool)
  | prompt (n : Nat)

def Bound.handler : Bound → Handler
  | .layer l => l.handler
  | .state n => (stateEffect n).handler
  | .await n true => (awaiter n).blocking
  | .await n false => (awaiter n).async
  | .prompt n => (Joined.prompt n).handler

inductive Piece (c : Code) where
  | bound (b : Bound) (t : Tag)
  | gens (d : Gen) (tip : Tip c) (links : List (Link c)) (t : Tag)

abbrev genFrame (g : Gen) (t : Tag) : Val := .frame (.generator (.gen g) t)

abbrev boundFrame (b : Bound) (t : Tag) : Val := .frame (.handler (.handler b.handler) t)

namespace Piece

def val : Piece c → Val
  | .bound b t => boundFrame b t
  | .gens d _ links t => genFrame (bottom d (hops links)) t

def facts : Piece c → Facts (guest c)
  | .bound _ _ => 0
  | .gens d tip links _ =>
      {.gen d.id (.suspended tip.routine tip.how)} + (tip.facts + restingHops d (hops links))

end Piece

def vals (ps : List (Piece c)) : List Val := ps.map Piece.val

def facts : List (Piece c) → Facts (guest c)
  | [] => 0
  | p :: ps => p.facts + facts ps

@[simp] theorem facts_append (ps qs : List (Piece c)) : facts (ps ++ qs) = facts ps + facts qs := by
  induction ps with
  | nil => simp [facts]
  | cons p ps ih => rw [List.cons_append, facts, ih, facts, add_assoc]

@[simp] theorem vals_append (ps qs : List (Piece c)) : vals (ps ++ qs) = vals ps ++ vals qs :=
  List.map_append

theorem proper_vals (ps : List (Piece c)) : ∀ v ∈ vals ps, v.Proper := by
  intro v mem
  obtain ⟨p, -, rfl⟩ := List.mem_map.1 mem
  cases p with
  | bound b t => exact .handler _ _
  | gens d tip links t => exact .generator _ _

/-! ## Levels -/

/-- A machine under way, whose topmost frame holds a chain. -/
structure Level (c : Code) where
  links : List (Link c)
  tag : Tag
  gen : Gen
  machine : Nat
  below : List (Piece c)

namespace Level

def acts (L : Level c) (d : Gen) : List (Activation (guest c)) :=
  relayingHops d (hops L.links) ++
    [Machine.activation L.gen L.machine (.advancing (.gen (bottom d (hops L.links))))]

def facts (L : Level c) (d : Gen) : Facts (guest c) :=
  runningHops (hops L.links) + ({.gen L.gen.id .running} +
    ({.machine L.machine (genFrame (bottom d (hops L.links)) L.tag :: vals L.below)} +
      Joined.facts L.below))

end Level

/-- The level where a generator that runs on top of `L` has another one run in its place. -/
def Level.linked (L : Level c) (g : Gen) (role : Role c) : Level c :=
  { L with links := ⟨g, role⟩ :: L.links }

/-- The activations of levels, where `d` is run on top. -/
def acts (d : Gen) : List (Level c) → List (Activation (guest c))
  | [] => []
  | L :: Ls => L.acts d ++ acts L.gen Ls

def levelFacts (d : Gen) : List (Level c) → Facts (guest c)
  | [] => 0
  | L :: Ls => L.facts d + levelFacts L.gen Ls

/-- The generator of the outermost machine. -/
def root (d : Gen) : List (Level c) → Gen
  | [] => d
  | L :: Ls => root L.gen Ls

/-- What waits for the outermost machine, by its generator. -/
abbrev Base (c : Code) := Gen → List (Activation (guest c))

/-- All activations, where `d` is run on top. -/
def under (D : Base c) (d : Gen) (Ls : List (Level c)) : List (Activation (guest c)) :=
  acts d Ls ++ D (root d Ls)

/-! ## Marks -/

inductive Mark (σ : Type) where
  | code (s : σ)
  | loop (v : Val)
  | bound (b : Bound)

def Role.marks : Role c → List (Mark c.State)
  | .code s => [.code s]
  | .loop v => [.loop v]
  | .clause | .pass => []

def Tip.marks : Tip c → List (Mark c.State)
  | .code s => [.code s]
  | _ => []

def linkMarks (links : List (Link c)) : List (Mark c.State) := links.flatMap fun l => l.role.marks

def Piece.marks : Piece c → List (Mark c.State)
  | .bound b _ => [.bound b]
  | .gens _ tip links _ => tip.marks ++ linkMarks links

def pieceMarks (ps : List (Piece c)) : List (Mark c.State) := ps.flatMap Piece.marks

def marks (Ls : List (Level c)) : List (Mark c.State) :=
  Ls.flatMap fun L => linkMarks L.links ++ pieceMarks L.below

def Part.marks {σ : Type} : Part σ → List (Mark σ)
  | .code s => [.code s]
  | .layer l => [.bound (.layer l)]
  | .state _ n v => [.bound (.state n), .loop v]
  | .await n blocking => [.bound (.await n blocking)]
  | .prompt n => [.bound (.prompt n)]

/-- The marks of a stack. -/
def stackMarks {σ : Type} (fs : List (Part σ)) : List (Mark σ) := fs.flatMap Part.marks

section

variable {l : Link c} {ls : List (Link c)} {p : Piece c} {ps qs : List (Piece c)} {L : Level c}
  {Ls : List (Level c)} {f : Part c.State} {fs gs : List (Part c.State)}

@[simp] theorem linkMarks_nil : linkMarks ([] : List (Link c)) = [] := rfl

@[simp] theorem linkMarks_cons : linkMarks (l :: ls) = l.role.marks ++ linkMarks ls :=
  List.flatMap_cons

@[simp] theorem pieceMarks_nil : pieceMarks ([] : List (Piece c)) = [] := rfl

@[simp] theorem pieceMarks_cons : pieceMarks (p :: ps) = p.marks ++ pieceMarks ps :=
  List.flatMap_cons

@[simp] theorem pieceMarks_append : pieceMarks (ps ++ qs) = pieceMarks ps ++ pieceMarks qs :=
  List.flatMap_append

@[simp] theorem marks_nil : marks ([] : List (Level c)) = [] := rfl

@[simp] theorem marks_cons :
    marks (L :: Ls) = linkMarks L.links ++ pieceMarks L.below ++ marks Ls :=
  List.flatMap_cons

@[simp] theorem stackMarks_nil : stackMarks ([] : List (Part c.State)) = [] := rfl

@[simp] theorem stackMarks_cons : stackMarks (f :: fs) = f.marks ++ stackMarks fs :=
  List.flatMap_cons

@[simp] theorem stackMarks_append : stackMarks (fs ++ gs) = stackMarks fs ++ stackMarks gs :=
  List.flatMap_append

end

theorem marks_linked (L : Level c) (g : Gen) (role : Role c) (Ls : List (Level c)) :
    marks (L.linked g role :: Ls) = role.marks ++ marks (L :: Ls) := by
  simp [Level.linked]

/-! ## Slices that code can resume -/

/-- A piece where code waits, for what it has yielded or what another generator has for it. -/
inductive Piece.Waits : Piece c → c.State → Prop
  | code (d : Gen) (s : c.State) (links : List (Link c)) (t : Tag) :
      Waits (.gens d (.code s) links t) s
  | pass (e d : Gen) (s : c.State) (links : List (Link c)) (t : Tag) :
      Waits (.gens e .pass (⟨d, .code s⟩ :: links) t) s

/-- What a continuation that code has a number for is to the kernel. -/
inductive Entry (c : Code) where
  | pending (k : Cont) (p : Piece c) (below : List (Piece c))
  | taken (k : Cont) (frames : List Val)

namespace Entry

def cont : Entry c → Cont
  | .pending k .. | .taken k _ => k

def facts : Entry c → Facts (guest c)
  | .pending k p below =>
      {.cont k.index (vals (p :: below)) false} + Joined.facts (p :: below)
  | .taken k frames => {.cont k.index frames true}

/-- The slice that a program has for a continuation. -/
inductive Shows : Entry c → Option (Slice c.State) → Prop
  | pending {k : Cont} {p : Piece c} {s : c.State} {below : List (Piece c)} {fs : List (Part c.State)}
      (waits : p.Waits s) (same : pieceMarks (p :: below) = .code s :: stackMarks fs) :
      Shows (.pending k p below) (some (s, fs))
  | taken (k : Cont) (frames : List Val) : Shows (.taken k frames) none

end Entry

def entryFacts : List (Entry c) → Facts (guest c)
  | [] => 0
  | e :: es => e.facts + entryFacts es

@[simp] theorem entryFacts_append (es es' : List (Entry c)) :
    entryFacts (es ++ es') = entryFacts es + entryFacts es' := by
  induction es with
  | nil => simp [entryFacts]
  | cons e es ih => rw [List.cons_append, entryFacts, ih, entryFacts, add_assoc]

end OneShot.Joined
