import OneShot.Store

/-!
# Equality

`same` is identity.  `equal` compares plain data and lists by content, the
records of the engine field by field, and all else by identity.  A key of a
table must be hashable: it may hold no list and no table.
-/

namespace OneShot

namespace Native

def same : Native → Native → Bool
  | .op a, .op b => a == b
  | .service a, .service b => a == b
  | .identity, .identity | .identityWrap, .identityWrap | .onAwaitAsync, .onAwaitAsync
  | .onAwaitBlocking, .onAwaitBlocking | .applyBody, .applyBody => true
  | .combined a _ _, .combined b _ _ => a == b
  | .applied a _ _, .applied b _ _ => a == b
  | .awaiting a _, .awaiting b _ => a == b
  | .report a, .report b => a == b
  | .method a .., .method b .. => a == b
  | _, _ => false

end Native

namespace Val

def same : Val → Val → Bool
  | .none, .none => true
  | .bool a, .bool b => a == b
  | .int a, .int b => a == b
  | .str a, .str b => a == b
  | .list a, .list b => a == b
  | .table a, .table b => a == b
  | .cell a, .cell b => a == b
  | .closure a _, .closure b _ => a == b
  | .native a, .native b => a.same b
  | .gen a, .gen b => a == b
  | .cont a, .cont b => a == b
  | .machine a, .machine b => a == b
  | .effect a, .effect b => a.uid == b.uid
  | .handler a, .handler b => a.id == b.id
  | .exc a, .exc b => a.id == b.id
  | .invocation a _, .invocation b _ => a == b
  | .resend a _, .resend b _ => a == b
  | .escape a _, .escape b _ => a == b
  | .resumption a _, .resumption b _ => a == b
  | .context a, .context b => a.id == b.id
  | .frame a, .frame b => a.tag.id == b.tag.id
  | .report a _, .report b _ => a == b
  | .state a, .state b => a.get.uid == b.get.uid
  | .prompt a, .prompt b => a.shift.uid == b.shift.uid
  | .awaiter a, .awaiter b => a.effect.uid == b.effect.uid
  | _, _ => false

end Val

/-- Whether two lists have one length and related elements. -/
def pairwise {α : Type} (related : α → α → Bool) : List α → List α → Bool
  | [], [] => true
  | a :: as, b :: bs => related a b && pairwise related as bs
  | _, _ => false

namespace Store

/-- How deep values may nest for their parts to be compared. -/
def comparisonDepth : Nat := 10000

/-- Equality to a bounded depth.  The numbers of frames do not count. -/
def equalN (s : Store) : Nat → Val → Val → Bool
  | 0, _, _ => false
  | n + 1, v, w =>
    let equal := equalN s n
    v.same w ||
    match v, w with
    | .bool a, .int b | .int b, .bool a => b == if a then 1 else 0
    | .list a, .list b => pairwise equal (s.list a).toList (s.list b).toList
    | .table a, .table b =>
      (s.table a).length == (s.table b).length &&
        (s.table a).all fun e => (s.table b).any fun f => equal e.1 f.1 && equal e.2 f.2
    | .invocation _ a, .invocation _ b =>
      equal a.effect b.effect && pairwise equal a.args.values b.args.values &&
        equal a.context b.context
    | .resend _ a, .resend _ b =>
      equal a.effect b.effect && pairwise equal a.args.values b.args.values &&
        equal a.cont b.cont && equal a.context b.context
    | .escape _ a, .escape _ b => equal a b
    | .resumption _ a, .resumption _ b =>
      equal a.cont b.cont && equal a.value b.value && equal a.error b.error
    | .context a, .context b =>
      equal a.file b.file && equal a.line b.line && equal a.function b.function &&
        equal a.code b.code
    | .frame (.generator a _), .frame (.generator b _) => equal a b
    | .frame (.handler a _), .frame (.handler b _) => equal a b
    | .report _ (.get a), .report _ (.get b) => equal a b
    | .report _ (.put a x), .report _ (.put b y) => equal a b && equal x y
    | .report _ (.done x), .report _ (.done y) => equal x y
    | .native (.method _ a f), .native (.method _ b g) => a.same b && f == g
    | _, _ => false

def equal (s : Store) (v w : Val) : Bool := s.equalN comparisonDepth v w

/-- The type of the first part of a value that cannot be hashed. -/
def unhashableN : Nat → Val → Option String
  | 0, _ => none
  | n + 1, v =>
    let first (vs : List Val) : Option String := vs.findSome? (unhashableN n)
    match v with
    | .list _ | .table _ => some v.typeName
    | .invocation _ i => first (i.effect :: i.args.values ++ [i.context])
    | .resend _ r => first (r.effect :: r.args.values ++ [r.cont, r.context])
    | .escape _ a => unhashableN n a
    | .resumption _ r => first [r.cont, r.value, r.error]
    | .context c => first [c.file, c.line, c.function, c.code]
    | .frame (.generator c _) | .frame (.handler c _) => unhashableN n c
    | .report _ (.get k) => unhashableN n k
    | .report _ (.put k w) => first [k, w]
    | .report _ (.done w) => unhashableN n w
    | _ => none

def unhashable? (v : Val) : Option String := unhashableN comparisonDepth v

/-! ## Tables -/

def findEntry? (s : Store) (k : Val) (es : List (Val × Val)) : Option Val :=
  (es.find? fun e => s.equal e.1 k).map Prod.snd

/-- Puts an entry into a table: a key that is there keeps its place. -/
def insertEntry (s : Store) (k v : Val) : List (Val × Val) → List (Val × Val)
  | [] => [(k, v)]
  | e :: es => if s.equal e.1 k then (e.1, v) :: es else e :: insertEntry s k v es

def eraseEntry (s : Store) (k : Val) (es : List (Val × Val)) : List (Val × Val) :=
  es.filter fun e => !s.equal e.1 k

end Store

end OneShot
