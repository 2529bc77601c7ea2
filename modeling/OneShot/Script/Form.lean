/-!
# Forms

Scripts come as forms: literals and lists.
-/

namespace OneShot.Script

inductive Form where
  | null
  | bool (b : Bool)
  | int (i : Int)
  | str (s : String)
  | list (fs : List Form)
  deriving Inhabited

mutual

def Form.depth : Form → Nat
  | .list fs => Form.depths fs + 1
  | _ => 1

def Form.depths : List Form → Nat
  | [] => 0
  | f :: fs => max f.depth (Form.depths fs)

end

end OneShot.Script
