/-!
# Templates

A template is a text with fields between braces, which stand for arguments; a
brace that is doubled is text.  Here a template is filled in without any
arguments, so that its first field is an error, and so is a stray brace.
-/

namespace OneShot.Text

inductive TemplateError where
  | malformed (reason : String)
  /-- A field asks for the argument at a place. -/
  | place (i : Nat)
  /-- A field asks for an argument by its name. -/
  | name (x : String)
  deriving DecidableEq, Repr

namespace Template

/-- Whether the format of a field is closed, with `depth` braces open inside it. -/
def closes : (depth : Nat) → List Char → Bool
  | _, [] => false
  | 0, '\x7d' :: _ => true
  | n + 1, '\x7d' :: cs => closes n cs
  | n, '\x7b' :: cs => closes (n + 1) cs
  | n, _ :: cs => closes n cs

/-- What is wrong with the format of a field, which may be followed by anything. -/
def formatError? (cs : List Char) : Option String :=
  if closes 0 cs then none else some "unmatched '\x7b' in format spec"

/-- What is wrong with the conversion of a field, a character that a format may follow. -/
def conversionError? : List Char → Option String
  | [] => some "end of string while looking for conversion specifier"
  | [_] => formatError? []
  | _ :: '\x7d' :: _ => none
  | _ :: ':' :: cs => formatError? cs
  | _ => some "expected ':' after conversion specifier"

/-- The argument that a field asks for: by its place if that is left out or a number. -/
def argument (field : List Char) : TemplateError :=
  let first := field.takeWhile fun c => c != '.' && c != '['
  if first.all Char.isDigit then
    .place (first.foldl (fun n c => 10 * n + (c.toNat - '0'.toNat)) 0)
  else .name (String.ofList first)

/-- The error for a field; `seen` is what was read of it, last first. -/
def fieldError (seen : List Char) : (bracket : Bool) → List Char → TemplateError
  | _, [] => .malformed "expected '\x7d' before end of string"
  | true, c :: cs => fieldError (c :: seen) (c != ']') cs
  | false, '\x7b' :: _ => .malformed "unexpected '\x7b' in field name"
  | false, '\x7d' :: _ => argument seen.reverse
  | false, ':' :: cs => ((formatError? cs).map .malformed).getD (argument seen.reverse)
  | false, '!' :: cs => ((conversionError? cs).map .malformed).getD (argument seen.reverse)
  | false, c :: cs => fieldError (c :: seen) (c == '[') cs

def fill : List Char → Except TemplateError (List Char)
  | [] => .ok []
  | ['\x7b'] => .error (.malformed "Single '\x7b' encountered in format string")
  | '\x7b' :: '\x7b' :: cs => return '\x7b' :: (← fill cs)
  | '\x7b' :: cs => .error (fieldError [] false cs)
  | '\x7d' :: '\x7d' :: cs => return '\x7d' :: (← fill cs)
  | '\x7d' :: _ => .error (.malformed "Single '\x7d' encountered in format string")
  | c :: cs => return c :: (← fill cs)

/-- A text without braces is filled in as it is. -/
theorem fill_of_no_brace {cs : List Char} (h : ∀ c ∈ cs, c ≠ '\x7b' ∧ c ≠ '\x7d') :
    fill cs = .ok cs := by
  induction cs with
  | nil => rfl
  | cons c cs ih =>
    have hc := h c (by simp)
    have := ih fun d hd => h d (by simp [hd])
    rw [fill.eq_def]
    split <;> simp_all [bind, Except.bind, pure, Except.pure]

end Template

end OneShot.Text
