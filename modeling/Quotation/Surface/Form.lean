import Quotation.Arg
/-!
# Forms

What the surface notation describes: literals as they are written, identifiers,
the two markers, applications and argument lists.
-/

namespace Quotation.Surface

inductive Form where
  | nil
  | missing
  | literal (text : String)
  /-- a literal with a minus before it -/
  | negated (text : String)
  | bool (b : Bool)
  | ident (name : String)
  | unquote (form : Form)
  | splice (form : Form)
  | apply (head : Form) (args : List (Arg Form))
  | list (args : List (Arg Form))
deriving Inhabited

end Quotation.Surface
