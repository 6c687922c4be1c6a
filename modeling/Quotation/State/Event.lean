import Quotation.Error
/-!
# Recorded events

What evaluation, expansion, construction and capture report as they go.
-/

namespace Quotation

inductive Level where
  | trace
  | debug
deriving DecidableEq

inductive Event where
  /-- a function is called that the head of a call evaluated to -/
  | calling (head : Node) (argCount : Nat)
  | entering (body : Node)
  | unquoting (source : Node) (path : Path)
  | splicing (source : Node) (path : Path)
  | building (head : Node)
  | captured (expr : Node) (parameter : String)
  | capturedAll (count fromTail : Nat)

namespace Event

def level : Event → Level
  | captured _ _ => .debug
  | capturedAll _ _ => .debug
  | _ => .trace

def text : Event → String
  | calling head argCount =>
    "calling `" ++ head.text ++ "' with " ++ toString argCount ++ " argument(s)"
  | entering body => "entering closure body `" ++ body.text ++ "'"
  | unquoting source path => "unquoting `" ++ source.text ++ "' at " ++ path.text
  | splicing source path => "splicing `" ++ source.text ++ "' at " ++ path.text
  | building head => "building call to `" ++ head.text ++ "'"
  | captured expr parameter =>
    "captured `" ++ expr.text ++ "' for parameter " ++ parameter
  | capturedAll count fromTail =>
    "captured " ++ toString count ++ " argument(s), " ++ toString fromTail ++ " from the tail"

end Event

end Quotation
