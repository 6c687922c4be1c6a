import Quotation.Arg
import Quotation.Tree.Constant
/-!
# Expression trees

A node is a constant, a symbol, a call or a detached argument list. The symbol
with the empty name stands for the missing argument. Heads of calls are
unrestricted here; `isHead` tells which ones a checked construction admits.

Identity is structural. `identical_iff_eq` says that the test computes equality,
so constants are told apart by kind and doubles by their bits.
-/

namespace Quotation

inductive Node where
  | const (c : Constant)
  | symbol (name : String)
  | call (head : Node) (args : List (Arg Node))
  | pairlist (args : List (Arg Node))
deriving Inhabited

/-- The shapes of nodes as messages tell them apart. -/
inductive NodeKind where
  | constant
  | missing
  | symbol
  | call
  | pairlist
deriving DecidableEq

def NodeKind.text : NodeKind → String
  | constant => "a constant"
  | missing => "the missing argument"
  | symbol => "a symbol"
  | call => "a call"
  | pairlist => "a pairlist"

namespace Node

/-! ## Induction -/

mutual
theorem forall_of_args {P : Node → Prop} (const : ∀ c, P (.const c)) (symbol : ∀ s, P (.symbol s))
    (call : ∀ head args, P head → (∀ a ∈ args, P a.value) → P (.call head args))
    (pairlist : ∀ args, (∀ a ∈ args, P a.value) → P (.pairlist args)) : ∀ n, P n
  | .const c => const c
  | .symbol s => symbol s
  | .call head args => call head args (forall_of_args const symbol call pairlist head)
      (forall_mem_of_args const symbol call pairlist args)
  | .pairlist args => pairlist args (forall_mem_of_args const symbol call pairlist args)

theorem forall_mem_of_args {P : Node → Prop} (const : ∀ c, P (.const c))
    (symbol : ∀ s, P (.symbol s))
    (call : ∀ head args, P head → (∀ a ∈ args, P a.value) → P (.call head args))
    (pairlist : ∀ args, (∀ a ∈ args, P a.value) → P (.pairlist args)) :
    ∀ args : List (Arg Node), ∀ a ∈ args, P a.value
  | [], _, h => nomatch h
  | b :: bs, a, h => by
    cases h with
    | head => exact forall_of_args const symbol call pairlist b.value
    | tail _ h => exact forall_mem_of_args const symbol call pairlist bs a h
end

/-- Induction on nodes, with the hypothesis for each argument of a call or list. -/
@[induction_eliminator]
theorem inductionOn {P : Node → Prop} (n : Node) (const : ∀ c, P (.const c))
    (symbol : ∀ s, P (.symbol s))
    (call : ∀ head args, P head → (∀ a ∈ args, P a.value) → P (.call head args))
    (pairlist : ∀ args, (∀ a ∈ args, P a.value) → P (.pairlist args)) : P n :=
  forall_of_args const symbol call pairlist n

/-! ## Identity -/

mutual
/-- Whether two nodes are the same tree. -/
def identical : Node → Node → Bool
  | const a, const b => a == b
  | symbol a, symbol b => a == b
  | call f as, call g bs => identical f g && identicalArgs as bs
  | pairlist as, pairlist bs => identicalArgs as bs
  | _, _ => false

/-- Whether two argument lists agree entry by entry, names included. -/
def identicalArgs : List (Arg Node) → List (Arg Node) → Bool
  | [], [] => true
  | a :: as, b :: bs => a.name == b.name && identical a.value b.value && identicalArgs as bs
  | _, _ => false
end

theorem identicalArgs_iff_eq {as bs : List (Arg Node)}
    (h : ∀ a ∈ as, ∀ n, identical a.value n = true ↔ a.value = n) :
    identicalArgs as bs = true ↔ as = bs := by
  induction as generalizing bs with
  | nil => cases bs <;> simp [identicalArgs]
  | cons a as ih =>
    cases bs with
    | nil => simp [identicalArgs]
    | cons b bs =>
      have ih' := @ih bs fun x hx => h x (List.mem_cons_of_mem a hx)
      obtain ⟨an, av⟩ := a
      obtain ⟨bn, bv⟩ := b
      simp [identicalArgs, h _ List.mem_cons_self, ih']

theorem identical_iff_eq {a b : Node} : identical a b = true ↔ a = b := by
  induction a generalizing b with
  | const c => cases b <;> simp [identical]
  | symbol s => cases b <;> simp [identical]
  | call head args ihh iha =>
    cases b <;> simp [identical, ihh, identicalArgs_iff_eq fun a ha n => @iha a ha n]
  | pairlist args iha =>
    cases b <;> simp [identical, identicalArgs_iff_eq fun a ha n => @iha a ha n]

instance : DecidableEq Node := fun _ _ => decidable_of_iff _ identical_iff_eq

/-! ## Shapes -/

/-- The missing argument: the symbol without a name. -/
def missing : Node := symbol ""

def isMissing : Node → Bool
  | symbol name => name.isEmpty
  | _ => false

def isConstant : Node → Bool
  | const _ => true
  | _ => false

def isSymbol : Node → Bool
  | symbol _ => true
  | _ => false

def isCall : Node → Bool
  | call _ _ => true
  | _ => false

def constant? : Node → Option Constant
  | const c => some c
  | _ => none

/-- The name of a symbol; that of the missing argument is empty. -/
def symbol? : Node → Option String
  | symbol name => some name
  | _ => none

/-- Head and arguments of a call. -/
def call? : Node → Option (Node × List (Arg Node))
  | call head args => some (head, args)
  | _ => none

def pairlist? : Node → Option (List (Arg Node))
  | pairlist args => some args
  | _ => none

def kind : Node → NodeKind
  | const _ => .constant
  | symbol name => if name.isEmpty then .missing else .symbol
  | call _ _ => .call
  | pairlist _ => .pairlist

/-- What may stand at the head of a call that is built by the checked
constructors: a symbol with a name, or a call. -/
def isHead : Node → Bool
  | symbol name => !name.isEmpty
  | call _ _ => true
  | _ => false

end Node

end Quotation
