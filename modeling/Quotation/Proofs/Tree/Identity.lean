import Quotation.Tree.Node
import Mathlib.Logic.Function.Basic
/-!
# Identity of nodes

What the test of identity compares is spelled out by `Node.Agrees`. Programs share subtrees, and the
test may then stop at two calls or lists that lie at one place. It finds the same (`Held.same_eq_identical`),
because what lies at a place is one tree for as long as anything uses it (`Holding.exists_memory`).
-/

namespace Quotation

/-! ## What identity compares -/

/-- Integers agree by value and doubles by their bits; an integer agrees with no double. -/
inductive Number.Agrees : Number → Number → Prop
  | int {a b : Int64} (h : a.toInt = b.toInt) : Agrees (.int a) (.int b)
  | float {a b : Double} (h : a.bits = b.bits) : Agrees (.float a) (.float b)

inductive Constant.Agrees : Constant → Constant → Prop
  | null : Agrees .null .null
  | bool (b : Bool) : Agrees (.bool b) (.bool b)
  | number {a b : Number} (h : a.Agrees b) : Agrees (.number a) (.number b)
  | string (s : String) : Agrees (.string s) (.string s)

/-- Two lists agree entry by entry: the names are equal and the values related. -/
inductive Arg.AllAgree {α : Type} (R : α → α → Prop) : List (Arg α) → List (Arg α) → Prop
  | nil : AllAgree R [] []
  | cons {name : Option String} {a b : α} {as bs : List (Arg α)} (value : R a b) (rest : AllAgree R as bs) :
      AllAgree R (⟨name, a⟩ :: as) (⟨name, b⟩ :: bs)

/-- Nodes of one shape, with equal constants and names, whose parts agree one by one. -/
inductive Node.Agrees : Node → Node → Prop
  | const {c d : Constant} (h : c.Agrees d) : Agrees (.const c) (.const d)
  | symbol (name : String) : Agrees (.symbol name) (.symbol name)
  | call {f g : Node} {as bs : List (Arg Node)} (head : Agrees f g) (args : Arg.AllAgree Agrees as bs) :
      Agrees (.call f as) (.call g bs)
  | pairlist {as bs : List (Arg Node)} (args : Arg.AllAgree Agrees as bs) : Agrees (.pairlist as) (.pairlist bs)

theorem Number.agrees_iff_eq {a b : Number} : a.Agrees b ↔ a = b := by
  constructor
  · rintro (⟨h⟩ | ⟨h⟩)
    · rw [Int64.toInt_inj.1 h]
    · exact congrArg (fun bits => float ⟨bits⟩) h
  · rintro rfl
    cases a with
    | int n => exact .int rfl
    | float d => exact .float rfl

theorem Constant.agrees_iff_eq {c d : Constant} : c.Agrees d ↔ c = d := by
  constructor
  · intro h
    cases h with
    | null => rfl
    | bool b => rfl
    | number h => rw [Number.agrees_iff_eq.1 h]
    | string s => rfl
  · rintro rfl
    cases c with
    | null => exact .null
    | bool b => exact .bool b
    | number n => exact .number (Number.agrees_iff_eq.2 rfl)
    | string s => exact .string s

namespace Node

mutual
theorem Agrees.refl : ∀ n : Node, n.Agrees n
  | const _ => .const (Constant.agrees_iff_eq.2 rfl)
  | symbol name => .symbol name
  | call head args => .call (.refl head) (allAgree_refl args)
  | pairlist args => .pairlist (allAgree_refl args)

theorem allAgree_refl : ∀ args : List (Arg Node), Arg.AllAgree Agrees args args
  | [] => .nil
  | a :: args => .cons (.refl a.value) (allAgree_refl args)
end

mutual
theorem Agrees.eq : ∀ {m n : Node}, m.Agrees n → m = n
  | _, _, .const h => congrArg _ (Constant.agrees_iff_eq.1 h)
  | _, _, .symbol _ => rfl
  | _, _, .call head args => by rw [head.eq, allAgree_eq args]
  | _, _, .pairlist args => by rw [allAgree_eq args]

theorem allAgree_eq : ∀ {as bs : List (Arg Node)}, Arg.AllAgree Agrees as bs → as = bs
  | _, _, .nil => rfl
  | _, _, .cons value rest => by rw [value.eq, allAgree_eq rest]
end

theorem identical_iff_agrees {m n : Node} : m.identical n = true ↔ m.Agrees n := by
  rw [identical_iff_eq]
  exact ⟨fun h => h ▸ .refl m, Agrees.eq⟩

/-! ## A subtree in its surroundings -/

/-- A node with one subtree left out. -/
inductive Around where
  | here
  | head (inner : Around) (args : List (Arg Node))
  | callArg (f : Node) (before : List (Arg Node)) (name : Option String) (inner : Around) (after : List (Arg Node))
  | listArg (before : List (Arg Node)) (name : Option String) (inner : Around) (after : List (Arg Node))

namespace Around

/-- The node with the subtree put in. -/
def fill (n : Node) : Around → Node
  | here => n
  | head inner args => .call (inner.fill n) args
  | callArg f before name inner after => .call f (before ++ ⟨name, inner.fill n⟩ :: after)
  | listArg before name inner after => .pairlist (before ++ ⟨name, inner.fill n⟩ :: after)

theorem fill_inj {m n : Node} {around : Around} : around.fill m = around.fill n ↔ m = n := by
  induction around with
  | here => rfl
  | head inner args ih => simp [fill, ih]
  | callArg f before name inner after ih => simp [fill, ih]
  | listArg before name inner after ih => simp [fill, ih]

/-- Exchanging a subtree gives an identical whole just if the new subtree is identical to the old one. -/
theorem identical_fill (around : Around) (m n : Node) :
    (around.fill m).identical (around.fill n) = m.identical n := by
  rw [Bool.eq_iff_iff, identical_iff_eq, identical_iff_eq]
  exact fill_inj

end Around

end Node

/-! ## Shared subtrees -/

/-- A node as a program holds it: a call or list lies at some place, together with its parts. -/
inductive Held where
  | const (c : Constant)
  | symbol (name : String)
  | call (place : Nat) (head : Held) (args : List (Arg Held))
  | pairlist (place : Nat) (args : List (Arg Held))

namespace Held

mutual
/-- The node alone, wherever its parts lie. -/
def node : Held → Node
  | const c => .const c
  | symbol name => .symbol name
  | call _ head args => .call head.node (nodes args)
  | pairlist _ args => .pairlist (nodes args)

def nodes : List (Arg Held) → List (Arg Node)
  | [] => []
  | a :: as => ⟨a.name, a.value.node⟩ :: nodes as
end

mutual
/-- The test of identity, which is over at two calls or two lists that lie at one place. -/
def same : Held → Held → Bool
  | const a, const b => a == b
  | symbol a, symbol b => a == b
  | call p f as, call q g bs => p == q || f.same g && sameArgs as bs
  | pairlist p as, pairlist q bs => p == q || sameArgs as bs
  | _, _ => false

def sameArgs : List (Arg Held) → List (Arg Held) → Bool
  | [], [] => true
  | a :: as, b :: bs => a.name == b.name && a.value.same b.value && sameArgs as bs
  | _, _ => false
end

/-- Every call and list in a held node is what the memory has at its place. -/
inductive LiesIn (memory : Nat → Node) : Held → Prop
  | const (c : Constant) : LiesIn memory (.const c)
  | symbol (name : String) : LiesIn memory (.symbol name)
  | call {place : Nat} {head : Held} {args : List (Arg Held)} (hhere : memory place = (call place head args).node)
      (hhead : LiesIn memory head) (hargs : ∀ a ∈ args, LiesIn memory a.value) :
      LiesIn memory (.call place head args)
  | pairlist {place : Nat} {args : List (Arg Held)} (hhere : memory place = (pairlist place args).node)
      (hargs : ∀ a ∈ args, LiesIn memory a.value) : LiesIn memory (.pairlist place args)

variable {memory : Nat → Node}

theorem sameArgs_eq_identicalArgs {as bs : List (Arg Held)}
    (h : ∀ a ∈ as, ∀ b ∈ bs, a.value.same b.value = a.value.node.identical b.value.node) :
    sameArgs as bs = Node.identicalArgs (nodes as) (nodes bs) := by
  induction as generalizing bs with
  | nil => cases bs <;> rfl
  | cons a as ih =>
    cases bs with
    | nil => rfl
    | cons b bs =>
      have hrest := ih fun x hx y hy => h x (List.mem_cons_of_mem a hx) y (List.mem_cons_of_mem b hy)
      rw [sameArgs, nodes, nodes, Node.identicalArgs, hrest, h a List.mem_cons_self b List.mem_cons_self]

/-- The test may be over at one place, if one node lies there. -/
theorem beq_or_identical {p q : Nat} {m n : Node} (h : p = q → m = n) :
    (p == q || m.identical n) = m.identical n := by
  by_cases hplace : p = q
  · rw [Node.identical_iff_eq.2 (h hplace), Bool.or_true]
  · rw [beq_false_of_ne hplace, Bool.false_or]

/-- Stopping at a shared place does not change the answer. -/
theorem same_eq_identical {x y : Held} (hx : x.LiesIn memory) (hy : y.LiesIn memory) :
    x.same y = x.node.identical y.node := by
  induction hx generalizing y with
  | const c => cases hy <;> rfl
  | symbol name => cases hy <;> rfl
  | @call p f as hhere _ _ ihhead ihargs =>
    cases hy with
    | @call q g bs hhere' hhead' hargs' =>
      -- At one place both nodes are what the memory has there, so the parts need no look.
      have hargs := sameArgs_eq_identicalArgs fun a ha b hb => ihargs a ha (hargs' b hb)
      rw [same, ihhead hhead', hargs]
      show (p == q || (call p f as).node.identical (call q g bs).node) = _
      exact beq_or_identical fun hplace => hhere.symm.trans (hplace ▸ hhere')
    | _ => rfl
  | @pairlist p as hhere _ ihargs =>
    cases hy with
    | @pairlist q bs hhere' hargs' =>
      have hargs := sameArgs_eq_identicalArgs fun a ha b hb => ihargs a ha (hargs' b hb)
      rw [same, hargs]
      show (p == q || (pairlist p as).node.identical (pairlist q bs).node) = _
      exact beq_or_identical fun hplace => hhere.symm.trans (hplace ▸ hhere')
    | _ => rfl

/-- Something of the node lies at the place. -/
inductive Uses (place : Nat) : Held → Prop
  | call {head : Held} {args : List (Arg Held)} : Uses place (.call place head args)
  | pairlist {args : List (Arg Held)} : Uses place (.pairlist place args)
  | head {p : Nat} {head : Held} {args : List (Arg Held)} (h : Uses place head) : Uses place (.call p head args)
  | callArg {p : Nat} {head : Held} {args : List (Arg Held)} {a : Arg Held} (ha : a ∈ args) (h : Uses place a.value) :
      Uses place (.call p head args)
  | listArg {p : Nat} {args : List (Arg Held)} {a : Arg Held} (ha : a ∈ args) (h : Uses place a.value) :
      Uses place (.pairlist p args)

/-- Putting something at a place that a node does not use leaves the node as it lies. -/
theorem LiesIn.update {x : Held} (h : x.LiesIn memory) {place : Nat} (hfree : ¬ x.Uses place) (n : Node) :
    x.LiesIn (Function.update memory place n) := by
  induction h with
  | const c => exact .const c
  | symbol name => exact .symbol name
  | @call p head args hhere _ _ ihhead ihargs =>
    refine .call ?_ (ihhead fun h => hfree (.head h)) fun a ha => ihargs a ha fun h => hfree (.callArg ha h)
    have hother : p ≠ place := by
      rintro rfl
      exact hfree .call
    rw [Function.update_of_ne hother, hhere]
  | @pairlist p args hhere _ ihargs =>
    refine .pairlist ?_ fun a ha => ihargs a ha fun h => hfree (.listArg ha h)
    have hother : p ≠ place := by
      rintro rfl
      exact hfree .pairlist
    rw [Function.update_of_ne hother, hhere]

end Held

/-- What a program can come to hold. It makes nodes of what it holds, at places that nothing it holds
uses; it takes nodes apart, and it copies and drops them. -/
inductive Holding : List Held → Prop
  | start : Holding []
  | const {held} (c : Constant) : Holding held → Holding (.const c :: held)
  | symbol {held} (name : String) : Holding held → Holding (.symbol name :: held)
  | call {held place head args} : Holding held → (∀ x ∈ held, ¬ x.Uses place) → head ∈ held →
      (∀ a ∈ args, a.value ∈ held) → Holding (.call place head args :: held)
  | pairlist {held place args} : Holding held → (∀ x ∈ held, ¬ x.Uses place) → (∀ a ∈ args, a.value ∈ held) →
      Holding (.pairlist place args :: held)
  | head {held place head args} : Holding held → .call place head args ∈ held → Holding (head :: held)
  | callArg {held place head args a} : Holding held → .call place head args ∈ held → a ∈ args →
      Holding (a.value :: held)
  | listArg {held place args a} : Holding held → .pairlist place args ∈ held → a ∈ args → Holding (a.value :: held)
  | kept {held held'} : Holding held → (∀ x ∈ held', x ∈ held) → Holding held'

/-- At each place lies one tree. -/
theorem Holding.exists_memory {held : List Held} (h : Holding held) : ∃ memory, ∀ x ∈ held, x.LiesIn memory := by
  induction h with
  | start => exact ⟨fun _ => .missing, nofun⟩
  | const c _ ih =>
    obtain ⟨memory, hheld⟩ := ih
    exact ⟨memory, List.forall_mem_cons.2 ⟨.const c, hheld⟩⟩
  | symbol name _ ih =>
    obtain ⟨memory, hheld⟩ := ih
    exact ⟨memory, List.forall_mem_cons.2 ⟨.symbol name, hheld⟩⟩
  | @call held place head args _ hfree hhead hargs ih =>
    obtain ⟨memory, hheld⟩ := ih
    -- The place may have been used before by what was dropped since; what is still held lies elsewhere.
    have hafter (x : Held) (hx : x ∈ held) := (hheld x hx).update (hfree x hx) (Held.call place head args).node
    refine ⟨_, List.forall_mem_cons.2 ⟨.call (Function.update_self ..) ?_ fun a ha => ?_, hafter⟩⟩
    · exact hafter head hhead
    · exact hafter a.value (hargs a ha)
  | @pairlist held place args _ hfree hargs ih =>
    obtain ⟨memory, hheld⟩ := ih
    have hafter (x : Held) (hx : x ∈ held) := (hheld x hx).update (hfree x hx) (Held.pairlist place args).node
    refine ⟨_, List.forall_mem_cons.2 ⟨.pairlist (Function.update_self ..) fun a ha => ?_, hafter⟩⟩
    exact hafter a.value (hargs a ha)
  | head _ hmem ih =>
    obtain ⟨memory, hheld⟩ := ih
    cases hheld _ hmem with
    | call _ hhead _ => exact ⟨memory, List.forall_mem_cons.2 ⟨hhead, hheld⟩⟩
  | callArg _ hmem ha ih =>
    obtain ⟨memory, hheld⟩ := ih
    cases hheld _ hmem with
    | call _ _ hargs => exact ⟨memory, List.forall_mem_cons.2 ⟨hargs _ ha, hheld⟩⟩
  | listArg _ hmem ha ih =>
    obtain ⟨memory, hheld⟩ := ih
    cases hheld _ hmem with
    | pairlist _ hargs => exact ⟨memory, List.forall_mem_cons.2 ⟨hargs _ ha, hheld⟩⟩
  | kept _ hsub ih =>
    obtain ⟨memory, hheld⟩ := ih
    exact ⟨memory, fun x hx => hheld x (hsub x hx)⟩

theorem Holding.same_eq_identical {held : List Held} (h : Holding held) {x y : Held} (hx : x ∈ held)
    (hy : y ∈ held) : x.same y = x.node.identical y.node := by
  obtain ⟨memory, hheld⟩ := h.exists_memory
  exact Held.same_eq_identical (hheld x hx) (hheld y hy)

end Quotation
