import Quotation.Proofs.Tree.Identity
import Quotation.Value
/-!
# Equality of values

What the test of equality compares is spelled out by `Value.Agrees`: scalars and expressions as nodes
do, lists entry by entry, and functions by identity. So it is an equivalence, and equal parts make
equal wholes (`equality_is_structural`).
-/

namespace Quotation

/-- Two functions are one and the same. -/
inductive Function.Agrees : Function → Function → Prop
  | builtin (id : FunctionId) {m n : String} {o p : BuiltinOp} : Agrees (.builtin id m o) (.builtin id n p)
  | special (id : FunctionId) {m n : String} {o p : SpecialOp} : Agrees (.special id m o) (.special id n p)
  | closure (id : FunctionId) {c d : Closure} : Agrees (.closure id c) (.closure id d)

theorem Function.same_iff_agrees {f g : Function} : f.same g = true ↔ f.Agrees g := by
  constructor
  · intro h
    cases f <;> cases g
    case builtin.builtin => exact beq_iff_eq.1 h ▸ .builtin _
    case special.special => exact beq_iff_eq.1 h ▸ .special _
    case closure.closure => exact beq_iff_eq.1 h ▸ .closure _
    all_goals cases h
  · rintro (⟨id⟩ | ⟨id⟩ | ⟨id⟩) <;> exact beq_self_eq_true id

theorem Function.Agrees.refl : ∀ f : Function, f.Agrees f
  | .builtin id _ _ => .builtin id
  | .special id _ _ => .special id
  | .closure id _ => .closure id

theorem Function.Agrees.symm : ∀ {f g : Function}, f.Agrees g → g.Agrees f
  | _, _, .builtin id => .builtin id
  | _, _, .special id => .special id
  | _, _, .closure id => .closure id

theorem Function.Agrees.trans : ∀ {f g h : Function}, f.Agrees g → g.Agrees h → f.Agrees h
  | _, _, _, .builtin id, .builtin _ => .builtin id
  | _, _, _, .special id, .special _ => .special id
  | _, _, _, .closure id, .closure _ => .closure id

/-- Values of one shape, whose parts agree one by one. -/
inductive Value.Agrees : Value → Value → Prop
  | scalar {c d : Constant} (h : c.Agrees d) : Agrees (.scalar c) (.scalar d)
  | lang {m n : Node} (h : m.Agrees n) : Agrees (.lang m) (.lang n)
  | list {as bs : List (Arg Value)} (entries : Arg.AllAgree Agrees as bs) : Agrees (.list as) (.list bs)
  | function {f g : Function} (h : f.Agrees g) : Agrees (.function f) (.function g)

namespace Value

mutual
theorem same_iff_agrees : ∀ {v w : Value}, v.same w = true ↔ v.Agrees w
  | scalar c, w => by
    cases w with
    | scalar d => exact beq_iff_eq.trans (Constant.agrees_iff_eq.symm.trans ⟨.scalar, fun | .scalar h => h⟩)
    | _ => exact ⟨nofun, nofun⟩
  | lang m, w => by
    cases w with
    | lang n => exact Node.identical_iff_agrees.trans ⟨.lang, fun | .lang h => h⟩
    | _ => exact ⟨nofun, nofun⟩
  | list as, w => by
    cases w with
    | list bs => exact sameEntries_iff_allAgree.trans ⟨.list, fun | .list h => h⟩
    | _ => exact ⟨nofun, nofun⟩
  | function f, w => by
    cases w with
    | function g => exact Function.same_iff_agrees.trans ⟨.function, fun | .function h => h⟩
    | _ => exact ⟨nofun, nofun⟩

theorem sameEntries_iff_allAgree : ∀ {as bs : List (Arg Value)}, sameEntries as bs = true ↔ Arg.AllAgree Agrees as bs
  | [], [] => ⟨fun _ => .nil, fun _ => rfl⟩
  | [], _ :: _ => ⟨nofun, nofun⟩
  | _ :: _, [] => ⟨nofun, nofun⟩
  | ⟨m, a⟩ :: as, ⟨n, b⟩ :: bs => by
    rw [sameEntries, Bool.and_eq_true, Bool.and_eq_true, beq_iff_eq, same_iff_agrees, sameEntries_iff_allAgree]
    constructor
    · rintro ⟨⟨rfl, hvalue⟩, hrest⟩
      exact .cons hvalue hrest
    · rintro (_ | ⟨hvalue, hrest⟩)
      exact ⟨⟨rfl, hvalue⟩, hrest⟩
end

/-! ## An equivalence -/

mutual
theorem Agrees.refl : ∀ v : Value, v.Agrees v
  | scalar _ => .scalar (Constant.agrees_iff_eq.2 rfl)
  | lang n => .lang (.refl n)
  | list entries => .list (allAgree_refl entries)
  | function f => .function (.refl f)

theorem allAgree_refl : ∀ entries : List (Arg Value), Arg.AllAgree Agrees entries entries
  | [] => .nil
  | e :: entries => .cons (.refl e.value) (allAgree_refl entries)
end

mutual
theorem Agrees.symm : ∀ {v w : Value}, v.Agrees w → w.Agrees v
  | _, _, .scalar h => Constant.agrees_iff_eq.1 h ▸ .refl _
  | _, _, .lang h => h.eq ▸ .refl _
  | _, _, .list entries => .list (allAgree_symm entries)
  | _, _, .function h => .function h.symm

theorem allAgree_symm : ∀ {as bs : List (Arg Value)}, Arg.AllAgree Agrees as bs → Arg.AllAgree Agrees bs as
  | _, _, .nil => .nil
  | _, _, .cons value rest => .cons value.symm (allAgree_symm rest)
end

mutual
theorem Agrees.trans : ∀ {u v w : Value}, u.Agrees v → v.Agrees w → u.Agrees w
  | _, _, _, .scalar h, h' => Constant.agrees_iff_eq.1 h ▸ h'
  | _, _, _, .lang h, h' => h.eq ▸ h'
  | _, _, _, .list entries, .list entries' => .list (allAgree_trans entries entries')
  | _, _, _, .function h, .function h' => .function (h.trans h')

theorem allAgree_trans : ∀ {as bs cs : List (Arg Value)}, Arg.AllAgree Agrees as bs →
    Arg.AllAgree Agrees bs cs → Arg.AllAgree Agrees as cs
  | _, _, _, .nil, .nil => .nil
  | _, _, _, .cons value rest, .cons value' rest' => .cons (value.trans value') (allAgree_trans rest rest')
end

theorem same_self (v : Value) : v.same v = true := same_iff_agrees.2 (.refl v)

theorem same_comm (v w : Value) : v.same w = w.same v := by
  rw [Bool.eq_iff_iff, same_iff_agrees, same_iff_agrees]
  exact ⟨.symm, .symm⟩

theorem same_trans {u v w : Value} (huv : u.same v = true) (hvw : v.same w = true) : u.same w = true :=
  same_iff_agrees.2 ((same_iff_agrees.1 huv).trans (same_iff_agrees.1 hvw))

/-! ## An entry in its surroundings -/

/-- A value with one entry of a list left out, at any depth. -/
inductive Around where
  | here
  | entry (before : List (Arg Value)) (name : Option String) (inner : Around) (after : List (Arg Value))

/-- The value with the entry put in. -/
def Around.fill (v : Value) : Around → Value
  | here => v
  | entry before name inner after => .list (before ++ ⟨name, inner.fill v⟩ :: after)

theorem sameEntries_around (before : List (Arg Value)) (name : Option String) (v w : Value) (after : List (Arg Value)) :
    sameEntries (before ++ ⟨name, v⟩ :: after) (before ++ ⟨name, w⟩ :: after) = v.same w := by
  induction before with
  | nil =>
    have hafter : sameEntries after after = true := same_self (list after)
    rw [List.nil_append, List.nil_append, sameEntries, beq_self_eq_true, hafter, Bool.true_and, Bool.and_true]
  | cons e before ih =>
    rw [List.cons_append, List.cons_append, sameEntries, beq_self_eq_true, same_self, ih, Bool.and_self, Bool.true_and]

/-- Exchanging an entry gives an equal whole just if the new entry equals the old one. -/
theorem same_fill (around : Around) (v w : Value) : (around.fill v).same (around.fill w) = v.same w := by
  induction around with
  | here => rfl
  | entry before name inner after ih => exact (sameEntries_around before name _ _ after).trans ih

end Value

/-- Identity of nodes is agreement in shape, constants, names and parts, also where the test is over at
a shared call or list. Equality of values is an equivalence, and the agreement of their parts, functions
being compared by identity. Exchanging any entry of a list or any subtree of a node, also in the nodes
in a value, gives an equal whole just if the exchanged parts are equal. -/
theorem equality_is_structural :
    (∀ m n : Node, m.identical n = true ↔ m.Agrees n) ∧
    (∀ held, Holding held → ∀ x ∈ held, ∀ y ∈ held, x.same y = x.node.identical y.node) ∧
    (∀ v w : Value, v.same w = true ↔ v.Agrees w) ∧
    (∀ v : Value, v.same v = true) ∧
    (∀ v w : Value, v.same w = w.same v) ∧
    (∀ u v w : Value, u.same v = true → v.same w = true → u.same w = true) ∧
    (∀ (around : Node.Around) (m n : Node), (around.fill m).identical (around.fill n) = m.identical n) ∧
    (∀ (around : Value.Around) (v w : Value), (around.fill v).same (around.fill w) = v.same w) ∧
    ∀ (around : Value.Around) (inner : Node.Around) (m n : Node),
      (around.fill (.lang (inner.fill m))).same (around.fill (.lang (inner.fill n))) = m.identical n := by
  refine ⟨fun _ _ => Node.identical_iff_agrees, fun _ hheld _ hx _ hy => hheld.same_eq_identical hx hy,
    fun _ _ => Value.same_iff_agrees, Value.same_self, Value.same_comm, fun _ _ _ => Value.same_trans,
    Node.Around.identical_fill, Value.same_fill, fun around inner m n => ?_⟩
  calc (around.fill (.lang (inner.fill m))).same (around.fill (.lang (inner.fill n)))
      = (inner.fill m).identical (inner.fill n) := Value.same_fill around _ _
    _ = m.identical n := inner.identical_fill m n

/-- A call with a NaN in it, held twice over at one place and once more at another one. -/
theorem equality_is_structural_shared :
    let nan : Held := .const (.number (.float ⟨0x7FF8000000000000⟩))
    let call (place : Nat) : Held := .call place (.symbol "f") [.unnamed nan]
    let quoted (place : Nat) : Value := .list [.named "q" (.lang (call place).node)]
    Holding [call 8, call 7, call 7] ∧ (call 7).same (call 7) = (call 7).node.identical (call 7).node ∧
      (call 7).same (call 8) = (call 7).node.identical (call 8).node ∧ (call 7).same (call 8) = true ∧
      (quoted 7).same (quoted 8) = true := by
  intro nan call quoted
  have hunused (place : Nat) : ∀ x ∈ [.symbol "f", nan], ¬ x.Uses place := by
    intro x hx h
    cases h <;> simp [nan] at hx
  have hother : ¬ (call 7).Uses 8 := by
    intro h
    cases h with
    | head h => cases h
    | callArg ha h =>
      cases List.mem_singleton.1 ha
      cases h
  have hparts : Holding [.symbol "f", nan] := .symbol "f" (.const _ .start)
  have hfirst : Holding [call 7, .symbol "f", nan] := .call hparts (hunused 7) (by simp) (by simp [Arg.unnamed])
  have hsecond : Holding [call 8, call 7, .symbol "f", nan] :=
    .call hfirst (List.forall_mem_cons.2 ⟨hother, hunused 8⟩) (by simp) (by simp [Arg.unnamed])
  have hheld : Holding [call 8, call 7, call 7] := .kept hsecond (by simp)
  obtain ⟨-, hshared, -, -, -, htrans, -⟩ := equality_is_structural
  refine ⟨hheld, hshared _ hheld _ (by simp) _ (by simp), hshared _ hheld _ (by simp) _ (by simp), rfl, ?_⟩
  exact htrans _ (quoted 7) _ rfl rfl

end Quotation
