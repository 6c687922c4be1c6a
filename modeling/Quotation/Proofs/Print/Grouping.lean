import Quotation.Proofs.Number.Widening
import Quotation.Proofs.Print.Atoms
/-!
# Groups around negative numbers

A number that is written with a minus sign binds like a negation. So it gets a group as an operand of
an operator that binds tighter, before an index and at the head of a call (`isGrouped_iff`). The one
exception is negative zero, which is not below zero and yet written `-0`.
-/

namespace Quotation

/-! ## Texts that begin with a minus sign -/

namespace Double

/-- Negative zero. -/
def negativeZero : Double := ⟨signMask⟩

theorem eq_negativeZero_iff {d : Double} : d = negativeZero ↔ d.isNegative = true ∧ d.magnitude = 0 := by
  constructor
  · rintro rfl
    exact ⟨rfl, rfl⟩
  · rintro ⟨hnegative, hmagnitude⟩
    have hbits := d.bits.toNat_lt
    rw [isNegative_eq, Nat.testBit_eq_decide_div_mod_eq, decide_eq_true_eq] at hnegative
    rw [magnitude_eq] at hmagnitude
    obtain ⟨bits⟩ := d
    rw [negativeZero, mk.injEq, ← UInt64.toNat_inj, show signMask.toNat = 2 ^ 63 from rfl]
    simp only at hbits hnegative hmagnitude
    omega

end Double

namespace Number

/-- Whether the text of the number begins with a minus sign. -/
def hasMinus (n : Number) : Bool := (n.text .printed).head? == some '-'

/-- The numbers below zero are those with a minus sign but negative zero. -/
theorem isBelowZero_iff_hasMinus (n : Number) :
    n.isBelowZero = true ↔ n.hasMinus = true ∧ n ≠ .float .negativeZero := by
  rw [hasMinus, beq_iff_eq]
  cases n with
  | int i =>
    rw [isBelowZero_int_iff, text, writesIntegers.head?_eq_minus_iff]
    exact ⟨fun h => ⟨h, by simp⟩, fun h => h.1⟩
  | float d =>
    have hzero : float d ≠ .float .negativeZero ↔ ¬ (d.isNegative = true ∧ d.magnitude = 0) := by
      rw [ne_eq, float.injEq, Double.eq_negativeZero_iff]
    rw [isBelowZero, toDouble, Double.isBelowZero_iff, text, (writesDoubles .printed).head?_eq_minus_iff, hzero,
      and_assoc]
    exact and_congr_right fun _ => and_congr_right fun hnegative => by simp [hnegative]

end Number

namespace Print

/-! ## Where a negation needs a group -/

/-- An operator that binds tighter than a minus sign in front of its operand. -/
structure TightOperator where
  name : String
  op : Operator
  isOperator : binaryOperator? name = some op
  isTight : negationLevel < op.level

/-- An operator with percent signs is not tight. -/
theorem TightOperator.mem (o : TightOperator) : (o.name, o.op) ∈ binaryTable := by
  have hoperator := o.isOperator
  have htight := o.isTight
  unfold binaryOperator? at hoperator
  split at hoperator
  · rename_i hlookup
    rw [hoperator] at hlookup
    obtain ⟨before, behind, htable, -⟩ := List.lookup_eq_some_iff.1 hlookup
    rw [htable]
    exact List.mem_append_right _ List.mem_cons_self
  · split at hoperator
    · rw [← Option.some.inj hoperator] at htight
      exact absurd htight (by decide)
    · cases hoperator

/-- The tight operators are those of powers and of components. -/
theorem exists_tightOperator_iff (name : String) :
    (∃ o : TightOperator, o.name = name) ↔ name = "^" ∨ name = "$" ∨ name = "@" := by
  constructor
  · rintro ⟨o, rfl⟩
    have htight : ∀ e ∈ binaryTable, negationLevel < e.2.level → e.1 = "^" ∨ e.1 = "$" ∨ e.1 = "@" := by decide
    exact htight _ o.mem o.isTight
  · rintro (rfl | rfl | rfl)
    · exact ⟨⟨_, ⟨13, some .right, false⟩, by decide, by decide⟩, rfl⟩
    · exact ⟨⟨_, ⟨14, some .left, false⟩, by decide, by decide⟩, rfl⟩
    · exact ⟨⟨_, ⟨14, some .left, false⟩, by decide, by decide⟩, rfl⟩

/-- The places at which a number is written with something that binds tighter than a minus sign. -/
inductive TightPlace where
  | left (o : TightOperator) (rhs : Node) (hrhs : rhs.isMissing = false)
  | right (o : TightOperator) (lhs : Node) (hlhs : lhs.isMissing = false)
  | indexed (double : Bool) (rest : List (Arg Node))
  | head (args : List (Arg Node))

namespace TightPlace

/-- The call with a node at the place. -/
def plug : TightPlace → Node → Node
  | left o rhs _, n => .call (.symbol o.name) [.unnamed n, .unnamed rhs]
  | right o lhs _, n => .call (.symbol o.name) [.unnamed lhs, .unnamed n]
  | indexed double rest, n => .call (.symbol (if double then "[[" else "[")) (.unnamed n :: rest)
  | head args, n => .call n args

/-- What is written before the node. -/
def before : TightPlace → List Piece
  | right o lhs _ =>
    (lhs.printed .between).grouped ((lhs.printed .between).needsGroup o.op .left) ++ [.operator o.name o.op.spaced]
  | _ => []

/-- What is written behind the node. -/
def behind : TightPlace → List Piece
  | left o rhs _ =>
    .operator o.name o.op.spaced ::
      (rhs.printed .between).grouped ((rhs.printed .between).needsGroup o.op .right)
  | right _ _ _ => []
  | indexed double rest =>
    .text (if double then "[[" else "[") :: Printed.argList true (Node.printedArgs .between rest) ++
      [.text (if double then "]]" else "]")]
  | head args => Printed.parenthesized (Node.printedArgs .between args)

end TightPlace

/-- How a number is written before it gets a group. -/
def printedNumber (n : Number) : Printed := (Node.const (.number n)).printed .between

theorem isMissing_printed {n : Node} (h : n.isMissing = false) : (n.printed .between).isMissing = false := by
  cases n with
  | symbol name =>
    have hname : name ≠ "" := by simpa [Node.isMissing] using h
    simpa [Node.printed, Printed.ofSymbol, Printed.isMissing] using hname
  | const | call | pairlist => rfl

theorem ofCall_index (double : Bool) {object : Printed} (hobject : object.isMissing = false)
    (rest : List (Arg Printed)) :
    Form.ofCall .between (.ofSymbol (if double then "[[" else "[")) (.unnamed object :: rest) =
      .index double object rest := by
  have hplain : Form.isPlain [Arg.unnamed object] = true := by simp [Form.isPlain, Arg.unnamed, hobject]
  cases double <;> simp [Form.ofCall, Printed.ofSymbol, Form.special?, hplain] <;> rfl

theorem isSome_level_printedNumber (n : Number) : (printedNumber n).level.isSome = n.isBelowZero := by
  simp only [printedNumber, Node.printed, Printed.ofConstant, constantLevel]
  cases n.isBelowZero <;> rfl

/-- A tight operator takes a number below zero only in a group, on either side. -/
theorem needsGroup_printedNumber (o : TightOperator) (side : Side) (n : Number) :
    (printedNumber n).needsGroup o.op side = n.isBelowZero := by
  simp only [Printed.needsGroup, printedNumber, Node.printed, Printed.ofConstant, constantLevel]
  cases n.isBelowZero with
  | false => rfl
  | true => simp [o.isTight]

theorem pieces_plug (place : TightPlace) (n : Number) :
    ((place.plug (.const (.number n))).printed .between).pieces =
      place.before ++ (printedNumber n).grouped n.isBelowZero ++ place.behind := by
  cases place with
  | left o rhs hrhs =>
    rw [TightPlace.plug, printed_call (.symbol o.name) [.unnamed (.const (.number n)), .unnamed rhs]
      (ofCall_binary o.mem rfl (isMissing_printed hrhs))]
    show (printedNumber n).grouped ((printedNumber n).needsGroup o.op .left) ++ _ = _
    rw [needsGroup_printedNumber]
    rfl
  | right o lhs hlhs =>
    rw [TightPlace.plug, printed_call (.symbol o.name) [.unnamed lhs, .unnamed (.const (.number n))]
      (ofCall_binary o.mem (isMissing_printed hlhs) rfl)]
    show _ ++ .operator o.name o.op.spaced :: (printedNumber n).grouped ((printedNumber n).needsGroup o.op .right) = _
    rw [needsGroup_printedNumber]
    simp [TightPlace.before, TightPlace.behind, Arg.unnamed]
  | indexed double rest =>
    rw [TightPlace.plug, printed_call (.symbol _) (.unnamed (.const (.number n)) :: rest) (ofCall_index double rfl _),
      ← isSome_level_printedNumber n]
    simp [Form.pieces, TightPlace.before, TightPlace.behind, printedNumber, Arg.unnamed]
  | head args =>
    rw [← isSome_level_printedNumber n]
    rfl

/-! ## Texts -/

namespace TightPlace

variable (place : TightPlace) (quoteNames : Bool) (n : Number)

/-- The text of the call, with this text for the number. -/
def around (text : List Char) : List Char :=
  write (.standard quoteNames) place.before ++ text ++ write (.standard quoteNames) place.behind

/-- The number is written in parentheses. -/
def IsGrouped : Prop :=
  (place.plug (.const (.number n))).print .between (.standard quoteNames) =
    place.around quoteNames ('(' :: n.text .printed ++ [')'])

/-- The number is written as it is. -/
def IsBare : Prop :=
  (place.plug (.const (.number n))).print .between (.standard quoteNames) = place.around quoteNames (n.text .printed)

theorem print_plug : (place.plug (.const (.number n))).print .between (.standard quoteNames) =
    place.around quoteNames (if n.isBelowZero then '(' :: n.text .printed ++ [')'] else n.text .printed) := by
  rw [Node.print, pieces_plug, write_append, write_append, around]
  cases n.isBelowZero <;>
    simp [Printed.grouped, printedNumber, Node.printed, Printed.ofConstant, constant, write, Formatter.standard]

theorem around_injective {cs ds : List Char} (h : place.around quoteNames cs = place.around quoteNames ds) : cs = ds :=
  List.append_cancel_left (List.append_cancel_right h)

/-- A number that is written with a minus sign is put in parentheses, and no other number is. Negative zero alone
has a minus sign and no parentheses. -/
theorem isGrouped_iff :
    (place.IsGrouped quoteNames n ↔ n.hasMinus = true ∧ n ≠ .float .negativeZero) ∧
      (place.IsBare quoteNames n ↔ n.hasMinus = false ∨ n = .float .negativeZero) := by
  have hlonger : n.text .printed ≠ '(' :: n.text .printed ++ [')'] := by
    intro h
    have hlength := congrArg List.length h
    rw [List.length_append, List.length_cons] at hlength
    omega
  have hbelow := n.isBelowZero_iff_hasMinus
  rw [IsGrouped, IsBare, print_plug]
  cases hn : n.isBelowZero with
  | true =>
    have hminus := hbelow.1 hn
    rw [if_pos rfl]
    refine ⟨iff_of_true rfl hminus, iff_of_false (fun h => hlonger (around_injective _ _ h).symm) ?_⟩
    rintro (h | h)
    · exact absurd hminus.1 (by simp [h])
    · exact hminus.2 h
  | false =>
    have hminus : ¬ (n.hasMinus = true ∧ n ≠ .float .negativeZero) := fun h => by
      rw [hbelow.2 h] at hn
      cases hn
    rw [if_neg Bool.false_ne_true]
    refine ⟨iff_of_false (fun h => hlonger (around_injective _ _ h)) hminus, iff_of_true rfl ?_⟩
    by_cases hzero : n = .float .negativeZero
    · exact .inr hzero
    · exact .inl (Bool.eq_false_of_not_eq_true fun h => hminus ⟨h, hzero⟩)

/-- The power of a negative number is not the negation of a power. -/
example : (Node.call (.symbol "^") [.unnamed (.const (.number (.int (-1)))), .unnamed (.symbol "x")]).text =
    "(-1)^x" := by decide

/-- Negative zero raised to a power has the text of the negation of a power of zero. -/
theorem not_grouped_negativeZero : ∃ (place : TightPlace) (n : Number), n.hasMinus = true ∧
    ¬ place.IsGrouped true n ∧ (place.plug (.const (.number n))).text = "-0^x" ∧
    (Node.call (.symbol "-") [.unnamed (.call (.symbol "^") [.unnamed (.const (.number (.int 0))),
      .unnamed (.symbol "x")])]).text = "-0^x" := by
  let caret : TightOperator := ⟨"^", ⟨13, some .right, false⟩, by decide, by decide⟩
  exact ⟨.left caret (.symbol "x") rfl, .float .negativeZero, by decide, by unfold IsGrouped; decide, by decide,
    by decide⟩

end TightPlace

end Print

end Quotation
