import Quotation.Proofs.Print.Reader
/-!
# Operators in front

With operators in front of their operands, every call is a head with its arguments in
parentheses. Any name may then stand at a head or among the arguments, in backticks if it
is not syntactic, and a tree can be told from its text (`eq_of_print_front`).

Left out are doubles, whose texts are not read here, and names with a backslash, which is
written as it is. Left out are also two texts that are those of other trees: an argument
list of one missing argument looks empty, and a call of `pairlist` looks like an argument
list.
-/

namespace Quotation.Print

/-- Arguments whose names have no backslash, and which are not one missing argument alone. -/
structure CallArgs (args : List (Arg Node)) : Prop where
  names : ∀ a ∈ args, ∀ s ∈ a.name, '\\' ∉ s.toList
  some : args ≠ [.unnamed .missing]

/-- The nodes that can be told from their text with operators in front. -/
inductive CallTree : Node → Prop where
  | null : CallTree (.const .null)
  | bool (b : Bool) : CallTree (.const (.bool b))
  | int (n : Int64) : CallTree (.const (.number (.int n)))
  | string (s : String) : CallTree (.const (.string s))
  | missing : CallTree .missing
  | symbol {name : String} (hne : name ≠ "") (hname : '\\' ∉ name.toList) : CallTree (.symbol name)
  | pairlist {args : List (Arg Node)} (hargs : CallArgs args) (hvalues : ∀ a ∈ args, CallTree a.value) :
    CallTree (.pairlist args)
  | call {name : String} {args : List (Arg Node)} (hne : name ≠ "") (hname : '\\' ∉ name.toList)
    (hlist : name ≠ "pairlist") (hargs : CallArgs args) (hvalues : ∀ a ∈ args, CallTree a.value) :
    CallTree (.call (.symbol name) args)
  | curried {head : Node} {inner args : List (Arg Node)} (hhead : CallTree (.call head inner)) (hargs : CallArgs args)
    (hvalues : ∀ a ∈ args, CallTree a.value) : CallTree (.call (.call head inner) args)

/-! ## Reading trees -/

theorem neg_ofNat_natAbs {n : Int64} (h : n.toInt < 0) : -Int64.ofNat n.toInt.natAbs = n := by
  rw [Int64.neg_ofNat, show -(n.toInt.natAbs : Int) = n.toInt by omega, Int64.ofInt_toInt]

/-- The sign of a negative integer waits for the digits. -/
theorem readable_int (n : Int64) : Readable .front (.const (.number (.int n))) := by
  by_cases h : n.toInt < 0
  · refine ⟨intTokens n, spells_int n, fun fs hfloor => ?_⟩
    rw [intTokens, if_pos h]
    refine ⟨⟨.sign "-" :: fs, some (.const (.number (.int (Int64.ofNat n.toInt.natAbs))))⟩, rfl, ?_⟩
    have hsigned : Placement.signed .front "-" (.const (.number (.int (Int64.ofNat n.toInt.natAbs)))) =
        .const (.number (.int n)) := by
      rw [Placement.signed, neg_ofNat_natAbs h]
    rw [settled_some, settle_sign (by decide), hsigned, settle_of_floor_le (Nat.le_of_eq hfloor)]
  · exact (isOperand_int (Int.not_lt.1 h)).readable

/-- The missing argument is what is read where nothing is written. -/
theorem readable_missing : Readable .front .missing :=
  ⟨[], ⟨.nil, rfl⟩, fun _ hfloor => ⟨_, rfl, settle_of_floor_le (Nat.le_of_eq hfloor) _⟩⟩

/-- The word that begins a list. -/
theorem spells_pairlist : Spells [.name "pairlist"] [.text "pairlist"] := by
  have hname : Text.isSyntacticName "pairlist" = true := by decide
  refine ⟨.singleton (by decide), ?_⟩
  simp [textOf, Token.text, write, Formatter.standard, Text.writeName, hname]

theorem reads_pairlist : Reads .front [.name "pairlist"] (.symbol "pairlist") := fun _ => rfl

theorem CallArgs.readable {args : List (Arg Node)} (hargs : CallArgs args) (h : ∀ a ∈ args, Readable .front a.value) :
    ∀ a ∈ args, ArgReadable .front a := fun a ha => ⟨hargs.names a ha, h a ha⟩

/-- A tree can be read back, and a call, which may be a head, as one operand. -/
theorem CallTree.readable {n : Node} (h : CallTree n) :
    Readable .front n ∧ (n.isCall = true → IsOperand .front n) := by
  induction h with
  | null => exact ⟨isOperand_null.readable, nofun⟩
  | bool b => exact ⟨(isOperand_bool b).readable, nofun⟩
  | int n => exact ⟨readable_int n, nofun⟩
  | string s => exact ⟨(isOperand_string s).readable, nofun⟩
  | missing => exact ⟨readable_missing, nofun⟩
  | symbol hne hname => exact ⟨(isOperand_symbol hne hname).readable, nofun⟩
  | @pairlist args hargs hvalues ih =>
    have hlist : IsOperand .front (.pairlist args) :=
      reads_call spells_pairlist reads_pairlist (hargs.readable fun a ha => (ih a ha).1) hargs.some
    exact ⟨hlist.readable, fun _ => hlist⟩
  | @call name args hne hname hlist hargs hvalues ih =>
    obtain ⟨hs, hspells, hread⟩ := isOperand_symbol hne hname
    have hcall := reads_call hspells hread (hargs.readable fun a ha => (ih a ha).1) hargs.some
    rw [Placement.calling, if_neg (by simpa using hlist)] at hcall
    have hcall : IsOperand .front (.call (.symbol name) args) := hcall
    exact ⟨hcall.readable, fun _ => hcall⟩
  | @curried head inner args hhead hargs hvalues ihh ih =>
    obtain ⟨hs, hspells, hread⟩ := ihh.2 rfl
    have hcall : IsOperand .front (.call (.call head inner) args) :=
      reads_call hspells hread (hargs.readable fun a ha => (ih a ha).1) hargs.some
    exact ⟨hcall.readable, fun _ => hcall⟩

/-- With operators in front, trees with the same text are equal. -/
theorem eq_of_print_front {a b : Node} (ha : CallTree a) (hb : CallTree b)
    (h : a.print .front (.standard true) = b.print .front (.standard true)) : a = b :=
  eq_of_print_eq ha.readable.1 hb.readable.1 h

/-- A call of a call, with names in backticks, an escape, a sign and nothing between commas. -/
theorem eq_of_print_front_quoted : ∃ a b, CallTree a ∧ CallTree b ∧
    a.print .front (.standard true) = "`f g`(`` = -1, , x = \"\\n\")(pairlist())".toList ∧
    b.print .front (.standard true) = a.print .front (.standard true) ∧ a = b := by
  let args : List (Arg Node) :=
    [.named "" (.const (.number (.int (-1)))), .unnamed .missing, .named "x" (.const (.string "\n"))]
  let n : Node := .call (.call (.symbol "f g") args) [.unnamed (.pairlist [])]
  have hargs : CallArgs args := ⟨by decide, by decide⟩
  have hn : CallTree n := by
    refine .curried (.call (by decide) (by decide) (by decide) hargs ?_) ⟨by decide, by decide⟩ ?_
    · exact List.forall_mem_cons.2 ⟨.int _, List.forall_mem_cons.2 ⟨.missing, List.forall_mem_cons.2 ⟨.string _, nofun⟩⟩⟩
    · exact List.forall_mem_cons.2 ⟨.pairlist ⟨nofun, nofun⟩ nofun, nofun⟩
  exact ⟨n, n, hn, hn, by decide, rfl, eq_of_print_front hn hn rfl⟩

example : (Node.call (.symbol "f") [.unnamed .missing]).print .front (.standard true) =
    (Node.call (.symbol "f") []).print .front (.standard true) := rfl

end Quotation.Print
