import Quotation.Proofs.Print.Between
/-!
# Names of arguments

An argument is written without a group whatever its operator is, so the argument `x = y` may be the
symbol `y` under the name `x`, or a definition without a name. `named` takes it for the former. Two
calls with symbols and operators between symbols as arguments have the same text exactly when
their arguments are the same after that (`text_callOf_eq_iff`). Where no argument is a definition
without a name, names are told apart from values.
-/

namespace Quotation.Print

deriving instance DecidableEq for Token

/-- A name that is written as it is. -/
abbrev SyntacticName := { s : String // Text.isSyntacticName s = true }

/-- A symbol, or an operator of the table between two symbols. -/
inductive Operand where
  | symbol (s : SyntacticName)
  | operator (e : String × Operator) (he : e ∈ binaryTable) (lhs rhs : SyntacticName)

/-- An operand that may have a name. -/
structure Argument where
  name : Option SyntacticName
  value : Operand

def Operand.toNode : Operand → Node
  | symbol s => .symbol s
  | operator e _ lhs rhs => .call (.symbol e.1) [.unnamed (.symbol lhs), .unnamed (.symbol rhs)]

def Argument.toArg (a : Argument) : Arg Node := ⟨a.name.map Subtype.val, a.value.toNode⟩

/-- A call of a symbol. -/
def callOf (f : SyntacticName) (as : List Argument) : Node := .call (.symbol f) (as.map Argument.toArg)

/-! ## Definitions among arguments -/

namespace Argument

/-- Whether the argument is a definition without a name. -/
def isDefinition : Argument → Bool
  | ⟨none, .operator e _ _ _⟩ => e.1 == "="
  | _ => false

/-- Takes a definition without a name for an argument with a name. -/
def named : Argument → Argument
  | ⟨none, .operator e he lhs rhs⟩ =>
    if e.1 == "=" then ⟨some lhs, .symbol rhs⟩ else ⟨none, .operator e he lhs rhs⟩
  | a => a

theorem named_of_not_isDefinition {a : Argument} (h : a.isDefinition = false) : a.named = a := by
  obtain ⟨_ | name, _ | ⟨e, he, lhs, rhs⟩⟩ := a
  case none.operator =>
    have he : (e.1 == "=") = false := h
    rw [named, he]
    rfl
  all_goals rfl

theorem isDefinition_named (a : Argument) : a.named.isDefinition = false := by
  obtain ⟨_ | name, _ | ⟨e, he, lhs, rhs⟩⟩ := a
  case none.operator =>
    rw [named]
    cases hequals : e.1 == "=" with
    | true => rfl
    | false => exact hequals
  all_goals rfl

end Argument

/-! ## Tokens -/

/-- The token of an operator. A definition has the sign of a named argument. -/
def infixToken (e : String × Operator) : Token := if e.1 == "=" then .equals else .operator e.1 e.2.spaced

def Operand.tokens : Operand → List Token
  | symbol s => [.name s]
  | operator e _ lhs rhs => [.name lhs, infixToken e, .name rhs]

def Argument.tokens (a : Argument) : List Token := argTokens (a.name.map Subtype.val) a.value.tokens

theorem infixToken_of_mem : ∀ e ∈ binaryTable, (infixToken e).isReadable = true ∧ (infixToken e).isWord = false ∧
    (infixToken e).text = Formatter.standard true (.operator e.1 e.2.spaced) := by
  decide

theorem infixToken_injective : ∀ e ∈ binaryTable, ∀ e' ∈ binaryTable, infixToken e = infixToken e' → e = e' := by
  decide

theorem spells_name (s : SyntacticName) : Spells [.name s] ((Node.symbol s).printed .between).pieces :=
  spells_symbol (ne_empty_of_isSyntacticName s.2) (no_backslash_of_isSyntacticName s.2)

theorem Operand.spells (v : Operand) : Spells v.tokens (v.toNode.printed .between).pieces := by
  cases v with
  | symbol s => exact spells_name s
  | operator e he lhs rhs =>
    obtain ⟨hreadable, hword, htext⟩ := infixToken_of_mem e he
    rw [Operand.toNode, printed_call (.symbol e.1) [.unnamed (.symbol lhs), .unnamed (.symbol rhs)]
      (ofCall_binary he (isMissing_symbol lhs.2) (isMissing_symbol rhs.2))]
    exact (spells_name lhs).append_cons hreadable hword htext (spells_name rhs)

theorem Argument.spells (a : Argument) :
    Spells a.tokens ((a.toArg.name.map Piece.argName).toList ++ (a.toArg.value.printed .between).pieces) := by
  refine spells_arg (fun s hs => ?_) a.value.spells
  obtain ⟨name, -, rfl⟩ := Option.map_eq_some_iff.1 hs
  exact no_backslash_of_isSyntacticName name.2

/-- The tokens of arguments, with commas between them. -/
def argsTokens (as : List Argument) : List Token := [Token.comma].intercalate (as.map Argument.tokens)

theorem spells_args (as : List Argument) :
    Spells (argsTokens as) (Printed.argList true (Node.printedArgs .between (as.map Argument.toArg))) := by
  induction as with
  | nil => exact .nil
  | cons a as ih =>
    cases as with
    | nil =>
      simp only [argsTokens, List.map_cons, List.map_nil, List.intercalate_singleton]
      exact spells_argList_singleton a.spells
    | cons b bs =>
      have htokens : argsTokens (a :: b :: bs) = a.tokens ++ .comma :: argsTokens (b :: bs) := by
        simp [argsTokens, List.intercalate_cons_cons]
      rw [htokens]
      exact spells_argList_cons a.spells ih

/-- The tokens of a call. -/
def callTokens (f : SyntacticName) (as : List Argument) : List Token :=
  .name f :: .opened :: (argsTokens as ++ [.closed])

theorem spells_callOf (f : SyntacticName) (as : List Argument) :
    Spells (callTokens f as) ((callOf f as).printed .between).pieces := by
  rw [callOf, printed_call (.symbol f) _ (ofCall_symbol f.2 _)]
  exact (spells_name f).append_cons rfl rfl rfl ((spells_args as).append_cons rfl rfl rfl .nil)

/-! ## What the tokens tell -/

theorem infixToken_ne_comma (e : String × Operator) : Token.comma ≠ infixToken e := by
  unfold infixToken
  split <;> nofun

theorem Argument.comma_not_mem_tokens (a : Argument) : Token.comma ∉ a.tokens := by
  obtain ⟨_ | name, _ | ⟨e, he, lhs, rhs⟩⟩ := a <;>
    simp [Argument.tokens, argTokens, Operand.tokens, infixToken_ne_comma]

theorem Argument.tokens_ne_nil (a : Argument) : a.tokens ≠ [] := by
  obtain ⟨_ | name, _ | ⟨e, he, lhs, rhs⟩⟩ := a <;> nofun

theorem argsTokens_cons_ne_nil (a : Argument) (as : List Argument) : argsTokens (a :: as) ≠ [] := by
  obtain ⟨t, ts, htokens⟩ := List.exists_cons_of_ne_nil a.tokens_ne_nil
  cases as with
  | nil => simp [argsTokens, htokens]
  | cons b bs => simp [argsTokens, htokens, List.intercalate_cons_cons]

/-- The commas tell the arguments apart. -/
theorem splitOn_argsTokens {as : List Argument} (has : as ≠ []) :
    (argsTokens as).splitOn .comma = as.map Argument.tokens := by
  refine List.splitOn_intercalate _ (fun ts hts => ?_) (by simpa using has)
  obtain ⟨a, -, rfl⟩ := List.mem_map.1 hts
  exact a.comma_not_mem_tokens

theorem argsTokens_inj {as bs : List Argument} (h : argsTokens as = argsTokens bs) :
    as.map Argument.tokens = bs.map Argument.tokens := by
  cases as with
  | nil =>
    cases bs with
    | nil => rfl
    | cons b bs => exact absurd h.symm (argsTokens_cons_ne_nil b bs)
  | cons a as =>
    cases bs with
    | nil => exact absurd h (argsTokens_cons_ne_nil a as)
    | cons b bs => rw [← splitOn_argsTokens (List.cons_ne_nil a as), h, splitOn_argsTokens (List.cons_ne_nil b bs)]

/-- A definition without a name has the tokens of the argument it is taken for. -/
theorem Argument.tokens_named (a : Argument) : a.named.tokens = a.tokens := by
  obtain ⟨_ | name, _ | ⟨e, he, lhs, rhs⟩⟩ := a
  case none.operator =>
    rw [named]
    cases hequals : e.1 == "=" with
    | true => simp [tokens, argTokens, Operand.tokens, infixToken, hequals]
    | false => rfl
  all_goals rfl

theorem infixToken_ne_equals {e : String × Operator} (h : (e.1 == "=") = false) : infixToken e ≠ .equals := by
  rw [infixToken, h]
  nofun

theorem Operand.eq_of_tokens_eq {v w : Operand} (h : v.tokens = w.tokens) : v = w := by
  cases v with
  | symbol s =>
    cases w with
    | symbol t =>
      obtain rfl : s = t := by simpa [tokens, Subtype.ext_iff] using h
      rfl
    | operator => simp [tokens] at h
  | operator e he lhs rhs =>
    cases w with
    | symbol => simp [tokens] at h
    | operator e' he' lhs' rhs' =>
      obtain ⟨rfl, hinfix, rfl⟩ : lhs = lhs' ∧ infixToken e = infixToken e' ∧ rhs = rhs' := by
        simpa [tokens, Subtype.ext_iff] using h
      obtain rfl := infixToken_injective e he e' he' hinfix
      rfl

/-- Only a definition without a name looks like an argument with a name. -/
theorem Operand.isDefinition_of_tokens_eq {v : Operand} {name : String} {ts : List Token}
    (h : v.tokens = .name name :: .equals :: ts) : (Argument.mk none v).isDefinition = true := by
  cases v with
  | symbol s => simp [tokens] at h
  | operator e he lhs rhs =>
    have hinfix : infixToken e = .equals := by
      simp only [tokens, List.cons.injEq] at h
      exact h.2.1
    by_contra hequals
    exact infixToken_ne_equals (by simpa [Argument.isDefinition] using hequals) hinfix

/-- Other arguments are told apart by their tokens. -/
theorem Argument.eq_of_tokens_eq {a b : Argument} (ha : a.isDefinition = false) (hb : b.isDefinition = false)
    (h : a.tokens = b.tokens) : a = b := by
  obtain ⟨_ | name, v⟩ := a <;> obtain ⟨_ | name', w⟩ := b
  case none.none =>
    obtain rfl : v = w := Operand.eq_of_tokens_eq h
    rfl
  case none.some =>
    rw [Operand.isDefinition_of_tokens_eq h] at ha
    cases ha
  case some.none =>
    rw [Operand.isDefinition_of_tokens_eq h.symm] at hb
    cases hb
  case some.some =>
    obtain ⟨rfl, hvalue⟩ : name = name' ∧ v.tokens = w.tokens := by
      simpa [tokens, argTokens, Subtype.ext_iff] using h
    rw [Operand.eq_of_tokens_eq hvalue]

theorem Argument.tokens_eq_iff {a b : Argument} : a.tokens = b.tokens ↔ a.named = b.named := by
  rw [← a.tokens_named, ← b.tokens_named]
  exact ⟨Argument.eq_of_tokens_eq a.isDefinition_named b.isDefinition_named, congrArg _⟩

theorem map_tokens_eq_iff {as bs : List Argument} :
    as.map Argument.tokens = bs.map Argument.tokens ↔ as.map Argument.named = bs.map Argument.named := by
  induction as generalizing bs with
  | nil => cases bs <;> simp
  | cons a as ih => cases bs <;> simp [Argument.tokens_eq_iff, ih]

theorem map_named {as : List Argument} (h : ∀ a ∈ as, a.isDefinition = false) : as.map Argument.named = as :=
  (List.map_congr_left fun a ha => Argument.named_of_not_isDefinition (h a ha)).trans (List.map_id' as)

/-! ## Texts of calls -/

theorem print_callOf (f : SyntacticName) (as : List Argument) :
    (callOf f as).print .between (.standard true) = textOf (callTokens f as) :=
  (spells_callOf f as).text.symm

/-- Two calls of a symbol have the same text exactly when their arguments are the same with every definition
without a name taken for an argument with a name. So where there is no such definition the text tells
the arguments and their names. -/
theorem text_callOf_eq_iff (f : SyntacticName) (as bs : List Argument) :
    ((callOf f as).text = (callOf f bs).text ↔ as.map Argument.named = bs.map Argument.named) ∧
      ((∀ a ∈ as, a.isDefinition = false) → (∀ b ∈ bs, b.isDefinition = false) →
        (callOf f as).text = (callOf f bs).text → as = bs) := by
  have htext : (callOf f as).text = (callOf f bs).text ↔ as.map Argument.named = bs.map Argument.named := by
    rw [text_eq_iff_print_eq, print_callOf, print_callOf, ← map_tokens_eq_iff]
    refine ⟨fun h => ?_, fun h => ?_⟩
    · have htokens := eq_of_textOf_eq (spells_callOf f as).lexical (spells_callOf f bs).lexical h
      simp only [callTokens, List.cons.injEq, true_and, List.append_cancel_right_eq] at htokens
      exact argsTokens_inj htokens
    · rw [callTokens, callTokens, argsTokens, argsTokens, h]
  refine ⟨htext, fun ha hb h => ?_⟩
  rw [← map_named ha, ← map_named hb, htext.1 h]

/-- A name before a symbol, an operator without blanks, and a name before a definition. -/
theorem text_callOf_eq_iff_named : ∃ f as bs, (∀ a ∈ as, a.isDefinition = false) ∧
    (∀ b ∈ bs, b.isDefinition = false) ∧ (callOf f as).text = "f(x = y, x:y, z = x = y)" ∧
    (callOf f bs).text = (callOf f as).text ∧ as = bs := by
  let x : SyntacticName := ⟨"x", by decide⟩
  let y : SyntacticName := ⟨"y", by decide⟩
  let range : Operand := .operator (":", ⟨11, some .left, false⟩) (by decide) x y
  let definition : Operand := .operator ("=", ⟨2, some .right, true⟩) (by decide) x y
  let as : List Argument := [⟨some x, .symbol y⟩, ⟨none, range⟩, ⟨some ⟨"z", by decide⟩, definition⟩]
  have has : ∀ a ∈ as, a.isDefinition = false := by decide
  let f : SyntacticName := ⟨"f", by decide⟩
  exact ⟨f, as, as, has, has, by decide, rfl, (text_callOf_eq_iff f as as).2 has has rfl⟩

/-- The text does not tell whether there is a name. -/
theorem not_named_of_text_callOf_eq : ∃ f as bs, (callOf f as).text = "f(x = y)" ∧
    (callOf f bs).text = (callOf f as).text ∧ as.map Argument.name ≠ bs.map Argument.name := by
  let x : SyntacticName := ⟨"x", by decide⟩
  let y : SyntacticName := ⟨"y", by decide⟩
  let definition : Operand := .operator ("=", ⟨2, some .right, true⟩) (by decide) x y
  exact ⟨⟨"f", by decide⟩, [⟨some x, .symbol y⟩], [⟨none, definition⟩], by decide, by decide, nofun⟩

end Quotation.Print
