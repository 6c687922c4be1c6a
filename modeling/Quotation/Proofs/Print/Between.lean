import Quotation.Proofs.Number.Sign
import Quotation.Proofs.Print.Reader
/-!
# Operators between operands

Trees of operators and calls can be told from their text (`eq_of_text_eq`): the printer groups
an operand wherever the reader would take it apart. The reason is one fact about an operand
of some level without a group (`Absorbed`). Its operators are settled by an operator that
may have it on the left, and they stay together below one that may have it on the right.
-/

namespace Quotation.Print

/-- Trees of operators of the table, signs and calls, over symbols with syntactic names and
constants. A definition with `=` is left out, which in an argument looks like a name. -/
inductive OperatorTree : Node → Prop where
  | null : OperatorTree (.const .null)
  | bool (b : Bool) : OperatorTree (.const (.bool b))
  | int {n : Int64} (h : 0 ≤ n.toInt) : OperatorTree (.const (.number (.int n)))
  | string (s : String) : OperatorTree (.const (.string s))
  | symbol {name : String} (hname : Text.isSyntacticName name = true) : OperatorTree (.symbol name)
  | binary {name : String} {op : Operator} {lhs rhs : Node} (hop : (name, op) ∈ binaryTable) (hequals : name ≠ "=")
    (hlhs : OperatorTree lhs) (hrhs : OperatorTree rhs) :
    OperatorTree (.call (.symbol name) [.unnamed lhs, .unnamed rhs])
  | unary {sign : String} {operand : Node} (hsign : sign = "-" ∨ sign = "+") (hoperand : OperatorTree operand) :
    OperatorTree (.call (.symbol sign) [.unnamed operand])
  | call {name : String} {args : List (Arg Node)} (hname : Text.isSyntacticName name = true)
    (hnames : ∀ a ∈ args, ∀ s ∈ a.name, Text.isSyntacticName s = true) (hvalues : ∀ a ∈ args, OperatorTree a.value) :
    OperatorTree (.call (.symbol name) args)
  | curried {head : Node} {inner args : List (Arg Node)} (hhead : OperatorTree (.call head inner))
    (hnames : ∀ a ∈ args, ∀ s ∈ a.name, Text.isSyntacticName s = true) (hvalues : ∀ a ∈ args, OperatorTree a.value) :
    OperatorTree (.call (.call head inner) args)

/-! ## Names -/

theorem ne_empty_of_isSyntacticName {name : String} (h : Text.isSyntacticName name = true) : name ≠ "" := by
  rintro rfl
  exact absurd h (by decide)

theorem no_backslash_of_isSyntacticName {name : String} (h : Text.isSyntacticName name = true) :
    '\\' ∉ name.toList := by
  intro hmem
  have hpart := (characters_of_isNameText h).2 _ hmem
  exact absurd hpart (by decide)

theorem isMissing_symbol {name : String} (hname : Text.isSyntacticName name = true) :
    ((Node.symbol name).printed .between).isMissing = false := by
  simpa [Node.printed, Printed.ofSymbol, Printed.isMissing] using ne_empty_of_isSyntacticName hname

/-- A syntactic name is written as it is. -/
theorem print_symbol {name : String} (hname : Text.isSyntacticName name = true) :
    (Node.symbol name).print .between (.standard true) = name.toList := by
  rw [print_named (ne_empty_of_isSyntacticName hname), Text.writeName, if_pos hname]

/-- Two nodes have the same text when they are written alike. -/
theorem text_eq_iff_print_eq {a b : Node} :
    a.text = b.text ↔ a.print .between (.standard true) = b.print .between (.standard true) :=
  ⟨fun h => String.ofList_injective h, fun h => congrArg String.ofList h⟩

/-! ## The table of operators -/

theorem binaryOperator?_of_mem : ∀ e ∈ binaryTable, binaryOperator? e.1 = some e.2 := by decide

theorem isReadable_of_mem : ∀ e ∈ binaryTable, e.1 ≠ "=" → (Token.operator e.1 e.2.spaced).isReadable = true := by
  decide

theorem level_of_mem : ∀ e ∈ binaryTable, 0 < e.2.level ∧ e.2.level ≠ negationLevel := by decide

/-- Operators of one level take operands of that level on the same side. -/
theorem side_eq_of_mem : ∀ e ∈ binaryTable, ∀ e' ∈ binaryTable, e.2.level = e'.2.level → e.2.side = e'.2.side := by
  decide

/-! ## The forms of calls -/

/-- The names of calls with a notation that is not that of an operator. -/
def specialNames : List String := ["(", "\x7b", "if", "function", "[", "[["]

theorem special?_eq_none {name : String} (h : name ∉ specialNames) (args : List (Arg Printed)) :
    Form.special? name args = none := by
  unfold Form.special?
  split
  all_goals first | rfl | exact absurd (by decide) h

theorem lookup_eq_none {α : Type} {table : List (String × α)} {name : String}
    (htable : ∀ e ∈ table, Text.isSyntacticName e.1 = false) (hname : Text.isSyntacticName name = true) :
    table.lookup name = none := by
  rw [List.lookup_eq_none_iff]
  intro e he
  rw [bne_iff_ne]
  rintro rfl
  rw [htable e he] at hname
  cases hname

theorem binaryOperator?_eq_none {name : String} (h : Text.isSyntacticName name = true) :
    binaryOperator? name = none := by
  have hpercent : isPercentName name = false := by
    unfold isPercentName
    split
    · rename_i rest hname
      have hpart := (characters_of_isNameText h).2 '%' (by rw [hname]; exact List.mem_cons_self)
      exact absurd hpart (by decide)
    · rfl
  rw [binaryOperator?, lookup_eq_none (by decide) h, hpercent]
  rfl

theorem unaryLevel?_eq_none {name : String} (h : Text.isSyntacticName name = true) : unaryLevel? name = none :=
  lookup_eq_none (by decide) h

/-- A call of a syntactic name has no notation of its own. -/
theorem ofCall_symbol {name : String} (h : Text.isSyntacticName name = true) (args : List (Arg Printed)) :
    Form.ofCall .between (.ofSymbol name) args = .call (.ofSymbol name) args := by
  have hspecial : name ∉ specialNames := by
    have hnames : ∀ word ∈ specialNames, Text.isSyntacticName word = false := by decide
    intro hmem
    rw [hnames name hmem] at h
    cases h
  have hoperator : Form.operator? name args = none := by
    unfold Form.operator?
    split
    · split
      · rw [binaryOperator?_eq_none h]
        rfl
      · rw [unaryLevel?_eq_none h]
        rfl
      · rfl
    · rfl
  simp only [Form.ofCall, Printed.ofSymbol, special?_eq_none hspecial, hoperator]
  rfl

theorem ofCall_binary {name : String} {op : Operator} {lhs rhs : Printed} (hop : (name, op) ∈ binaryTable)
    (hlhs : lhs.isMissing = false) (hrhs : rhs.isMissing = false) :
    Form.ofCall .between (.ofSymbol name) [.unnamed lhs, .unnamed rhs] = .binary name op lhs rhs := by
  have hspecial : ∀ e ∈ binaryTable, e.1 ∉ specialNames := by decide
  have hoperator : Form.operator? name [.unnamed lhs, .unnamed rhs] = some (.binary name op lhs rhs) := by
    simp [Form.operator?, Form.isPlain, Arg.unnamed, hlhs, hrhs, binaryOperator?_of_mem _ hop]
  simp only [Form.ofCall, Printed.ofSymbol, special?_eq_none (hspecial _ hop), hoperator]
  rfl

theorem ofCall_unary {sign : String} {level : Nat} {operand : Printed} (hsign : (sign, level) ∈ unaryTable)
    (hoperand : operand.isMissing = false) :
    Form.ofCall .between (.ofSymbol sign) [.unnamed operand] = .unary sign level operand := by
  have hspecial : ∀ e ∈ unaryTable, e.1 ∉ specialNames ∧ unaryLevel? e.1 = some e.2 := by decide
  obtain ⟨hspecial, hlevel⟩ := hspecial _ hsign
  have hoperator : Form.operator? sign [.unnamed operand] = some (.unary sign level operand) := by
    simp [Form.operator?, Form.isPlain, Arg.unnamed, hoperand, hlevel]
  simp only [Form.ofCall, Printed.ofSymbol, special?_eq_none hspecial, hoperator]
  rfl

theorem OperatorTree.not_missing {n : Node} (h : OperatorTree n) : (n.printed .between).isMissing = false := by
  cases h with
  | symbol hname => exact isMissing_symbol hname
  | null | bool | int | string | binary | unary | call | curried => rfl

/-! ## Operands -/

/-- The tokens of an operand, in a group if it needs one. -/
def groupTokens (ts : List Token) (group : Bool) : List Token :=
  if group then .opened :: ts ++ [.closed] else ts

theorem Spells.grouped {ts : List Token} {n : Printed} (h : Spells ts n.pieces) (group : Bool) :
    Spells (groupTokens ts group) (n.grouped group) := by
  cases group with
  | false => exact h
  | true => exact Spells.nil.append_cons rfl rfl rfl (h.append_cons rfl rfl rfl .nil)

/-- An operand of a level is settled below the bound: at its own level too, if an operator
of that level may have it on the left. -/
structure SettledBelow (level bound : Nat) : Prop where
  pos : 0 < bound
  le : level ≤ bound
  left : ∀ e ∈ binaryTable, e.2.level = level → e.2.side = some .left → level < bound

/-- Inside of operators that wait for an operand of such a level, the tokens are read as
the node, once what binds tighter than a level below the bound is settled. -/
def Absorbed (ts : List Token) (n : Node) (level bound : Nat) : Prop :=
  ∀ fs, floor fs ≤ level → ∃ gs m, Reader.run .between ⟨fs, none⟩ ts = some ⟨gs, some m⟩ ∧
    ∀ q < bound, settle .between q gs m = settle .between q fs n

/-- How tokens are read as a node, by the level of its outermost operator. -/
def ReadsAs (ts : List Token) (n : Node) : Option Nat → Prop
  | none => Reads .between ts n
  | some level => ∃ bound, SettledBelow level bound ∧ Absorbed ts n level bound

theorem ReadsAs.settles {ts : List Token} {n : Node} {level : Option Nat} (h : ReadsAs ts n level) :
    Settles .between ts n := by
  cases level with
  | none => exact Reads.settles h
  | some level =>
    obtain ⟨bound, hbound, habsorbed⟩ := h
    intro fs hfloor
    obtain ⟨gs, m, hrun, hsettle⟩ := habsorbed fs (by omega)
    exact ⟨⟨gs, some m⟩, hrun, by
      rw [settled_some, hsettle 0 hbound.pos, settle_of_floor_le (Nat.le_of_eq hfloor)]⟩

theorem Settles.reads_group {p : Placement} {ts : List Token} {n : Node} (h : Settles p ts n) :
    Reads p (groupTokens ts true) n := by
  intro fs
  obtain ⟨r, hrun, hsettled⟩ := h (.group :: fs) rfl
  have hclosed : r.closed p = some ⟨fs, some n⟩ := by
    unfold Reader.closed
    split
    · rename_i hframes _
      rw [Reader.settled, hframes] at hsettled
      cases hsettled
    · rw [hsettled]
  show Reader.run p ⟨.group :: fs, none⟩ (ts ++ [.closed]) = _
  rw [Reader.run_append, hrun]
  show (r.closed p).bind _ = _
  rw [hclosed]
  rfl

/-- An operand is read in a group, or without one if nothing that waits takes it apart. -/
theorem ReadsAs.operand {ts : List Token} {n : Node} {level : Option Nat} (h : ReadsAs ts n level) (group : Bool)
    (fs : List Frame) (limit : Nat)
    (hgroup : group = false → ∀ l ∈ level, floor fs ≤ l ∧ ∀ bound, SettledBelow l bound → limit ≤ bound) :
    ∃ gs m, Reader.run .between ⟨fs, none⟩ (groupTokens ts group) = some ⟨gs, some m⟩ ∧
      ∀ q < limit, settle .between q gs m = settle .between q fs n := by
  cases group with
  | true => exact ⟨fs, n, h.settles.reads_group fs, fun _ _ => rfl⟩
  | false =>
    cases level with
    | none => exact ⟨fs, n, h fs, fun _ _ => rfl⟩
    | some level =>
      obtain ⟨bound, hbound, habsorbed⟩ := h
      obtain ⟨hfloor, hlimit⟩ := hgroup rfl level rfl
      obtain ⟨gs, m, hrun, hsettle⟩ := habsorbed fs hfloor
      exact ⟨gs, m, hrun, fun q hq => hsettle q (Nat.lt_of_lt_of_le hq (hlimit bound hbound))⟩

/-! ## Operators -/

theorem needsGroup_eq_false {n : Printed} {op : Operator} {side : Side} (h : n.needsGroup op side = false) :
    ∀ l ∈ n.level, op.level ≤ l ∧ (l = op.level → op.side = some side) := by
  intro l hl
  rw [Option.mem_def] at hl
  simp only [Printed.needsGroup, hl, Bool.or_eq_false_iff, decide_eq_false_iff_not, Nat.not_lt, Bool.and_eq_false_iff,
    beq_eq_false_iff_ne, bne_eq_false_iff_eq] at h
  exact ⟨h.1, fun heq => h.2.resolve_left fun hne => hne heq⟩

theorem Operator.level_le_limit (op : Operator) : op.level ≤ op.limit := by
  unfold Operator.limit
  split <;> omega

theorem settledBelow_limit {name : String} {op : Operator} (hop : (name, op) ∈ binaryTable) :
    SettledBelow op.level op.limit where
  pos := Nat.lt_of_lt_of_le (level_of_mem _ hop).1 op.level_le_limit
  le := op.level_le_limit
  left := by
    intro e he hlevel hside
    have hleft : op.side = some .left := (side_eq_of_mem _ hop _ he hlevel.symm).trans hside
    rw [Operator.limit, hleft, if_neg (by decide)]
    exact Nat.lt_succ_self _

theorem settledBelow_negationLevel : SettledBelow negationLevel negationLevel where
  pos := by decide
  le := Nat.le_refl _
  left := fun e he hlevel => absurd hlevel (level_of_mem e he).2

/-- An operand without a group on the left is settled by the operator. -/
theorem lt_bound_of_left {name : String} {op : Operator} {n : Printed} (hop : (name, op) ∈ binaryTable)
    (h : n.needsGroup op .left = false) {l bound : Nat} (hl : l ∈ n.level) (hbound : SettledBelow l bound) :
    op.level < bound := by
  obtain ⟨hle, hside⟩ := needsGroup_eq_false h l hl
  rcases Nat.lt_or_eq_of_le hle with hlt | heq
  · exact Nat.lt_of_lt_of_le hlt hbound.le
  · exact heq ▸ hbound.left _ hop heq (hside heq.symm)

/-- An operand without a group on the right stays together after the operator. -/
theorem limit_le_of_right {op : Operator} {n : Printed} (h : n.needsGroup op .right = false) {l : Nat}
    (hl : l ∈ n.level) : op.limit ≤ l := by
  obtain ⟨hle, hside⟩ := needsGroup_eq_false h l hl
  unfold Operator.limit
  split
  · exact hle
  · rename_i hnot
    exact Nat.lt_of_le_of_ne hle fun heq => hnot (hside heq.symm)

theorem reads_binary {name : String} {op : Operator} {ls rs : List Token} {lhs rhs : Node} {l r : Printed}
    (hop : (name, op) ∈ binaryTable) (hlhs : ReadsAs ls lhs l.level) (hrhs : ReadsAs rs rhs r.level) :
    ReadsAs (groupTokens ls (l.needsGroup op .left) ++
      .operator name op.spaced :: groupTokens rs (r.needsGroup op .right))
      (.call (.symbol name) [.unnamed lhs, .unnamed rhs]) (some op.level) := by
  refine ⟨op.limit, settledBelow_limit hop, fun fs hfloor => ?_⟩
  obtain ⟨gs, m, hrun, hsettle⟩ := hlhs.operand (l.needsGroup op .left) fs (op.level + 1) fun hgroup level hlevel =>
    ⟨Nat.le_trans hfloor (needsGroup_eq_false hgroup level hlevel).1, fun _ => lt_bound_of_left hop hgroup hlevel⟩
  have hoperator : Reader.operator .between name ⟨gs, some m⟩ = some ⟨.operator lhs name op :: fs, none⟩ := by
    show (binaryOperator? name).map _ = _
    rw [binaryOperator?_of_mem _ hop, Option.map_some, hsettle _ (Nat.lt_succ_self _), settle_of_floor_le hfloor]
  -- The operator itself now waits for the operand on the right, so the floor is its limit.
  obtain ⟨gs', m', hrun', hsettle'⟩ := hrhs.operand (r.needsGroup op .right) (.operator lhs name op :: fs) op.limit
    fun hgroup level hlevel =>
      have hlimit : op.limit ≤ level := limit_le_of_right hgroup hlevel
      ⟨hlimit, fun _ hbound => Nat.le_trans hlimit hbound.le⟩
  refine ⟨gs', m', ?_, fun q hq => by rw [hsettle' q hq, settle_operator hq]⟩
  rw [Reader.run_append, hrun]
  show (Reader.operator .between name ⟨gs, some m⟩).bind _ = _
  rw [hoperator]
  exact hrun'

theorem reads_unary {sign : String} {ts : List Token} {operand : Node} {n : Printed}
    (h : ReadsAs ts operand n.level) :
    ReadsAs (.operator sign false :: groupTokens ts (n.level.any (· < negationLevel)))
      (.call (.symbol sign) [.unnamed operand]) (some negationLevel) := by
  refine ⟨negationLevel, settledBelow_negationLevel, fun fs _ => ?_⟩
  obtain ⟨gs, m, hrun, hsettle⟩ := h.operand (n.level.any (· < negationLevel)) (.sign sign :: fs) negationLevel <| by
    intro hgroup level hlevel
    rw [Option.mem_def] at hlevel
    have hle : negationLevel ≤ level := by simpa [hlevel] using hgroup
    exact ⟨hle, fun bound hbound => Nat.le_trans hle hbound.le⟩
  exact ⟨gs, m, hrun, fun q hq => by rw [hsettle q hq, settle_sign hq]; rfl⟩

/-! ## Trees -/

theorem ReadsAs.reads_head {ts : List Token} {n : Node} {level : Option Nat} (h : ReadsAs ts n level) :
    Reads .between (groupTokens ts level.isSome) n := by
  cases level with
  | none => exact h
  | some level => exact h.settles.reads_group

/-- The node has tokens that are read as it. -/
def IsRead (n : Node) : Prop := ∃ ts, Spells ts (n.printed .between).pieces ∧ ReadsAs ts n (n.printed .between).level

theorem IsRead.of_isOperand {n : Node} (h : IsOperand .between n) (hlevel : (n.printed .between).level = none) :
    IsRead n := by
  obtain ⟨ts, hts, hread⟩ := h
  exact ⟨ts, hts, hlevel ▸ hread⟩

theorem IsRead.readable {n : Node} : IsRead n → Readable .between n :=
  fun ⟨ts, hts, hread⟩ => ⟨ts, hts, hread.settles⟩

theorem printed_call (head : Node) (args : List (Arg Node)) {form : Form}
    (h : Form.ofCall .between (head.printed .between) (Node.printedArgs .between args) = form) :
    (Node.call head args).printed .between = ⟨none, form.level, none, form.pieces⟩ := by
  subst h
  rfl

theorem isRead_symbol {name : String} (hname : Text.isSyntacticName name = true) : IsRead (.symbol name) :=
  .of_isOperand (isOperand_symbol (ne_empty_of_isSyntacticName hname) (no_backslash_of_isSyntacticName hname)) rfl

theorem isRead_binary {name : String} {op : Operator} {lhs rhs : Node} (hop : (name, op) ∈ binaryTable)
    (hequals : name ≠ "=") (hlhs : OperatorTree lhs) (hrhs : OperatorTree rhs) (hl : IsRead lhs) (hr : IsRead rhs) :
    IsRead (.call (.symbol name) [.unnamed lhs, .unnamed rhs]) := by
  obtain ⟨ls, hls, hlreads⟩ := hl
  obtain ⟨rs, hrs, hrreads⟩ := hr
  rw [IsRead, printed_call (.symbol name) [.unnamed lhs, .unnamed rhs]
    (ofCall_binary hop hlhs.not_missing hrhs.not_missing)]
  exact ⟨_, (hls.grouped _).append_cons (isReadable_of_mem _ hop hequals) rfl rfl (hrs.grouped _),
    reads_binary hop hlreads hrreads⟩

theorem isRead_unary {sign : String} {operand : Node} (hsign : sign = "-" ∨ sign = "+")
    (hoperand : OperatorTree operand) (h : IsRead operand) : IsRead (.call (.symbol sign) [.unnamed operand]) := by
  obtain ⟨ts, hts, hread⟩ := h
  have hsign : (sign, negationLevel) ∈ unaryTable ∧ (Token.operator sign false).isReadable = true := by
    rcases hsign with rfl | rfl <;> decide
  obtain ⟨htable, hreadable⟩ := hsign
  rw [IsRead, printed_call (.symbol sign) [.unnamed operand] (ofCall_unary htable hoperand.not_missing)]
  exact ⟨_, Spells.nil.append_cons hreadable rfl rfl (hts.grouped _), reads_unary hread⟩

/-- A call without a notation of its own, whose arguments are trees with syntactic names. -/
theorem isRead_call {head : Node} {args : List (Arg Node)} (hhead : IsRead head)
    (hform : Form.ofCall .between (head.printed .between) (Node.printedArgs .between args) =
      .call (head.printed .between) (Node.printedArgs .between args))
    (hnames : ∀ a ∈ args, ∀ s ∈ a.name, Text.isSyntacticName s = true) (hvalues : ∀ a ∈ args, OperatorTree a.value)
    (h : ∀ a ∈ args, IsRead a.value) : IsRead (.call head args) := by
  obtain ⟨hs, hspells, hread⟩ := hhead
  have hargs : ∀ a ∈ args, ArgReadable .between a :=
    fun a ha => ⟨fun s hs => no_backslash_of_isSyntacticName (hnames a ha s hs), (h a ha).readable⟩
  have hsome : args ≠ [.unnamed .missing] := by
    rintro rfl
    exact absurd (hvalues _ List.mem_cons_self).not_missing (by decide)
  rw [IsRead, printed_call head args hform]
  exact reads_call (hspells.grouped _) hread.reads_head hargs hsome

theorem OperatorTree.isRead {n : Node} (h : OperatorTree n) : IsRead n := by
  induction h with
  | null => exact .of_isOperand isOperand_null rfl
  | bool b => exact .of_isOperand (isOperand_bool b) rfl
  | int h =>
    refine .of_isOperand (isOperand_int h) ?_
    simp [Node.printed, Printed.ofConstant, constantLevel, Number.isBelowZero_int h]
  | string s => exact .of_isOperand (isOperand_string s) rfl
  | symbol hname => exact isRead_symbol hname
  | binary hop hequals hlhs hrhs ihl ihr => exact isRead_binary hop hequals hlhs hrhs ihl ihr
  | unary hsign hoperand ih => exact isRead_unary hsign hoperand ih
  | call hname hnames hvalues ih => exact isRead_call (isRead_symbol hname) (ofCall_symbol hname _) hnames hvalues ih
  | curried hhead hnames hvalues ihh ih => exact isRead_call ihh rfl hnames hvalues ih

/-- Trees of operators and calls with the same text are equal. -/
theorem eq_of_text_eq {a b : Node} (ha : OperatorTree a) (hb : OperatorTree b) (h : a.text = b.text) : a = b :=
  eq_of_print_eq ha.isRead.readable hb.isRead.readable (text_eq_iff_print_eq.1 h)

/-- A sign in a group on the left of a tighter operator, and a difference in one on the right of a minus. -/
theorem eq_of_text_eq_minus : ∃ a b, OperatorTree a ∧ OperatorTree b ∧ a.text = "(-x)^y - (z - f(y = TRUE))" ∧
    b.text = a.text ∧ a = b := by
  let power : Node := .call (.symbol "^")
    [.unnamed (.call (.symbol "-") [.unnamed (.symbol "x")]), .unnamed (.symbol "y")]
  let difference : Node := .call (.symbol "-")
    [.unnamed (.symbol "z"), .unnamed (.call (.symbol "f") [.named "y" (.const (.bool true))])]
  have hminus : ("-", ⟨8, some .left, true⟩) ∈ binaryTable := by decide
  have hcaret : ("^", ⟨13, some .right, false⟩) ∈ binaryTable := by decide
  have hpower : OperatorTree power :=
    .binary hcaret (by decide) (.unary (.inl rfl) (.symbol (by decide))) (.symbol (by decide))
  have hcall : OperatorTree (.call (.symbol "f") [.named "y" (.const (.bool true))]) :=
    .call (by decide) (by decide) (by simpa [Arg.named] using OperatorTree.bool true)
  have hdifference : OperatorTree difference := .binary hminus (by decide) (.symbol (by decide)) hcall
  have hn := OperatorTree.binary hminus (by decide) hpower hdifference
  exact ⟨_, _, hn, hn, by decide, rfl, eq_of_text_eq hn hn rfl⟩

end Quotation.Print
