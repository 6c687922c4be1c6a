import Quotation.Print.Printer
import Quotation.Proofs.Print.Token
/-!
# Reading tokens back

A reader goes through tokens from left to right. It keeps a stack of frames, for what is
still open, and the operand it has read last. An operator settles what binds tighter than
itself before it waits for its right operand; a comma or a closing parenthesis settles all
operators. So a tree can be read off its tokens, provided that the printed groups are where
the reader needs them.

The two placements of operators have one reader. They only differ in what they make of a
head with arguments and of a sign in front of an operand.
-/

namespace Quotation.Print

/-! ## The reader -/

/-- The node of a head with arguments. Where operators stand in front, the word that begins
a list is no head. -/
def Placement.calling : Placement → Node → List (Arg Node) → Node
  | between, head, args => .call head args
  | front, head, args => if head = .symbol "pairlist" then .pairlist args else .call head args

/-- The node of a sign and its operand. Where operators stand in front, a sign is that of
an integer. -/
def Placement.signed : Placement → String → Node → Node
  | between, sign, operand => .call (.symbol sign) [.unnamed operand]
  | front, _, .const (.number (.int n)) => .const (.number (.int (-n)))
  | front, _, operand => operand

/-- The level from which on operators belong to the right operand. -/
def Operator.limit (op : Operator) : Nat := if op.side = some .right then op.level else op.level + 1

/-- What a reader is inside of. -/
inductive Frame where
  /-- an operator that waits for its right operand -/
  | operator (lhs : Node) (name : String) (op : Operator)
  /-- a sign that waits for its operand -/
  | sign (name : String)
  | group
  /-- the arguments of a head, of which some are done and the next one may have a name -/
  | args (head : Node) (done : List (Arg Node)) (name : Option String)

structure Reader where
  frames : List Frame
  operand : Option Node

/-- The level below which the innermost frame is settled. -/
def floor : List Frame → Nat
  | .operator _ _ op :: _ => op.limit
  | .sign _ :: _ => negationLevel
  | _ => 0

/-- Puts together what binds tighter than a level. -/
def settle (p : Placement) (level : Nat) : List Frame → Node → List Frame × Node
  | .operator lhs name op :: fs, n =>
    if level < op.limit then settle p level fs (.call (.symbol name) [.unnamed lhs, .unnamed n])
    else (.operator lhs name op :: fs, n)
  | .sign name :: fs, n =>
    if level < negationLevel then settle p level fs (p.signed name n) else (.sign name :: fs, n)
  | fs, n => (fs, n)

namespace Reader

/-- The frames and the operand once all operators are settled. An operand that is not there
is the missing argument. -/
def settled (p : Placement) (r : Reader) : List Frame × Node := settle p 0 r.frames (r.operand.getD .missing)

/-- Takes a word as an operand. -/
def atom (n : Node) (r : Reader) : Option Reader :=
  if r.operand.isNone then some ⟨r.frames, some n⟩ else none

def operator (p : Placement) (name : String) (r : Reader) : Option Reader :=
  match r.operand with
  | none => some ⟨.sign name :: r.frames, none⟩
  | some n => (binaryOperator? name).map fun op =>
    let (fs, lhs) := settle p op.level r.frames n
    ⟨.operator lhs name op :: fs, none⟩

/-- Begins a group, or the arguments of the operand. -/
def opened (r : Reader) : Reader :=
  match r.operand with
  | none => ⟨.group :: r.frames, none⟩
  | some head => ⟨.args head [] none :: r.frames, none⟩

/-- Ends an argument. -/
def comma (p : Placement) (r : Reader) : Option Reader :=
  match r.settled p with
  | (.args head done name :: fs, n) => some ⟨.args head (done ++ [⟨name, n⟩]) none :: fs, none⟩
  | _ => none

/-- Ends a group, or the last argument with the whole call. Nothing between parentheses is no
argument. -/
def closed (p : Placement) (r : Reader) : Option Reader :=
  match r.frames, r.operand with
  | .args head [] none :: fs, none => some ⟨fs, some (p.calling head [])⟩
  | _, _ =>
    match r.settled p with
    | (.args head done name :: fs, n) => some ⟨fs, some (p.calling head (done ++ [⟨name, n⟩]))⟩
    | (.group :: fs, n) => some ⟨fs, some n⟩
    | _ => none

/-- Takes the operand as the name of the argument. -/
def equals (r : Reader) : Option Reader :=
  match r.frames, r.operand with
  | .args head done none :: fs, some (.symbol name) => some ⟨.args head done (some name) :: fs, none⟩
  | _, _ => none

/-- Takes a token. -/
def step (p : Placement) (r : Reader) : Token → Option Reader
  | .null => r.atom (.const .null)
  | .bool b => r.atom (.const (.bool b))
  | .nat n => r.atom (.const (.number (.int (Int64.ofNat n))))
  | .string s => r.atom (.const (.string s))
  | .name name => r.atom (.symbol name)
  | .operator name _ => r.operator p name
  | .opened => some r.opened
  | .closed => r.closed p
  | .comma => r.comma p
  | .equals => r.equals

/-- Takes one token after the other. -/
def run (p : Placement) : Reader → List Token → Option Reader
  | r, [] => some r
  | r, t :: ts => (r.step p t).bind fun r => run p r ts

theorem run_append (p : Placement) (r : Reader) (ts us : List Token) :
    run p r (ts ++ us) = (run p r ts).bind fun r => run p r us := by
  induction ts generalizing r with
  | nil => rfl
  | cons t ts ih =>
    rw [List.cons_append, run, run, Option.bind_assoc]
    exact congrArg _ (funext ih)

end Reader

/-- The node that tokens spell. -/
def read (p : Placement) (ts : List Token) : Option Node :=
  match (Reader.run p ⟨[], none⟩ ts).map (Reader.settled p) with
  | some ([], n) => some n
  | _ => none

/-! ## Settling -/

section
variable {p : Placement} {level : Nat} {fs : List Frame}

theorem settle_of_floor_le (h : floor fs ≤ level) (n : Node) : settle p level fs n = (fs, n) := by
  cases fs with
  | nil => rfl
  | cons f fs =>
    cases f with
    | operator lhs name op => exact if_neg (Nat.not_lt.2 h)
    | sign name => exact if_neg (Nat.not_lt.2 h)
    | group => rfl
    | args head done name => rfl

theorem settled_some (n : Node) : Reader.settled p ⟨fs, some n⟩ = settle p 0 fs n := rfl

theorem settle_operator {op : Operator} (h : level < op.limit) (lhs : Node) (name : String) (n : Node) :
    settle p level (.operator lhs name op :: fs) n =
      settle p level fs (.call (.symbol name) [.unnamed lhs, .unnamed n]) := if_pos h

theorem settle_sign (h : level < negationLevel) (name : String) (n : Node) :
    settle p level (.sign name :: fs) n = settle p level fs (p.signed name n) := if_pos h

end

/-! ## Spelling -/

/-- The tokens make up the text of the pieces. -/
structure Spells (ts : List Token) (ps : List Piece) : Prop where
  lexical : Lexical ts
  text : textOf ts = write (.standard true) ps

theorem textOf_append (ts us : List Token) : textOf (ts ++ us) = textOf ts ++ textOf us := List.flatMap_append

theorem write_append (f : Formatter) (ps qs : List Piece) : write f (ps ++ qs) = write f ps ++ write f qs :=
  List.flatMap_append

/-- Two spellings with a sign between them. -/
theorem Spells.append_cons {ts us : List Token} {ps qs : List Piece} {t : Token} {q : Piece} (hts : Spells ts ps)
    (ht : t.isReadable = true) (hword : t.isWord = false) (htext : t.text = Formatter.standard true q)
    (hus : Spells us qs) : Spells (ts ++ t :: us) (ps ++ q :: qs) where
  lexical := hts.lexical.append_cons ht hword hus.lexical
  text := by
    rw [textOf_append, write_append, hts.text]
    show _ ++ (t.text ++ textOf us) = _ ++ (Formatter.standard true q ++ write _ qs)
    rw [htext, hus.text]

theorem Spells.nil : Spells [] [] := ⟨Lexical.nil, rfl⟩

/-! ## What tokens are read as -/

/-- The tokens are read as an operand, with nothing left to settle. -/
def Reads (p : Placement) (ts : List Token) (n : Node) : Prop :=
  ∀ fs, Reader.run p ⟨fs, none⟩ ts = some ⟨fs, some n⟩

/-- Where no operator waits, the tokens are read as the node once all operators are settled. -/
def Settles (p : Placement) (ts : List Token) (n : Node) : Prop :=
  ∀ fs, floor fs = 0 → ∃ r, Reader.run p ⟨fs, none⟩ ts = some r ∧ r.settled p = (fs, n)

/-- The node has tokens that it is read off again. -/
def Readable (p : Placement) (n : Node) : Prop := ∃ ts, Spells ts (n.printed p).pieces ∧ Settles p ts n

/-- The node has tokens that are read as one operand. -/
def IsOperand (p : Placement) (n : Node) : Prop := ∃ ts, Spells ts (n.printed p).pieces ∧ Reads p ts n

variable {p : Placement}

theorem Reads.settles {ts : List Token} {n : Node} (h : Reads p ts n) : Settles p ts n :=
  fun fs hfloor => ⟨_, h fs, settle_of_floor_le (Nat.le_of_eq hfloor) n⟩

theorem IsOperand.readable {n : Node} : IsOperand p n → Readable p n :=
  fun ⟨ts, hts, hread⟩ => ⟨ts, hts, hread.settles⟩

theorem Settles.read {ts : List Token} {n : Node} (h : Settles p ts n) : read p ts = some n := by
  obtain ⟨r, hrun, hsettled⟩ := h [] rfl
  rw [Print.read, hrun, Option.map_some, hsettled]

/-- Nodes that are read off their tokens can be told from their text. -/
theorem eq_of_print_eq {a b : Node} (ha : Readable p a) (hb : Readable p b)
    (h : a.print p (.standard true) = b.print p (.standard true)) : a = b := by
  obtain ⟨ts, hts, hread⟩ := ha
  obtain ⟨us, hus, hread'⟩ := hb
  obtain rfl : ts = us := eq_of_textOf_eq hts.lexical hus.lexical (by rw [hts.text, hus.text]; exact h)
  exact Option.some.inj (hread.read.symm.trans hread'.read)

/-! ## Constants and symbols -/

theorem write_stringBody (cs : List Char) : write (.standard true) (stringBody cs) = cs.flatMap written := by
  induction cs with
  | nil => rfl
  | cons c cs ih =>
    rw [List.flatMap_cons, ← ih, stringBody]
    by_cases hc : Text.needsEscape c = true
    · rw [if_pos hc, written, if_pos hc]
      rfl
    · rw [if_neg hc, written, if_neg hc]
      split
      · rename_i hbody
        rw [hbody]
        rfl
      · rfl

theorem spells_string (s : String) : Spells [.string s] (constant (.string s)) where
  lexical := .singleton rfl
  text := by
    rw [constant, List.cons_append]
    show _ = '"' :: write (.standard true) (stringBody s.toList ++ [.stringEnd])
    rw [write_append, write_stringBody]
    simp [textOf, Token.text, write, Formatter.standard]

theorem isOperand_null : IsOperand p (.const .null) := ⟨[.null], ⟨.singleton rfl, rfl⟩, fun _ => rfl⟩

theorem isOperand_bool (b : Bool) : IsOperand p (.const (.bool b)) := ⟨[.bool b], ⟨.singleton rfl, rfl⟩, fun _ => rfl⟩

theorem isOperand_string (s : String) : IsOperand p (.const (.string s)) :=
  ⟨[.string s], spells_string s, fun _ => rfl⟩

/-- The tokens of an integer: a sign, if it is negative, and digits. -/
def intTokens (n : Int64) : List Token :=
  if n.toInt < 0 then [.operator "-" false, .nat n.toInt.natAbs] else [.nat n.toInt.natAbs]

theorem spells_int (n : Int64) : Spells (intTokens n) (constant (.number (.int n))) := by
  unfold intTokens
  split
  · rename_i h
    refine ⟨Lexical.nil.append_cons rfl rfl (.singleton rfl), ?_⟩
    simp [textOf, Token.text, constant, write, Formatter.standard, Number.text, writesIntegers.negative _ h]
  · rename_i h
    refine ⟨.singleton rfl, ?_⟩
    simp [textOf, Token.text, constant, write, Formatter.standard, Number.text,
      writesIntegers.nonneg _ (Int.not_lt.1 h)]

theorem ofNat_natAbs {n : Int64} (h : 0 ≤ n.toInt) : Int64.ofNat n.toInt.natAbs = n := by
  rw [← Int64.ofInt_eq_ofNat, Int.natAbs_of_nonneg h, Int64.ofInt_toInt]

theorem isOperand_int {n : Int64} (h : 0 ≤ n.toInt) : IsOperand p (.const (.number (.int n))) := by
  refine ⟨intTokens n, spells_int n, fun fs => ?_⟩
  rw [intTokens, if_neg (Int.not_lt.2 h)]
  show some (Reader.mk fs (some (.const (.number (.int (Int64.ofNat n.toInt.natAbs)))))) = _
  rw [ofNat_natAbs h]

theorem print_named {name : String} (hne : name ≠ "") :
    (Node.symbol name).print p (.standard true) = Text.writeName name := by
  simp [Node.print, Node.printed, Printed.ofSymbol, write, Formatter.standard, Formatter.standard.nameText, hne]

theorem spells_symbol {name : String} (hne : name ≠ "") (hname : '\\' ∉ name.toList) :
    Spells [.name name] ((Node.symbol name).printed p).pieces where
  lexical := .singleton (by simpa [Token.isReadable] using hname)
  text := by
    have htext : textOf [.name name] = Text.writeName name := by simp [textOf, Token.text]
    exact htext.trans (print_named hne).symm

theorem isOperand_symbol {name : String} (hne : name ≠ "") (hname : '\\' ∉ name.toList) :
    IsOperand p (.symbol name) :=
  ⟨[.name name], spells_symbol hne hname, fun _ => rfl⟩

/-! ## Arguments -/

theorem closed_of_settled {r : Reader} {head n : Node} {done : List (Arg Node)} {name : Option String}
    {fs : List Frame} (h : r.settled p = (.args head done name :: fs, n))
    (hsome : ¬ (done = [] ∧ name = none ∧ n = .missing)) :
    r.closed p = some ⟨fs, some (p.calling head (done ++ [⟨name, n⟩]))⟩ := by
  unfold Reader.closed
  split
  · rename_i hframes hoperand
    -- Nothing has been read since the parenthesis, so the argument is the missing one.
    rw [Reader.settled, hframes, hoperand] at h
    cases h
    exact absurd ⟨rfl, rfl, rfl⟩ hsome
  · rw [h]

/-- The tokens of an argument: its name, if it has one, and those of its value. -/
def argTokens (name : Option String) (ts : List Token) : List Token :=
  match name with
  | some name => .name name :: .equals :: ts
  | none => ts

theorem spells_arg {name : Option String} {ts : List Token} {ps : List Piece}
    (hname : ∀ s ∈ name, '\\' ∉ s.toList) (h : Spells ts ps) :
    Spells (argTokens name ts) ((name.map Piece.argName).toList ++ ps) := by
  cases name with
  | none => exact h
  | some s =>
    have hs : (Token.name s).isReadable = true := by simpa [Token.isReadable] using hname s rfl
    refine ⟨(Lexical.singleton hs).append_cons (t := .equals) rfl rfl h.lexical, ?_⟩
    have htext := h.text
    simp only [textOf, write] at htext
    simp [argTokens, textOf, Token.text, write, Formatter.standard, Formatter.standard.nameText, htext]

theorem run_argTokens {ts : List Token} {n : Node} (h : Settles p ts n) (name : Option String) (head : Node)
    (done : List (Arg Node)) (fs : List Frame) :
    ∃ r, Reader.run p ⟨.args head done none :: fs, none⟩ (argTokens name ts) = some r ∧
      r.settled p = (.args head done name :: fs, n) := by
  cases name with
  | none => exact h _ rfl
  | some s => exact h _ rfl

/-- The argument can be read back: its value can, and its name has no backslash. -/
def ArgReadable (p : Placement) (a : Arg Node) : Prop := (∀ s ∈ a.name, '\\' ∉ s.toList) ∧ Readable p a.value

theorem argList_cons (a : Arg Printed) (as : List (Arg Printed)) (first : Bool) :
    Printed.argList first (a :: as) =
      .argStart first :: ((a.name.map Piece.argName).toList ++ a.value.pieces) ++ Printed.argList false as := by
  simp [Printed.argList]

/-- The mark before a first argument is written as nothing. -/
theorem spells_argStart {ts : List Token} {ps : List Piece} : Spells ts (.argStart true :: ps) ↔ Spells ts ps :=
  ⟨fun h => ⟨h.lexical, h.text⟩, fun h => ⟨h.lexical, h.text⟩⟩

/-- An argument with no others. -/
theorem spells_argList_singleton {a : Arg Node} {ts : List Token}
    (h : Spells ts ((a.name.map Piece.argName).toList ++ (a.value.printed p).pieces)) :
    Spells ts (Printed.argList true (Node.printedArgs p [a])) := by
  rw [Node.printedArgs, Node.printedArgs, argList_cons, Printed.argList, List.append_nil, spells_argStart]
  exact h

/-- An argument before others, with a comma between them. -/
theorem spells_argList_cons {a b : Arg Node} {bs : List (Arg Node)} {ts us : List Token}
    (hts : Spells ts ((a.name.map Piece.argName).toList ++ (a.value.printed p).pieces))
    (hus : Spells us (Printed.argList true (Node.printedArgs p (b :: bs)))) :
    Spells (ts ++ .comma :: us) (Printed.argList true (Node.printedArgs p (a :: b :: bs))) := by
  rw [Node.printedArgs, argList_cons, List.cons_append, spells_argStart] at hus
  rw [Node.printedArgs, argList_cons, List.cons_append, spells_argStart, Node.printedArgs, argList_cons,
    List.cons_append]
  exact hts.append_cons rfl rfl rfl hus

/-- The arguments of a list from some place on, with the closing parenthesis. -/
theorem spells_argList (a : Arg Node) (as : List (Arg Node)) (h : ∀ b ∈ a :: as, ArgReadable p b) :
    ∃ ts, Spells ts (Printed.argList true (Node.printedArgs p (a :: as))) ∧
      ∀ head done fs, ¬ (done = [] ∧ a :: as = [.unnamed .missing]) →
        Reader.run p ⟨.args head done none :: fs, none⟩ (ts ++ [.closed]) =
          some ⟨fs, some (p.calling head (done ++ a :: as))⟩ := by
  induction as generalizing a with
  | nil =>
    obtain ⟨hname, ts, hts, hread⟩ := h a List.mem_cons_self
    refine ⟨argTokens a.name ts, spells_argList_singleton (spells_arg hname hts), fun head done fs hsome => ?_⟩
    obtain ⟨r, hrun, hsettled⟩ := run_argTokens hread a.name head done fs
    rw [Reader.run_append, hrun]
    have hclosed := closed_of_settled hsettled (by
      rintro ⟨hdone, hnone, hmissing⟩
      obtain ⟨name, value⟩ := a
      cases hnone
      cases hmissing
      exact hsome ⟨hdone, rfl⟩)
    show (r.closed p).bind _ = _
    rw [hclosed]
    rfl
  | cons b bs ih =>
    obtain ⟨hname, ts, hts, hread⟩ := h a List.mem_cons_self
    obtain ⟨us, hus, hrest⟩ := ih b fun c hc => h c (List.mem_cons_of_mem a hc)
    refine ⟨argTokens a.name ts ++ .comma :: us, spells_argList_cons (spells_arg hname hts) hus, fun head done fs _ => ?_⟩
    obtain ⟨r, hrun, hsettled⟩ := run_argTokens hread a.name head done fs
    have hcomma : r.comma p = some ⟨.args head (done ++ [a]) none :: fs, none⟩ := by
      rw [Reader.comma, hsettled]
    rw [List.append_assoc, Reader.run_append, hrun]
    show (r.comma p).bind _ = _
    rw [hcomma]
    show Reader.run p _ (us ++ [.closed]) = _
    rw [hrest head (done ++ [a]) fs (by simp), List.append_assoc, List.singleton_append]

/-- What follows the opening parenthesis of arguments. -/
theorem spells_arguments {args : List (Arg Node)} (h : ∀ a ∈ args, ArgReadable p a)
    (hsome : args ≠ [.unnamed .missing]) :
    ∃ ts, Spells ts (Printed.argList true (Node.printedArgs p args) ++ [.argsEnd]) ∧
      ∀ head fs, Reader.run p ⟨.args head [] none :: fs, none⟩ ts = some ⟨fs, some (p.calling head args)⟩ := by
  cases args with
  | nil => exact ⟨[.closed], Spells.nil.append_cons rfl rfl rfl .nil, fun head fs => rfl⟩
  | cons a as =>
    obtain ⟨ts, hts, hread⟩ := spells_argList a as h
    refine ⟨ts ++ [.closed], hts.append_cons rfl rfl rfl .nil, fun head fs => ?_⟩
    exact hread head [] fs fun hargs => hsome hargs.2

/-- A head and arguments in parentheses are read as one operand. -/
theorem reads_call {hs : List Token} {ps : List Piece} {head : Node} {args : List (Arg Node)} (hhead : Spells hs ps)
    (hread : Reads p hs head) (hargs : ∀ a ∈ args, ArgReadable p a) (hsome : args ≠ [.unnamed .missing]) :
    ∃ ts, Spells ts (ps ++ Printed.parenthesized (Node.printedArgs p args)) ∧ Reads p ts (p.calling head args) := by
  obtain ⟨us, hus, hrun⟩ := spells_arguments hargs hsome
  refine ⟨hs ++ .opened :: us, hhead.append_cons rfl rfl rfl hus, fun fs => ?_⟩
  rw [Reader.run_append, hread fs]
  exact hrun head fs

end Quotation.Print
