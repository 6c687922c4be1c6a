import Quotation.Proofs.Print.Between
/-!
# Signs in front of their operands

A sign is written in front of its operand without a blank, so marks run together: `!!x` is the
text of `!!` before `x` and of `!` before `!x`. `spread` takes every mark apart into single ones,
and two trees of signs have the same text exactly when they are the same after that
(`text_eq_iff_spread_eq`). Trees in which no mark stands right before another one can be told from
their text.
-/

namespace Quotation.Print

/-- The operators of one operand. -/
inductive Sign where
  | minus
  | plus
  | negation
  | unquote
  | splice
  | tilde

namespace Sign

def name : Sign → String
  | minus => "-"
  | plus => "+"
  | negation => "!"
  | unquote => "!!"
  | splice => "!!!"
  | tilde => "~"

def level : Sign → Nat
  | minus => negationLevel
  | plus => negationLevel
  | negation => 6
  | unquote => 6
  | splice => 6
  | tilde => 3

/-- The signs are all operators of one operand. -/
theorem unaryTable_eq :
    unaryTable = [minus, plus, negation, unquote, splice, tilde].map fun s => (s.name, s.level) := rfl

theorem mem_unaryTable (s : Sign) : (s.name, s.level) ∈ unaryTable := by
  rw [unaryTable_eq]
  exact List.mem_map_of_mem (by cases s <;> simp)

/-- Whether the sign is a mark, written as one or more of the same character. -/
def isMark : Sign → Bool
  | negation => true
  | unquote => true
  | splice => true
  | _ => false

/-- The signs of one character that are written like the sign. -/
def steps : Sign → List Sign
  | unquote => [negation, negation]
  | splice => [negation, negation, negation]
  | s => [s]

theorem name_injective {s t : Sign} (h : s.name = t.name) : s = t := by
  cases s <;> cases t <;> first | rfl | exact absurd h (by decide)

/-- A sign of one character is read off a text. -/
theorem nextToken_name {s : Sign} (hs : s.steps = [s]) (rest : List Char) :
    nextToken (s.name.toList ++ rest) = some (.operator s.name false, rest) := by
  cases s with
  | minus | plus | negation | tilde => rfl
  | unquote | splice => cases hs

end Sign

/-- A name, or a sign and its operand. -/
inductive SignTree where
  | name (s : String) (hname : Text.isSyntacticName s = true)
  | signed (sign : Sign) (operand : SignTree)

namespace SignTree

def toNode : SignTree → Node
  | name s _ => .symbol s
  | signed sign operand => .call (.symbol sign.name) [.unnamed operand.toNode]

/-! ## Text -/

/-- The characters of a tree. -/
def chars (x : SignTree) : List Char := x.toNode.print .between (.standard true)

/-- The level of the outermost sign. -/
def level : SignTree → Option Nat
  | name _ _ => none
  | signed sign _ => some sign.level

theorem not_missing (x : SignTree) : (x.toNode.printed .between).isMissing = false := by
  cases x with
  | name s hname => exact isMissing_symbol hname
  | signed => rfl

theorem printed_signed (sign : Sign) (operand : SignTree) :
    (signed sign operand).toNode.printed .between = ⟨none, some sign.level, none,
      .operator sign.name false :: (operand.toNode.printed .between).grouped
        ((operand.toNode.printed .between).level.any (· < sign.level))⟩ :=
  printed_call (.symbol sign.name) [.unnamed operand.toNode] (ofCall_unary sign.mem_unaryTable operand.not_missing)

theorem printed_level (x : SignTree) : (x.toNode.printed .between).level = x.level := by
  cases x with
  | name => rfl
  | signed sign operand => rw [printed_signed, level]

/-- The characters of an operand, in a group if it needs one. -/
def groupChars (group : Bool) (cs : List Char) : List Char := if group then '(' :: (cs ++ [')']) else cs

theorem chars_name {s : String} (hname : Text.isSyntacticName s = true) : (name s hname).chars = s.toList :=
  print_symbol hname

theorem chars_signed (sign : Sign) (operand : SignTree) : (signed sign operand).chars =
    sign.name.toList ++ groupChars (operand.level.any (· < sign.level)) operand.chars := by
  rw [chars, Node.print, printed_signed, printed_level]
  cases operand.level.any (· < sign.level) <;>
    simp [Printed.grouped, groupChars, write, chars, Node.print, Formatter.standard]

/-! ## Taking marks apart -/

/-- Every sign has one character. -/
def IsSpread : SignTree → Prop
  | name _ _ => True
  | signed sign operand => sign.steps = [sign] ∧ operand.IsSpread

/-- Takes the signs apart that have more than one character. -/
def spread : SignTree → SignTree
  | name s hname => name s hname
  | signed sign operand => sign.steps.foldr signed operand.spread

theorem isSpread_spread (x : SignTree) : x.spread.IsSpread := by
  induction x with
  | name => trivial
  | signed sign operand ih =>
    cases sign with
    | minus | plus | negation | tilde => exact ⟨rfl, ih⟩
    | unquote => exact ⟨rfl, rfl, ih⟩
    | splice => exact ⟨rfl, rfl, rfl, ih⟩

/-- Marks that stand one right before the other are written without a group. -/
theorem chars_steps (sign : Sign) (operand : SignTree) :
    (sign.steps.foldr signed operand).chars = (signed sign operand).chars := by
  cases sign with
  | minus | plus | negation | tilde => rfl
  | unquote | splice =>
    simp only [Sign.steps, List.foldr_cons, List.foldr_nil, chars_signed]
    rfl

theorem level_steps (sign : Sign) (operand : SignTree) :
    (sign.steps.foldr signed operand).level = (signed sign operand).level := by
  cases sign <;> rfl

theorem level_spread (x : SignTree) : x.spread.level = x.level := by
  cases x with
  | name => rfl
  | signed sign operand => exact level_steps sign operand.spread

theorem chars_spread (x : SignTree) : x.spread.chars = x.chars := by
  induction x with
  | name => rfl
  | signed sign operand ih => rw [spread, chars_steps, chars_signed, chars_signed, ih, level_spread]

/-! ## Reading -/

/-- No tree is taken for a group. -/
theorem IsSpread.append_ne_group {x : SignTree} (hx : x.IsSpread) {r rest : List Char} (hr : runsOn r = false) :
    x.chars ++ r ≠ '(' :: rest := by
  intro h
  have hopened : nextToken ('(' :: rest) = some (.opened, rest) := rfl
  rw [← h] at hopened
  cases x with
  | name s hname =>
    rw [chars_name, nextToken_symbol hname hr] at hopened
    cases hopened
  | signed sign operand =>
    rw [chars_signed, List.append_assoc, sign.nextToken_name hx.1] at hopened
    cases hopened

/-- A text determines a tree whose signs have one character, and where it ends. -/
theorem IsSpread.eq_of_chars_append_eq {a b : SignTree} (ha : a.IsSpread) (hb : b.IsSpread) {r s : List Char}
    (hr : runsOn r = false) (hs : runsOn s = false) (h : a.chars ++ r = b.chars ++ s) : a = b ∧ r = s := by
  induction a generalizing b r s with
  | name n hname =>
    have hn := nextToken_symbol hname hr
    rw [chars_name] at h
    rw [h] at hn
    cases b with
    | name m hname' =>
      rw [chars_name, nextToken_symbol hname' hs] at hn
      obtain ⟨rfl, rfl⟩ : m = n ∧ s = r := by simpa using hn
      exact ⟨rfl, rfl⟩
    | signed sign operand =>
      rw [chars_signed, List.append_assoc, sign.nextToken_name hb.1] at hn
      cases hn
  | signed sign x ih =>
    rw [chars_signed, List.append_assoc] at h
    have hsign := sign.nextToken_name ha.1 (groupChars (x.level.any (· < sign.level)) x.chars ++ r)
    rw [h] at hsign
    cases b with
    | name m hname =>
      rw [chars_name, nextToken_symbol hname hs] at hsign
      cases hsign
    | signed sign' y =>
      rw [chars_signed, List.append_assoc, sign'.nextToken_name hb.1] at hsign
      obtain ⟨hname, hoperands⟩ : sign'.name = sign.name ∧ _ = _ := by simpa using hsign
      obtain rfl := Sign.name_injective hname
      suffices x = y ∧ r = s from ⟨by rw [this.1], this.2⟩
      -- The operands are both in groups or both without one.
      cases hx : x.level.any (· < sign'.level) <;> cases hy : y.level.any (· < sign'.level) <;>
        simp only [hx, hy, groupChars, Bool.false_eq_true, if_true, if_false, List.cons_append, List.append_assoc]
          at hoperands
      · exact ih ha.2 hb.2 hr hs hoperands.symm
      · exact absurd hoperands.symm (IsSpread.append_ne_group ha.2 hr)
      · exact absurd hoperands (IsSpread.append_ne_group hb.2 hs)
      · have hclosed (rest : List Char) : runsOn ([')'] ++ rest) = false := not_runsOn_cons (by decide) rest
        obtain ⟨hxy, hrest⟩ := ih ha.2 hb.2 (hclosed r) (hclosed s) (List.cons.inj hoperands.symm).2
        exact ⟨hxy, List.append_cancel_left hrest⟩

/-! ## Marks right before marks -/

/-- Whether the tree begins with a mark. -/
def isMarked : SignTree → Bool
  | name _ _ => false
  | signed sign _ => sign.isMark

/-- No mark stands right before another one. -/
def IsApart : SignTree → Prop
  | name _ _ => True
  | signed sign operand => (sign.isMark = true → operand.isMarked = false) ∧ operand.IsApart

theorem isMarked_spread (x : SignTree) : x.spread.isMarked = x.isMarked := by
  cases x with
  | name => rfl
  | signed sign operand => cases sign <;> rfl

/-- Where no mark follows, the marks of a sign can be counted. -/
theorem steps_injective {s t : Sign} {x y : SignTree} (hx : s.isMark = true → x.isMarked = false)
    (hy : t.isMark = true → y.isMarked = false) (h : s.steps.foldr signed x = t.steps.foldr signed y) :
    s = t ∧ x = y := by
  cases s <;> cases t <;>
    simp only [Sign.steps, List.foldr_cons, List.foldr_nil, signed.injEq, reduceCtorEq, false_and, true_and] at h
  -- What is left are equal signs, and marks of which one has more characters than the other.
  all_goals first
    | exact ⟨rfl, h⟩
    | rw [h] at hx
      cases hx rfl
    | rw [← h] at hy
      cases hy rfl

theorem IsApart.eq_of_spread_eq {a b : SignTree} (ha : a.IsApart) (hb : b.IsApart) (h : a.spread = b.spread) :
    a = b := by
  induction a generalizing b with
  | name s hname =>
    cases b with
    | name => exact h
    | signed sign operand => cases sign <;> cases h
  | signed sign x ih =>
    cases b with
    | name => cases sign <;> cases h
    | signed sign' y =>
      obtain ⟨rfl, hxy⟩ := steps_injective (fun hs => (isMarked_spread x).trans (ha.1 hs))
        (fun hs => (isMarked_spread y).trans (hb.1 hs)) h
      rw [ih ha.2 hb.2 hxy]

/-- Two trees of signs have the same text exactly when they are the same with every mark taken apart.
So trees in which no mark stands right before another one can be told from their text. -/
theorem text_eq_iff_spread_eq (a b : SignTree) :
    (a.toNode.text = b.toNode.text ↔ a.spread = b.spread) ∧
      (a.IsApart → b.IsApart → a.toNode.text = b.toNode.text → a.toNode = b.toNode) := by
  have htext : a.toNode.text = b.toNode.text ↔ a.spread = b.spread := by
    rw [text_eq_iff_print_eq]
    show a.chars = b.chars ↔ _
    rw [← chars_spread a, ← chars_spread b]
    refine ⟨fun h => ?_, congrArg chars⟩
    exact ((isSpread_spread a).eq_of_chars_append_eq (isSpread_spread b) (r := []) (s := []) rfl rfl (by rw [h])).1
  refine ⟨htext, fun ha hb h => ?_⟩
  rw [ha.eq_of_spread_eq hb (htext.1 h)]

/-- A mark before a minus, and a tilde with a mark in its operand. -/
theorem text_eq_iff_spread_eq_minus : ∃ a b : SignTree, a.IsApart ∧ b.IsApart ∧ a.toNode.text = "~!!-(!x)" ∧
    b.toNode.text = a.toNode.text ∧ a.toNode = b.toNode := by
  let x : SignTree := .name "x" (by decide)
  let n := signed .tilde (signed .unquote (signed .minus (signed .negation x)))
  have hn : n.IsApart := ⟨nofun, fun _ => rfl, nofun, fun _ => rfl, trivial⟩
  exact ⟨n, n, hn, hn, by decide, rfl, (text_eq_iff_spread_eq n n).2 hn hn rfl⟩

/-- Two negations show an unquote that is not there. -/
theorem not_eq_of_signed_text_eq : ∃ a b : SignTree, a.toNode.text = "!!x" ∧ b.toNode.text = a.toNode.text ∧
    a.toNode = .call (.symbol "!") [.unnamed (.call (.symbol "!") [.unnamed (.symbol "x")])] ∧
    b.toNode = .call (.symbol "!!") [.unnamed (.symbol "x")] ∧ a.toNode ≠ b.toNode := by
  let x : SignTree := .name "x" (by decide)
  exact ⟨signed .negation (signed .negation x), signed .unquote x, by decide, by decide, rfl, rfl, by decide⟩

end SignTree

end Quotation.Print
