import Quotation.Proofs.Print.Between
/-!
# Conditions

The parts of a condition are written without groups, so its text need not tell to which `if` an
`else` belongs. Read from left to right it belongs to the nearest one that can have it. `nearest`
moves every `else` there, and two conditions have the same text exactly when they are the same
after that (`text_eq_iff_nearest_eq`). Conditions in which every `else` is there already can be told
from their text.
-/

namespace Quotation.Print

/-- A name, or a condition over names with or without an `else`. -/
inductive Condition where
  | name (s : String) (hname : Text.isSyntacticName s = true)
  | ifThen (test yes : Condition)
  | ifElse (test yes no : Condition)

namespace Condition

def toNode : Condition → Node
  | name s _ => .symbol s
  | ifThen test yes => .call (.symbol "if") [.unnamed test.toNode, .unnamed yes.toNode]
  | ifElse test yes no => .call (.symbol "if") [.unnamed test.toNode, .unnamed yes.toNode, .unnamed no.toNode]

/-! ## Where an `else` belongs -/

/-- Whether the condition ends in one without an `else`, which takes one that comes next. -/
def isOpen : Condition → Bool
  | name _ _ => false
  | ifThen _ _ => true
  | ifElse _ _ no => no.isOpen

/-- Every `else` belongs to the nearest `if`: what stands before it is not open. -/
def IsNearest : Condition → Prop
  | name _ _ => True
  | ifThen test yes => test.IsNearest ∧ yes.IsNearest
  | ifElse test yes no => test.IsNearest ∧ (yes.IsNearest ∧ yes.isOpen = false) ∧ no.IsNearest

/-- Gives an `else` to the last `if` of an open condition. -/
def attach : Condition → Condition → Condition
  | name s hname, _ => name s hname
  | ifThen test yes, no => if yes.isOpen then ifThen test (yes.attach no) else ifElse test yes no
  | ifElse test yes other, no => ifElse test yes (other.attach no)

/-- Moves every `else` to the nearest `if`. -/
def nearest : Condition → Condition
  | name s hname => name s hname
  | ifThen test yes => ifThen test.nearest yes.nearest
  | ifElse test yes no => (ifThen test.nearest yes.nearest).attach no.nearest

theorem isNearest_attach {c no : Condition} (hc : c.IsNearest) (hno : no.IsNearest) : (c.attach no).IsNearest := by
  induction c with
  | name => trivial
  | ifThen test yes _ ih =>
    obtain ⟨htest, hyes⟩ := hc
    rw [attach]
    split
    · exact ⟨htest, ih hyes⟩
    · rename_i hopen
      exact ⟨htest, ⟨hyes, by simpa using hopen⟩, hno⟩
  | ifElse test yes other _ _ ih =>
    obtain ⟨htest, hyes, hother⟩ := hc
    exact ⟨htest, hyes, ih hother⟩

theorem isNearest_nearest (c : Condition) : c.nearest.IsNearest := by
  induction c with
  | name => trivial
  | ifThen test yes iht ihy => exact ⟨iht, ihy⟩
  | ifElse test yes no iht ihy ihn => exact isNearest_attach (c := .ifThen _ _) ⟨iht, ihy⟩ ihn

theorem IsNearest.nearest_eq {c : Condition} (hc : c.IsNearest) : c.nearest = c := by
  induction c with
  | name => rfl
  | ifThen test yes iht ihy => rw [nearest, iht hc.1, ihy hc.2]
  | ifElse test yes no iht ihy ihn =>
    obtain ⟨htest, ⟨hyes, hopen⟩, hno⟩ := hc
    rw [nearest, iht htest, ihy hyes, ihn hno, attach, hopen]
    rfl

/-! ## Text -/

/-- The characters of a condition. -/
def chars (c : Condition) : List Char := c.toNode.print .between (.standard true)

theorem not_missing (c : Condition) : (c.toNode.printed .between).isMissing = false := by
  cases c with
  | name s hname => exact isMissing_symbol hname
  | ifThen | ifElse => rfl

theorem chars_name {s : String} (hname : Text.isSyntacticName s = true) : (name s hname).chars = s.toList :=
  print_symbol hname

theorem chars_ifThen (test yes : Condition) :
    (ifThen test yes).chars = "if (".toList ++ (test.chars ++ ')' :: ' ' :: yes.chars) := by
  have hform : Form.ofCall .between (.ofSymbol "if") [.unnamed (test.toNode.printed .between),
      .unnamed (yes.toNode.printed .between)] =
        .condition (test.toNode.printed .between) (yes.toNode.printed .between) none := by
    simp [Form.ofCall, Printed.ofSymbol, Form.special?, Form.isPlain, Arg.unnamed, not_missing]
  rw [chars, toNode, Node.print, printed_call (.symbol "if") [.unnamed test.toNode, .unnamed yes.toNode] hform]
  simp [Form.pieces, write, chars, Node.print, Formatter.standard]

theorem chars_ifElse (test yes no : Condition) :
    (ifElse test yes no).chars = (ifThen test yes).chars ++ ' ' :: ("else ".toList ++ no.chars) := by
  have hform : Form.ofCall .between (.ofSymbol "if") [.unnamed (test.toNode.printed .between),
      .unnamed (yes.toNode.printed .between), .unnamed (no.toNode.printed .between)] =
        .condition (test.toNode.printed .between) (yes.toNode.printed .between) (some (no.toNode.printed .between)) := by
    simp [Form.ofCall, Printed.ofSymbol, Form.special?, Form.isPlain, Arg.unnamed, not_missing]
  rw [chars_ifThen, chars, toNode, Node.print,
    printed_call (.symbol "if") [.unnamed test.toNode, .unnamed yes.toNode, .unnamed no.toNode] hform]
  simp [Form.pieces, write, chars, Node.print, Formatter.standard]

/-- An `else` is written at the end, wherever it belongs. -/
theorem chars_attach {c : Condition} (hopen : c.isOpen = true) (no : Condition) :
    (c.attach no).chars = c.chars ++ ' ' :: ("else ".toList ++ no.chars) := by
  induction c with
  | name => cases hopen
  | ifThen test yes _ ih =>
    rw [attach]
    split
    · rename_i hyes
      rw [chars_ifThen, chars_ifThen, ih hyes]
      simp only [List.append_assoc, List.cons_append]
    · exact chars_ifElse test yes no
  | ifElse test yes other _ _ ih =>
    rw [attach, chars_ifElse, chars_ifElse, ih hopen]
    simp only [List.append_assoc, List.cons_append]

theorem chars_nearest (c : Condition) : c.nearest.chars = c.chars := by
  induction c with
  | name => rfl
  | ifThen test yes iht ihy => rw [nearest, chars_ifThen, chars_ifThen, iht, ihy]
  | ifElse test yes no iht ihy ihn =>
    rw [nearest, chars_attach rfl, chars_ifElse, chars_ifThen, chars_ifThen, iht, ihy, ihn]

/-! ## Reading -/

/-- What may come after a condition: nothing, a parenthesis, or an `else` that it does not take. -/
inductive Follows (c : Condition) : List Char → Prop
  | nothing : Follows c []
  | closed (rest : List Char) : Follows c (')' :: rest)
  | blank (hopen : c.isOpen = false) (rest : List Char) : Follows c (' ' :: rest)

theorem Follows.not_runsOn {c : Condition} {rest : List Char} (h : Follows c rest) : runsOn rest = false := by
  cases h with
  | nothing => rfl
  | closed rest => exact not_runsOn_cons (by decide) rest
  | blank _ rest => exact not_runsOn_cons (by decide) rest

/-- What may come after the last part of a condition may come after the condition. -/
theorem Follows.of_isOpen {c d : Condition} {rest : List Char} (h : Follows c rest)
    (hopen : d.isOpen = true → c.isOpen = true) : Follows d rest := by
  cases h with
  | nothing => exact .nothing
  | closed rest => exact .closed rest
  | blank hc rest =>
    refine .blank ?_ rest
    rw [Bool.eq_false_iff]
    intro hd
    rw [hopen hd] at hc
    cases hc

/-- A name is not taken for the word that a condition begins with. -/
theorem name_append_ne {s : String} (hname : Text.isSyntacticName s = true) {r rest : List Char}
    (hr : runsOn r = false) : s.toList ++ r ≠ "if (".toList ++ rest := by
  intro h
  have hs := nextToken_symbol hname hr
  have hif : nextToken ("if".toList ++ (" (".toList ++ rest)) = some (.name "if", " (".toList ++ rest) :=
    nextToken_word (by decide) (List.all_eq_true.1 (by decide)) (not_runsOn_cons (by decide) _)
  rw [h] at hs
  obtain ⟨rfl, -⟩ : "if" = s ∧ _ := by simpa using hif.symm.trans hs
  exact absurd hname (by decide)

/-- The condition and its end can be told from a text, among conditions in which every `else` is at
the nearest `if`. -/
def IsDetermined (c : Condition) : Prop :=
  ∀ (d : Condition) (r s : List Char), d.IsNearest → Follows c r → Follows d s → c.chars ++ r = d.chars ++ s →
    c = d ∧ r = s

theorem isDetermined_name {s : String} (hname : Text.isSyntacticName s = true) : (name s hname).IsDetermined := by
  intro d r u _ hr hu h
  rw [chars_name] at h
  cases d with
  | name t hname' =>
    rw [chars_name] at h
    have hs := nextToken_symbol hname hr.not_runsOn
    rw [h, nextToken_symbol hname' hu.not_runsOn] at hs
    obtain ⟨rfl, rfl⟩ : t = s ∧ u = r := by simpa using hs
    exact ⟨rfl, rfl⟩
  | ifThen test yes =>
    rw [chars_ifThen, List.append_assoc] at h
    exact absurd h (name_append_ne hname hr.not_runsOn)
  | ifElse test yes no =>
    rw [chars_ifElse, chars_ifThen, List.append_assoc, List.append_assoc] at h
    exact absurd h (name_append_ne hname hr.not_runsOn)

/-- What two conditions have before an `else`, or before their end. -/
theorem IsDetermined.parts {test test' yes yes' : Condition} (ht : test.IsDetermined) (hy : yes.IsDetermined)
    (ht' : test'.IsNearest) (hy' : yes'.IsNearest) {r s : List Char} (hr : Follows yes r) (hs : Follows yes' s)
    (h : (ifThen test yes).chars ++ r = (ifThen test' yes').chars ++ s) : test = test' ∧ yes = yes' ∧ r = s := by
  simp only [chars_ifThen, List.append_assoc, List.append_cancel_left_eq] at h
  obtain ⟨htest, h⟩ := ht test' _ _ ht' (.closed _) (.closed _) h
  exact ⟨htest, hy yes' r s hy' hr hs (by simpa using h)⟩

theorem isDetermined_ifThen {test yes : Condition} (ht : test.IsDetermined) (hy : yes.IsDetermined) :
    (ifThen test yes).IsDetermined := by
  intro d r s hd hr hs h
  have hyes : Follows yes r := hr.of_isOpen fun _ => rfl
  cases d with
  | name t hname =>
    rw [chars_name, chars_ifThen, List.append_assoc] at h
    exact absurd h.symm (name_append_ne hname hs.not_runsOn)
  | ifThen test' yes' =>
    obtain ⟨rfl, rfl, rfl⟩ := ht.parts hy hd.1 hd.2 hyes (hs.of_isOpen fun _ => rfl) h
    exact ⟨rfl, rfl⟩
  | ifElse test' yes' no' =>
    obtain ⟨htest', ⟨hyes', hopen⟩, _⟩ := hd
    rw [chars_ifElse, List.append_assoc] at h
    obtain ⟨-, -, rfl⟩ := ht.parts hy htest' hyes' hyes (.blank hopen _) h
    -- An open condition would take the `else`.
    cases hr with
    | blank hopen => cases hopen

theorem isDetermined_ifElse {test yes no : Condition} (ht : test.IsDetermined) (hy : yes.IsDetermined)
    (hn : no.IsDetermined) (hopen : yes.isOpen = false) : (ifElse test yes no).IsDetermined := by
  intro d r s hd hr hs h
  rw [chars_ifElse, List.append_assoc] at h
  cases d with
  | name t hname =>
    rw [chars_name, chars_ifThen, List.append_assoc] at h
    exact absurd h.symm (name_append_ne hname hs.not_runsOn)
  | ifThen test' yes' =>
    obtain ⟨-, -, rfl⟩ := ht.parts hy hd.1 hd.2 (.blank hopen _) (hs.of_isOpen fun _ => rfl) h
    cases hs with
    | blank hopen => cases hopen
  | ifElse test' yes' no' =>
    obtain ⟨htest', ⟨hyes', hopen'⟩, hno'⟩ := hd
    rw [chars_ifElse, List.append_assoc] at h
    obtain ⟨rfl, rfl, h⟩ := ht.parts hy htest' hyes' (.blank hopen _) (.blank hopen' _) h
    obtain ⟨rfl, rfl⟩ := hn no' r s hno' (hr.of_isOpen id) (hs.of_isOpen id) (by simpa using h)
    exact ⟨rfl, rfl⟩

theorem IsNearest.isDetermined {c : Condition} (h : c.IsNearest) : c.IsDetermined := by
  induction c with
  | name s hname => exact isDetermined_name hname
  | ifThen test yes iht ihy => exact isDetermined_ifThen (iht h.1) (ihy h.2)
  | ifElse test yes no iht ihy ihn =>
    obtain ⟨htest, ⟨hyes, hopen⟩, hno⟩ := h
    exact isDetermined_ifElse (iht htest) (ihy hyes) (ihn hno) hopen

theorem IsNearest.eq_of_chars_eq {a b : Condition} (ha : a.IsNearest) (hb : b.IsNearest) (h : a.chars = b.chars) :
    a = b :=
  (ha.isDetermined b [] [] hb .nothing .nothing (by rw [h])).1

/-- Two conditions have the same text exactly when they are the same with every `else` at the nearest
`if`. So those in which every `else` is there can be told from their text. -/
theorem text_eq_iff_nearest_eq (a b : Condition) :
    (a.toNode.text = b.toNode.text ↔ a.nearest = b.nearest) ∧
      (a.IsNearest → b.IsNearest → a.toNode.text = b.toNode.text → a.toNode = b.toNode) := by
  have htext : a.toNode.text = b.toNode.text ↔ a.nearest = b.nearest := by
    rw [text_eq_iff_print_eq]
    show a.chars = b.chars ↔ _
    rw [← chars_nearest a, ← chars_nearest b]
    exact ⟨(isNearest_nearest a).eq_of_chars_eq (isNearest_nearest b), congrArg chars⟩
  refine ⟨htext, fun ha hb h => ?_⟩
  rw [← ha.nearest_eq, ← hb.nearest_eq, htext.1 h]

/-- The `else` of `if (a) if (b) x else y` belongs to the second `if`. -/
theorem text_eq_iff_nearest_eq_inner : ∃ a b : Condition, a.IsNearest ∧ b.IsNearest ∧
    a.toNode.text = "if (a) if (b) x else y" ∧ b.toNode.text = a.toNode.text ∧ a.toNode = b.toNode := by
  let n (s : String) (h : Text.isSyntacticName s = true) : Condition := .name s h
  let c := ifThen (n "a" (by decide)) (ifElse (n "b" (by decide)) (n "x" (by decide)) (n "y" (by decide)))
  have hc : c.IsNearest := ⟨trivial, trivial, ⟨trivial, rfl⟩, trivial⟩
  exact ⟨c, c, hc, hc, by decide, rfl, (text_eq_iff_nearest_eq c c).2 hc hc rfl⟩

/-- The text is the same if the `else` belongs to the first `if`. -/
theorem not_eq_of_condition_text_eq : ∃ a b : Condition, a.toNode.text = "if (a) if (b) x else y" ∧
    b.toNode.text = a.toNode.text ∧ a.toNode ≠ b.toNode := by
  let n (s : String) (h : Text.isSyntacticName s = true) : Condition := .name s h
  exact ⟨ifElse (n "a" (by decide)) (ifThen (n "b" (by decide)) (n "x" (by decide))) (n "y" (by decide)),
    ifThen (n "a" (by decide)) (ifElse (n "b" (by decide)) (n "x" (by decide)) (n "y" (by decide))),
    by decide, by decide, by decide⟩

end Condition

end Quotation.Print
