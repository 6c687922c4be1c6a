import Quotation.Proofs.Surface.Reading
/-!
# Applications of operators

A parenthesized operator with arguments is the application of the operator to the arguments, if there
is a blank after the operator. Blanks are not seen, however, between a minus and a literal: such a minus
always belongs to the literal, and what is applied is then the negated literal
(`read_application_of_operator`).
-/

namespace Quotation.Surface

variable {o : Char} {ts : List Token} {args : List (Arg Form)}

/-- An operator by itself is an identifier, unless it introduces a name or belongs to a literal. -/
theorem operator_alone (hcolon : o ≠ ':') (hminus : ¬ (o = '-' ∧ ∃ text rest, ts = .literal text :: rest)) :
    Reader.operator o false ts = .ok (.form (.ident o.toString), ts) := by
  rw [Reader.operator, if_neg Bool.false_ne_true, if_neg hcolon]
  exact fun text rest hc hts => hminus ⟨hc, text, rest, hts⟩

theorem read_group {f : Form} {more : List Token} (hhead : readItem ts = .ok (.form f, more))
    (hargs : readArgs more = .ok args) : read [.group .paren ts] = .ok (.apply f args) :=
  read_of_readItem (readItem_paren (readForm_of_readItem hhead) hargs [])

/-- The arguments after a literal, if it is the first one. -/
theorem readArgs_literal {text : String} {rest : List Token} (h : readArgs (.literal text :: rest) = .ok args) :
    ∃ more, args = .unnamed (.literal text) :: more ∧ readArgs rest = .ok more := by
  rw [readArgs_of_ne_nil (List.cons_ne_nil _ _), readArgument_of_form (readItem_literal text rest)] at h
  replace h : (do return Arg.unnamed (Form.literal text) :: (← readArgs rest)) = .ok args := h
  obtain ⟨more, hmore, heq⟩ := bind_eq_ok_iff.1 h
  exact ⟨more, (Except.ok.inj heq).symm, hmore⟩

/-- A group of an operator and arguments is the application of the operator to them, but for a minus before a literal,
where it is the application of the negated literal to the other arguments. -/
theorem read_application_of_operator (ho : o ∈ Reader.operatorChars) (hcolon : o ≠ ':') (hargs : readArgs ts = .ok args) :
    (read [.group .paren (.punct o false :: ts)] = .ok (.apply (.ident o.toString) args) ↔
      ¬ (o = '-' ∧ ∃ text rest, ts = .literal text :: rest)) ∧
    ∀ text rest, o = '-' → ts = .literal text :: rest → ∃ more, args = .unnamed (.literal text) :: more ∧
      read [.group .paren (.punct o false :: ts)] = .ok (.apply (.negated text) more) := by
  have hitem : readItem (.punct o false :: ts) = Reader.operator o false ts :=
    readItem_operator (List.contains_iff_mem.2 ho) false ts
  have hnegated : ∀ text rest, o = '-' → ts = .literal text :: rest → ∃ more, args = .unnamed (.literal text) :: more ∧
      read [.group .paren (.punct o false :: ts)] = .ok (.apply (.negated text) more) := by
    rintro text rest rfl rfl
    obtain ⟨more, rfl, hmore⟩ := readArgs_literal hargs
    exact ⟨more, rfl, read_group hitem hmore⟩
  refine ⟨⟨?_, fun hminus => ?_⟩, hnegated⟩
  · rintro hread ⟨rfl, text, rest, rfl⟩
    obtain ⟨more, -, hread'⟩ := hnegated text rest rfl rfl
    rw [hread'] at hread
    cases hread
  · rw [operator_alone hcolon hminus] at hitem
    exact read_group hitem hargs

/-- The groups `(+ 1 2)`, `(- x 2)` and `(- 1 2)`. -/
theorem read_application_of_operator_minus :
    let one : Token := .literal "1"
    let two : Token := .literal "2"
    read [.group .paren [.punct '+' false, one, two]] =
      .ok (.apply (.ident "+") [.unnamed (.literal "1"), .unnamed (.literal "2")]) ∧
    read [.group .paren [.punct '-' false, .ident "x", two]] =
      .ok (.apply (.ident "-") [.unnamed (.ident "x"), .unnamed (.literal "2")]) ∧
    read [.group .paren [.punct '-' false, one, two]] = .ok (.apply (.negated "1") [.unnamed (.literal "2")]) := by
  intro one two
  have hnumbers : readArgs [one, two] = .ok [.unnamed (.literal "1"), .unnamed (.literal "2")] := rfl
  have hword : readArgs [.ident "x", two] = .ok [.unnamed (.ident "x"), .unnamed (.literal "2")] := rfl
  refine ⟨?_, ?_, ?_⟩
  · exact (read_application_of_operator (o := '+') (by decide) (by decide) hnumbers).1.2 (by simp)
  · exact (read_application_of_operator (o := '-') (by decide) (by decide) hword).1.2 (by simp)
  · obtain ⟨more, hmore, hread⟩ :=
      (read_application_of_operator (o := '-') (by decide) (by decide) hnumbers).2 "1" [two] rfl rfl
    obtain rfl := (List.cons.inj hmore).2
    exact hread

/-- The group `(- 1 2)` is no application of the minus. -/
theorem not_read_application_of_minus : ¬ ∀ (o : Char) (ts : List Token) (args : List (Arg Form)),
    o ∈ Reader.operatorChars → o ≠ ':' → readArgs ts = .ok args →
      read [.group .paren (.punct o false :: ts)] = .ok (.apply (.ident o.toString) args) := by
  intro h
  have hread : read [.group .paren [.punct '-' false, .literal "1", .literal "2"]] =
      .ok (.apply (.negated "1") [.unnamed (.literal "2")]) := by rfl
  have hminus : read [.group .paren [.punct '-' false, .literal "1", .literal "2"]] =
      .ok (.apply (.ident "-") [.unnamed (.literal "1"), .unnamed (.literal "2")]) :=
    h '-' _ _ (by decide) (by decide) rfl
  rw [hread] at hminus
  cases hminus

end Quotation.Surface
