import Quotation.Proofs.Run.Failing
import Quotation.Surface.Code
import Quotation.Surface.Reader
/-!
# Reading without a bound

The reader takes at most three steps for each token, whatever the tokens are: what is left after an
item is smaller than what was there (`countAll_lt_of_item`), and a bound beyond the steps that there can
be makes no difference (`item_succ`). So items, forms and arguments have readers without a bound
(`readItem`, `readForm`, `readArgs`), with the equations that the notation suggests.
-/

namespace Quotation.Surface

open Token (countAll count)

/-! ## What is left -/

section Left

variable {n : Nat} {c : Char} {joint : Bool} {ts rest : List Token} {i : Item} {f : Form}

theorem countAll_lt_of_argName (h : Reader.argName ts = .ok (i, rest)) : countAll rest < countAll ts := by
  unfold Reader.argName at h
  split at h
  · obtain ⟨name, -, heq⟩ := bind_eq_ok_iff.1 h
    cases heq
    simp [countAll, count]
  · cases h
    simp [countAll, count]
  · cases h
  · cases h

theorem countAll_joined_le (acc : String) (ts : List Token) : countAll (Reader.joined acc ts).2 ≤ countAll ts := by
  fun_induction Reader.joined acc ts <;> simp only [countAll] at * <;> omega

theorem countAll_le_of_operator (h : Reader.operator c joint ts = .ok (i, rest)) : countAll rest ≤ countAll ts := by
  unfold Reader.operator at h
  split at h
  · cases h
    exact countAll_joined_le _ _
  · split at h
    · exact Nat.le_of_lt (countAll_lt_of_argName h)
    · split at h
      · cases h
        simp [countAll]
      · cases h
        exact Nat.le_refl _

mutual
/-- An item takes at least one token. -/
theorem countAll_lt_of_item : ∀ {n : Nat} {ts rest : List Token} {i : Item}, Reader.item n ts = .ok (i, rest) →
    countAll rest < countAll ts
  | 0, _, _, _, h => by cases h
  | _ + 1, [], _, _, h => by cases h
  | n + 1, .punct c joint :: ts, rest, i, h => by
    rw [Reader.item] at h
    have hcount : countAll (.punct c joint :: ts) = 1 + countAll ts := rfl
    split at h
    · have hlt := countAll_lt_of_hash h
      omega
    · split at h
      · obtain ⟨⟨f, rest'⟩, hmarker, heq⟩ := bind_eq_ok_iff.1 h
        cases heq
        have hlt := countAll_lt_of_marker hmarker
        omega
      · split at h
        · have hle := countAll_le_of_operator h
          omega
        · cases h
  | _ + 1, .literal _ :: _, _, _, h => by
    cases h
    simp [countAll, count]
  | _ + 1, .ident _ :: _, _, _, h => by
    cases h
    simp [countAll, count]
  | _ + 1, .group .paren _ :: _, _, _, h => by
    obtain ⟨f, -, heq⟩ := bind_eq_ok_iff.1 h
    cases heq
    simp only [countAll, count]
    omega
  | _ + 1, .group .bracket _ :: _, _, _, h => by cases h
  | _ + 1, .group .brace _ :: _, _, _, h => by cases h
  | _ + 1, .group .none _ :: _, _, _, h => by cases h

theorem countAll_lt_of_form : ∀ {n : Nat} {ts rest : List Token} {f : Form}, Reader.form n ts = .ok (f, rest) →
    countAll rest < countAll ts
  | 0, _, _, _, h => by cases h
  | n + 1, ts, rest, f, h => by
    obtain ⟨⟨i, rest'⟩, hitem, heq⟩ := bind_eq_ok_iff.1 h
    cases i with
    | name name => cases heq
    | form g =>
      cases heq
      exact countAll_lt_of_item hitem

theorem countAll_lt_of_marker : ∀ {n : Nat} {ts rest : List Token} {f : Form}, Reader.marker n ts = .ok (f, rest) →
    countAll rest < countAll ts
  | 0, _, _, _, h => by cases h
  | n + 1, ts, rest, f, h => by
    unfold Reader.marker at h
    split at h
    · cases h
    · obtain ⟨⟨g, rest'⟩, hform, heq⟩ := bind_eq_ok_iff.1 h
      cases heq
      have hlt := countAll_lt_of_form hform
      simp only [countAll]
      omega
    · obtain ⟨⟨g, rest'⟩, hform, heq⟩ := bind_eq_ok_iff.1 h
      cases heq
      exact countAll_lt_of_form hform

theorem countAll_lt_of_hash : ∀ {n : Nat} {ts rest : List Token} {i : Item}, Reader.hash n ts = .ok (i, rest) →
    countAll rest < countAll ts
  | 0, _, _, _, h => by cases h
  | _ + 1, [], _, _, h => by cases h
  | _ + 1, .punct c joint :: ts, rest, i, h => by
    rw [Reader.hash] at h
    split at h
    · have hlt := countAll_lt_of_argName h
      simp only [countAll]
      omega
    · cases h
  | _ + 1, .literal _ :: _, _, _, h => by
    obtain ⟨name, -, heq⟩ := bind_eq_ok_iff.1 h
    cases heq
    simp [countAll, count]
  | _ + 1, .ident _ :: _, _, _, h => by
    obtain ⟨f, -, heq⟩ := bind_eq_ok_iff.1 h
    cases heq
    simp [countAll, count]
  | _ + 1, .group .paren _ :: _, _, _, h => by
    obtain ⟨f, -, heq⟩ := bind_eq_ok_iff.1 h
    cases heq
    simp only [countAll, count]
    omega
  | _ + 1, .group .bracket _ :: _, _, _, h => by cases h
  | _ + 1, .group .brace _ :: _, _, _, h => by cases h
  | _ + 1, .group .none _ :: _, _, _, h => by cases h
end

end Left

/-! ## One argument -/

/-- Reads one argument, with its name if it has one. -/
def Reader.argument (n : Nat) (ts : List Token) : Except ReadError (Arg Form × List Token) := do
  match ← Reader.item n ts with
  | (.form f, rest) => return (.unnamed f, rest)
  | (.name name, []) => .error (.missingValue name)
  | (.name name, rest) => do
    let (f, rest) ← Reader.form n rest
    return (.named name f, rest)

/-- Arguments are read one after the other. -/
theorem args_of_ne_nil (n : Nat) {ts : List Token} (h : ts ≠ []) : Reader.args (n + 1) ts = (do
    let (a, rest) ← Reader.argument n ts
    return a :: (← Reader.args n rest)) := by
  rw [Reader.args, Reader.argument]
  · cases Reader.item n ts with
    | error e => rfl
    | ok read =>
      obtain ⟨_ | name, _ | ⟨u, us⟩⟩ := read
      · rfl
      · rfl
      · rfl
      · show (do
          let (f, rest) ← Reader.form n (u :: us)
          return Arg.named name f :: (← Reader.args n rest)) = (do
          let (a, rest) ← (do
            let (f, rest) ← Reader.form n (u :: us)
            return (Arg.named name f, rest))
          return a :: (← Reader.args n rest))
        cases Reader.form n (u :: us) <;> rfl
  · exact h

theorem countAll_lt_of_argument {n : Nat} {ts rest : List Token} {a : Arg Form}
    (h : Reader.argument n ts = .ok (a, rest)) : countAll rest < countAll ts := by
  obtain ⟨⟨i, rest'⟩, hitem, hvalue⟩ := bind_eq_ok_iff.1 h
  have hlt := countAll_lt_of_item hitem
  cases i with
  | form f =>
    cases hvalue
    exact hlt
  | name name =>
    cases rest' with
    | nil => cases hvalue
    | cons u us =>
      obtain ⟨⟨f, rest''⟩, hform, heq⟩ := bind_eq_ok_iff.1 hvalue
      cases heq
      exact Nat.lt_trans (countAll_lt_of_form hform) hlt

theorem application_of_ne_nil (n : Nat) {ts : List Token} (h : ts ≠ []) : Reader.application (n + 1) ts = (do
    let (head, rest) ← Reader.form n ts
    return .apply head (← Reader.args n rest)) := by
  rw [Reader.application]
  exact h

/-! ## The bound -/

theorem count_pos (t : Token) : 0 < count t := by
  cases t with
  | punct | literal | ident => exact Nat.one_pos
  | group delimiter tokens =>
    rw [count]
    omega

mutual
/-- Three steps for each token are enough. The lemmas beside this one count the steps on the way to the next item. -/
theorem item_succ : ∀ {n : Nat} {ts : List Token}, 3 * countAll ts ≤ n → Reader.item (n + 1) ts = Reader.item n ts
  | 0, [], _ => rfl
  | 0, t :: ts, h => by
    have hpos := count_pos t
    simp only [countAll] at h
    omega
  | _ + 1, [], _ => rfl
  | n + 1, .punct c joint :: ts, h => by
    have hrest : 3 * countAll ts + 2 ≤ n := by
      simp only [countAll, count] at h
      omega
    rw [Reader.item, Reader.item, hash_succ hrest, marker_succ hrest]
  | _ + 1, .literal _ :: _, _ => rfl
  | _ + 1, .ident _ :: _, _ => rfl
  | n + 1, .group .paren tokens :: ts, h => by
    have hinner : 3 * countAll tokens + 2 ≤ n := by
      simp only [countAll, count] at h
      omega
    rw [Reader.item, Reader.item, application_succ hinner]
  | _ + 1, .group .bracket _ :: _, _ => rfl
  | _ + 1, .group .brace _ :: _, _ => rfl
  | _ + 1, .group .none _ :: _, _ => rfl

theorem form_succ : ∀ {n : Nat} {ts : List Token}, 3 * countAll ts + 1 ≤ n → Reader.form (n + 1) ts = Reader.form n ts
  | n + 1, ts, h => by rw [Reader.form, Reader.form, item_succ (Nat.le_of_succ_le_succ h)]

theorem marker_succ : ∀ {n : Nat} {ts : List Token}, 3 * countAll ts + 2 ≤ n →
    Reader.marker (n + 1) ts = Reader.marker n ts
  | n + 1, ts, h => by
    have hform : Reader.form (n + 1) ts = Reader.form n ts := form_succ (by omega)
    unfold Reader.marker
    split
    · cases ‹_ + 1 = 0›
    · cases ‹_ + 1 = _ + 1›
      rename_i joint rest _ _
      rw [form_succ (by simp only [countAll, count] at h; omega)]
    · cases ‹_ + 1 = _ + 1›
      rw [hform]

theorem hash_succ : ∀ {n : Nat} {ts : List Token}, 3 * countAll ts + 2 ≤ n → Reader.hash (n + 1) ts = Reader.hash n ts
  | _ + 1, [], _ => rfl
  | _ + 1, .punct _ _ :: _, _ => rfl
  | _ + 1, .literal _ :: _, _ => rfl
  | _ + 1, .ident _ :: _, _ => rfl
  | n + 1, .group .paren tokens :: ts, h => by
    have hinner : 3 * countAll tokens + 1 ≤ n := by
      simp only [countAll, count] at h
      omega
    rw [Reader.hash, Reader.hash, args_succ hinner]
  | _ + 1, .group .bracket _ :: _, _ => rfl
  | _ + 1, .group .brace _ :: _, _ => rfl
  | _ + 1, .group .none _ :: _, _ => rfl

theorem args_succ : ∀ {n : Nat} {ts : List Token}, 3 * countAll ts + 1 ≤ n → Reader.args (n + 1) ts = Reader.args n ts
  | _ + 1, [], _ => rfl
  | n + 1, t :: ts, h => by
    have hitem : Reader.item (n + 1) (t :: ts) = Reader.item n (t :: ts) := item_succ (Nat.le_of_succ_le_succ h)
    have hargument : Reader.argument (n + 1) (t :: ts) = Reader.argument n (t :: ts) := by
      rw [Reader.argument, Reader.argument, hitem]
      refine bind_congr_ok fun ⟨i, rest⟩ hread => ?_
      have hlt := countAll_lt_of_item hread
      have hform : Reader.form (n + 1) rest = Reader.form n rest := form_succ (by omega)
      cases i with
      | form f => rfl
      | name name =>
        cases rest with
        | nil => rfl
        | cons u us =>
          show (do
            let (f, rest) ← Reader.form (n + 1) (u :: us)
            return (Arg.named name f, rest)) = _
          rw [hform]
    rw [args_of_ne_nil (n + 1) (List.cons_ne_nil t ts), args_of_ne_nil n (List.cons_ne_nil t ts), hargument]
    refine bind_congr_ok fun ⟨a, rest⟩ hread => ?_
    have hlt := countAll_lt_of_argument hread
    have hrest : Reader.args (n + 1) rest = Reader.args n rest := args_succ (by omega)
    dsimp only
    rw [hrest]

theorem application_succ : ∀ {n : Nat} {ts : List Token}, 3 * countAll ts + 2 ≤ n →
    Reader.application (n + 1) ts = Reader.application n ts
  | _ + 1, [], _ => rfl
  | n + 1, t :: ts, h => by
    have hform : Reader.form (n + 1) (t :: ts) = Reader.form n (t :: ts) := form_succ (Nat.le_of_succ_le_succ h)
    rw [application_of_ne_nil (n + 1) (List.cons_ne_nil t ts), application_of_ne_nil n (List.cons_ne_nil t ts), hform]
    refine bind_congr_ok fun ⟨f, rest⟩ hread => ?_
    have hlt := countAll_lt_of_form hread
    have hrest : Reader.args (n + 1) rest = Reader.args n rest := args_succ (by omega)
    dsimp only
    rw [hrest]
end

/-! ## Readers without a bound -/

/-- Reads one item. -/
def readItem (ts : List Token) : Except ReadError (Item × List Token) := Reader.item (3 * countAll ts) ts

/-- Reads one form. -/
def readForm (ts : List Token) : Except ReadError (Form × List Token) := Reader.form (3 * countAll ts + 1) ts

/-- Reads one argument. -/
def readArgument (ts : List Token) : Except ReadError (Arg Form × List Token) := Reader.argument (3 * countAll ts) ts

/-- Reads arguments to the end. -/
def readArgs (ts : List Token) : Except ReadError (List (Arg Form)) := Reader.args (3 * countAll ts + 1) ts

section Unbounded

variable {n : Nat} {ts rest : List Token} {i : Item} {f : Form}

theorem item_eq (h : 3 * countAll ts ≤ n) : Reader.item n ts = readItem ts := by
  induction h with
  | refl => rfl
  | step h ih => rw [item_succ h, ih]

theorem form_eq (h : 3 * countAll ts + 1 ≤ n) : Reader.form n ts = readForm ts := by
  induction h with
  | refl => rfl
  | step h ih => rw [form_succ h, ih]

theorem args_eq (h : 3 * countAll ts + 1 ≤ n) : Reader.args n ts = readArgs ts := by
  induction h with
  | refl => rfl
  | step h ih => rw [args_succ h, ih]

/-! ### Forms -/

theorem readForm_of_readItem (h : readItem ts = .ok (.form f, rest)) : readForm ts = .ok (f, rest) := by
  rw [readForm, Reader.form, item_eq (Nat.le_refl _), h]
  rfl

theorem read_eq (ts : List Token) : read ts = (do
    match ← readForm ts with
    | (f, []) => return f
    | (_, _ :: _) => .error .trailingTokens) := by
  have hform : Reader.form (4 * countAll ts + 4) ts = readForm ts := form_eq (by omega)
  rw [← hform]
  rfl

theorem read_of_readItem (h : readItem ts = .ok (.form f, [])) : read ts = .ok f := by
  rw [read_eq, readForm_of_readItem h]
  rfl

/-! ### Arguments -/

theorem readArgs_nil : readArgs [] = .ok [] := rfl

theorem readArgs_of_ne_nil (h : ts ≠ []) : readArgs ts = (do
    let (a, rest) ← readArgument ts
    return a :: (← readArgs rest)) := by
  rw [readArgs, args_of_ne_nil _ h]
  refine bind_congr_ok fun ⟨a, rest⟩ hread => ?_
  have hlt := countAll_lt_of_argument hread
  dsimp only
  rw [args_eq (by omega)]

theorem readArgument_of_form (h : readItem ts = .ok (.form f, rest)) : readArgument ts = .ok (.unnamed f, rest) := by
  rw [readArgument, Reader.argument, item_eq (Nat.le_refl _), h]
  rfl

/-- A name is that of the form which comes next. -/
theorem readArgument_of_name {name : String} {rest' : List Token} (h : readItem ts = .ok (.name name, rest))
    (hvalue : readForm rest = .ok (f, rest')) : readArgument ts = .ok (.named name f, rest') := by
  have hlt := countAll_lt_of_item h
  rw [readArgument, Reader.argument, item_eq (Nat.le_refl _), h]
  cases rest with
  | nil => cases hvalue
  | cons u us =>
    show (do
      let (f, rest) ← Reader.form (3 * countAll ts) (u :: us)
      return (Arg.named name f, rest)) = _
    rw [form_eq (by omega), hvalue]
    rfl

/-- All arguments are read if the first one is, and those after it. -/
theorem readArgs_of_argument {a : Arg Form} {args : List (Arg Form)} (h : readArgument ts = .ok (a, rest))
    (hrest : readArgs rest = .ok args) : readArgs ts = .ok (a :: args) := by
  have hlt := countAll_lt_of_argument h
  rw [readArgs_of_ne_nil (by rintro rfl; simp [countAll] at hlt), h]
  show (do return a :: (← readArgs rest)) = _
  rw [hrest]
  rfl

/-! ### Items -/

theorem readItem_literal (text : String) (rest : List Token) :
    readItem (.literal text :: rest) = .ok (.form (.literal text), rest) := by
  have hbound : 3 * countAll (.literal text :: rest) = 3 * countAll rest + 2 + 1 := by
    simp only [countAll, count]
    omega
  rw [readItem, hbound]
  rfl

theorem readItem_operator {c : Char} (h : Reader.isOperatorChar c = true) (joint : Bool) (rest : List Token) :
    readItem (.punct c joint :: rest) = Reader.operator c joint rest := by
  have hhash : c ≠ '#' := by
    rintro rfl
    cases h
  have hcomma : c ≠ ',' := by
    rintro rfl
    cases h
  have hbound : 3 * countAll (.punct c joint :: rest) = 3 * countAll rest + 2 + 1 := by
    simp only [countAll, count]
    omega
  rw [readItem, hbound, Reader.item, if_neg hhash, if_neg hcomma, if_pos h]

theorem readItem_hash (joint : Bool) (rest : List Token) :
    readItem (.punct '#' joint :: rest) = Reader.hash (3 * countAll rest + 2) rest := by
  have hbound : 3 * countAll (.punct '#' joint :: rest) = 3 * countAll rest + 2 + 1 := by
    simp only [countAll, count]
    omega
  rw [readItem, hbound]
  rfl

/-- A comma and `@` before a form are a splice. -/
theorem readItem_splice (h : readForm ts = .ok (f, rest)) (joint joint' : Bool) :
    readItem (.punct ',' joint :: .punct '@' joint' :: ts) = .ok (.form (.splice f), rest) := by
  have hbound : 3 * countAll (.punct ',' joint :: .punct '@' joint' :: ts) = 3 * countAll ts + 4 + 1 + 1 := by
    simp only [countAll, count]
    omega
  have hmarker : Reader.marker (3 * countAll ts + 4 + 1) (.punct '@' joint' :: ts) = .ok (.splice f, rest) := by
    rw [Reader.marker, form_eq (by omega), h]
    rfl
  rw [readItem, hbound]
  show (do let (f, rest) ← Reader.marker _ (.punct '@' joint' :: ts); return (Item.form f, rest)) = _
  rw [hmarker]
  rfl

/-- A comma before a form that does not begin with `@` is an unquote. -/
theorem readItem_unquote (h : readForm ts = .ok (f, rest)) (hmark : ∀ joint us, ts ≠ .punct '@' joint :: us)
    (joint : Bool) : readItem (.punct ',' joint :: ts) = .ok (.form (.unquote f), rest) := by
  have hbound : 3 * countAll (.punct ',' joint :: ts) = 3 * countAll ts + 1 + 1 + 1 := by
    simp only [countAll, count]
    omega
  have hmarker : Reader.marker (3 * countAll ts + 1 + 1) ts = .ok (.unquote f, rest) := by
    rw [Reader.marker, form_eq (Nat.le_refl _), h]
    · rfl
    · exact hmark
  rw [readItem, hbound]
  show (do let (f, rest) ← Reader.marker _ ts; return (Item.form f, rest)) = _
  rw [hmarker]
  rfl

/-- A parenthesized head with its arguments. -/
theorem readItem_paren {args : List (Arg Form)} {more : List Token} (hhead : readForm ts = .ok (f, more))
    (hargs : readArgs more = .ok args) (rest : List Token) :
    readItem (.group .paren ts :: rest) = .ok (.form (.apply f args), rest) := by
  have hlt := countAll_lt_of_form hhead
  have hbound : 3 * countAll (.group .paren ts :: rest) = 3 * countAll ts + 3 * countAll rest + 1 + 1 + 1 := by
    simp only [countAll, count]
    omega
  have happly : Reader.application (3 * countAll ts + 3 * countAll rest + 1 + 1) ts = .ok (.apply f args) := by
    rw [application_of_ne_nil _ (by rintro rfl; simp [countAll] at hlt), form_eq (by omega), hhead]
    show (do return Form.apply f (← Reader.args _ more)) = _
    rw [args_eq (by omega), hargs]
    rfl
  rw [readItem, hbound, Reader.item, happly]
  rfl

/-- The arguments in a group after `#`. -/
theorem readItem_list {args : List (Arg Form)} (hargs : readArgs ts = .ok args) (joint : Bool) (rest : List Token) :
    readItem (.punct '#' joint :: .group .paren ts :: rest) = .ok (.form (.list args), rest) := by
  have hbound : 3 * countAll (.group .paren ts :: rest) + 2 = 3 * countAll ts + 3 * countAll rest + 4 + 1 := by
    simp only [countAll, count]
    omega
  rw [readItem_hash, hbound]
  show (do return (Item.form (.list (← Reader.args _ ts)), rest)) = _
  rw [args_eq (by omega), hargs]
  rfl

/-! ### Names -/

/-- What stands between the quotes of the literal of a string. -/
def body (s : String) : String := String.ofList (Text.literalBody s.toList)

/-- A name is taken from its literal as it stands there. -/
theorem literalName_string (s : String) : Reader.literalName (String.ofList (Text.literal s)) = .ok (body s) := by
  simp [Reader.literalName, Reader.stringBody?, Text.literal, body]

theorem argName_string (s : String) (rest : List Token) :
    Reader.argName (Code.string s :: rest) = .ok (.name (body s), rest) := by
  rw [Code.string, Reader.argName, literalName_string]
  rfl

theorem readItem_ident (joint : Bool) (s : String) (rest : List Token) :
    readItem (.punct '#' joint :: Code.string s :: rest) = .ok (.form (.ident (body s)), rest) := by
  rw [readItem_hash]
  show (do return (Item.form (.ident (← Reader.literalName (String.ofList (Text.literal s)))), rest)) = _
  rw [literalName_string]
  rfl

/-- The two marks of a named argument, and the form that comes after its name. -/
theorem readArgument_named (hvalue : readForm ts = .ok (f, rest)) (s : String) (joint joint' : Bool) :
    readArgument (.punct '#' joint :: .punct ':' joint' :: Code.string s :: ts) = .ok (.named (body s) f, rest) ∧
      readArgument (.punct ':' false :: Code.string s :: ts) = .ok (.named (body s) f, rest) := by
  have hname := argName_string s ts
  constructor
  · exact readArgument_of_name ((readItem_hash joint _).trans hname) hvalue
  · exact readArgument_of_name ((readItem_operator rfl false _).trans hname) hvalue

end Unbounded

end Quotation.Surface
