import Quotation.Text.Name
/-!
# Quoted names

A name that is not syntactic is written between backticks, with a backslash before each backtick
of its own. A backslash of its own is written as it is, so a backtick after one may end the name
or belong to it. This is the only way in which the text of a quoted name can be the beginning of
that of another one (`writeName_isPrefix_iff`): names that do not end in a backslash show where they
end.
-/

namespace Quotation.Text

/-- A character of a name between backticks. -/
def quoted (c : Char) : List Char := if c = backtick then ['\\', backtick] else [c]

theorem quoteName_eq (cs : List Char) : quoteName cs = backtick :: (cs.flatMap quoted ++ [backtick]) := rfl

theorem quoted_backtick : quoted backtick = ['\\', backtick] := rfl

theorem quoted_of_ne {c : Char} (h : c ≠ backtick) : quoted c = [c] := if_neg h

/-- The first name ends in a backslash where the second one has a backtick. -/
def EndsInside (cs ds : List Char) : Prop := ∃ before after, cs = before ++ ['\\'] ∧ ds = before ++ backtick :: after

theorem EndsInside.cons {cs ds : List Char} (c : Char) : EndsInside cs ds → EndsInside (c :: cs) (c :: ds) := by
  rintro ⟨before, after, rfl, rfl⟩
  exact ⟨c :: before, after, rfl, rfl⟩

theorem EndsInside.isPrefix {cs ds : List Char} : EndsInside cs ds → quoteName cs <+: quoteName ds := by
  rintro ⟨before, after, rfl, rfl⟩
  refine ⟨after.flatMap quoted ++ [backtick], ?_⟩
  simp [quoteName_eq, quoted_backtick, quoted_of_ne (c := '\\') (by decide)]

/-- What is written for the characters of a name does not begin with a backtick. -/
theorem eq_nil_of_quoted_append_eq {cs rest more : List Char} (h : cs.flatMap quoted ++ rest = backtick :: more) :
    cs = [] := by
  cases cs with
  | nil => rfl
  | cons c cs =>
    rw [List.flatMap_cons] at h
    by_cases hc : c = backtick
    · rw [hc, quoted_backtick] at h
      exact absurd (List.cons.inj h).1 (by decide)
    · rw [quoted_of_ne hc] at h
      exact absurd (List.cons.inj h).1 hc

/-- A backtick after the characters of a name is the last one of another name, or one of its own. -/
theorem eq_or_endsInside {cs ds rest : List Char}
    (h : cs.flatMap quoted ++ backtick :: rest = ds.flatMap quoted ++ [backtick]) : cs = ds ∨ EndsInside cs ds := by
  induction cs generalizing ds with
  | nil => exact .inl (eq_nil_of_quoted_append_eq h.symm).symm
  | cons c cs ih =>
    cases ds with
    | nil => cases eq_nil_of_quoted_append_eq h
    | cons d ds =>
      rw [List.flatMap_cons, List.flatMap_cons, List.append_assoc, List.append_assoc] at h
      by_cases hc : c = backtick
      · by_cases hd : d = backtick
        · subst c d
          exact (ih (List.append_cancel_left h)).imp (congrArg _) (.cons backtick)
        · -- The backslash of the first name would be a character of the second one.
          rw [hc, quoted_backtick, quoted_of_ne hd] at h
          cases eq_nil_of_quoted_append_eq (List.cons.inj h).2.symm
          simp at h
      · by_cases hd : d = backtick
        · rw [hd, quoted_backtick, quoted_of_ne hc] at h
          obtain ⟨rfl, hrest⟩ := List.cons.inj h
          obtain rfl := eq_nil_of_quoted_append_eq hrest
          exact .inr ⟨[], ds, rfl, by rw [hd]; rfl⟩
        · rw [quoted_of_ne hc, quoted_of_ne hd] at h
          obtain ⟨rfl, hrest⟩ := List.cons.inj h
          exact (ih hrest).imp (congrArg _) (.cons c)

theorem quoteName_isPrefix_iff {cs ds : List Char} : quoteName cs <+: quoteName ds ↔ cs = ds ∨ EndsInside cs ds := by
  refine ⟨fun ⟨rest, h⟩ => ?_, ?_⟩
  · rw [quoteName_eq, quoteName_eq, List.cons_append, List.append_assoc] at h
    exact eq_or_endsInside (List.cons.inj h).2
  · rintro (rfl | h)
    · exact List.prefix_rfl
    · exact h.isPrefix

/-- The text of a quoted name is the beginning of that of another one exactly if the name ends in a
backslash where the other one has a backtick. A name without a backslash at the end delimits itself. -/
theorem writeName_isPrefix_iff {n m : String} (hn : isSyntacticName n = false) (hm : isSyntacticName m = false) :
    (writeName n <+: writeName m ↔ n = m ∨ EndsInside n.toList m.toList) ∧
      (n.toList.getLast? ≠ some '\\' → writeName n <+: writeName m → n = m) := by
  have hiff : writeName n <+: writeName m ↔ n = m ∨ EndsInside n.toList m.toList := by
    rw [writeName, writeName, hn, hm, ← String.toList_inj]
    exact quoteName_isPrefix_iff
  refine ⟨hiff, fun hlast h => (hiff.1 h).resolve_right ?_⟩
  rintro ⟨before, after, hbefore, -⟩
  exact hlast (by rw [hbefore, List.getLast?_concat])

/-- A backtick and a backslash inside of a name do not end it. -/
theorem writeName_isPrefix_iff_inside : ∃ n m : String, isSyntacticName n = false ∧ isSyntacticName m = false ∧
    String.ofList (writeName n) = "\x60a\\\\\x60b\x60" ∧ writeName n <+: writeName m ∧ n = m := by
  have hn : isSyntacticName "a\\\x60b" = false := by decide
  exact ⟨_, _, hn, hn, by decide, List.prefix_rfl, (writeName_isPrefix_iff hn hn).2 (by decide) List.prefix_rfl⟩

/-- The text of a name that ends in a backslash is the beginning of that of another one. -/
theorem not_eq_of_writeName_isPrefix : ∃ n m : String, isSyntacticName n = false ∧ isSyntacticName m = false ∧
    String.ofList (writeName n) = "\x60a\\\x60" ∧ String.ofList (writeName m) = "\x60a\\\x60b\x60" ∧
    writeName n <+: writeName m ∧ n ≠ m :=
  ⟨"a\\", "a\x60b", by decide, by decide, by decide, by decide, ⟨"b\x60".toList, by decide⟩, by decide⟩

end Quotation.Text
